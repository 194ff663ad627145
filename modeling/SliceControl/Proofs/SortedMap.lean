import Mathlib.Tactic.SplitIfs
import SliceControl.SortedMap

/-!
# Maps made from lists

A map made from a list of entries has under each key the last value of the list, and the entries of
a map make the same map again.
-/

namespace SliceControl.SortedMap

variable {α : Type}

theorem get?_foldl_insert (entries : List (String × α)) (map : SortedMap α) (key : String) :
    (entries.foldl (fun map entry ↦ map.insert entry.1 entry.2) map).get? key =
      ((ofList entries).get? key).or (map.get? key) := by
  induction entries generalizing map with
  | nil => rfl
  | cons entry rest ih =>
    unfold ofList
    rw [List.foldl_cons, List.foldl_cons, ih, ih (empty.insert entry.1 entry.2), get?_insert,
      get?_insert, get?_empty, Option.or_assoc]
    congr 1
    split_ifs <;> rfl

@[simp] theorem get?_ofList_append (first second : List (String × α)) (key : String) :
    (ofList (first ++ second)).get? key =
      ((ofList second).get? key).or ((ofList first).get? key) := by
  rw [ofList, List.foldl_append]
  exact get?_foldl_insert second _ key

@[simp] theorem get?_ofList_nil (key : String) :
    (ofList ([] : List (String × α))).get? key = none :=
  rfl

@[simp] theorem get?_ofList_cons (entry : String × α) (rest : List (String × α)) (key : String) :
    (ofList (entry :: rest)).get? key =
      ((ofList rest).get? key).or (if entry.1 = key then some entry.2 else none) := by
  rw [ofList, List.foldl_cons, get?_foldl_insert, get?_insert, get?_empty]

/-- What is found comes from the list. -/
theorem mem_of_get?_ofList {entries : List (String × α)} {key : String} {value : α}
    (h : (ofList entries).get? key = some value) : (key, value) ∈ entries := by
  induction entries with
  | nil => cases h
  | cons entry rest ih =>
    rw [get?_ofList_cons] at h
    rcases Option.or_eq_some_iff.mp h with hrest | ⟨-, hfirst⟩
    · exact List.mem_cons_of_mem _ (ih hrest)
    · split_ifs at hfirst with hkey
      cases hfirst
      rw [← hkey]
      exact List.mem_cons_self

/-- Entries that are sorted already stay as they are. -/
theorem entries_ofList {entries : List (String × α)}
    (h : entries.Pairwise fun left right ↦ left.1 < right.1) :
    (ofList entries).entries = entries := by
  have hget (key : String) : (ofList entries).get? key = lookup key entries := by
    induction entries with
    | nil => rfl
    | cons entry rest ih =>
      obtain ⟨hless, hrest⟩ := List.pairwise_cons.mp h
      rw [get?_ofList_cons, ih hrest, lookup]
      split_ifs with hkey
      · cases hfound : lookup key rest with
        | none => rfl
        | some value =>
          have hlater : entry.1 < key := hless _ ((lookup_eq_some_iff hrest).mp hfound)
          rw [hkey] at hlater
          exact absurd hlater (String.lt_irrefl key)
      · exact Option.or_none
  exact congrArg SortedMap.entries
    (ext_get? hget : ofList entries = ⟨entries, h⟩)

@[simp] theorem ofList_entries (map : SortedMap α) : ofList map.entries = map :=
  ext (entries_ofList map.sorted)

theorem get?_filterKeys (map : SortedMap α) (keep : String → Bool) (key : String) :
    (map.filterKeys keep).get? key = if keep key then map.get? key else none := by
  ext value
  have hmem : (key, value) ∈ (map.filterKeys keep).entries ↔
      (key, value) ∈ map.entries ∧ keep key = true := List.mem_filter
  rw [mem_entries_iff, mem_entries_iff] at hmem
  rw [hmem]
  split_ifs with hkeep <;> simp [hkeep]

theorem get?_mapValues {β : Type} (map : SortedMap α) (f : α → β) (key : String) :
    (map.mapValues f).get? key = (map.get? key).map f := by
  have hlookup (entries : List (String × α)) :
      lookup key (entries.map fun entry ↦ (entry.1, f entry.2)) = (lookup key entries).map f := by
    induction entries with
    | nil => rfl
    | cons entry rest ih =>
      rw [List.map_cons, lookup, lookup, ih]
      split_ifs <;> rfl
  exact hlookup map.entries

end SliceControl.SortedMap
