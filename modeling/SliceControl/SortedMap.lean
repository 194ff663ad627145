/-!
# Maps sorted by key

A map from text to values is kept as the list of its entries in strictly increasing key order.
The order is part of the type, so two maps with the same entries are the same list, and writing
a map out always lists its keys in the same order.
-/

namespace SliceControl

/-- Entries in strictly increasing key order. -/
structure SortedMap (α : Type) where
  entries : List (String × α)
  sorted : entries.Pairwise (fun left right => left.1 < right.1)

namespace SortedMap

variable {α β : Type}

theorem ext {left right : SortedMap α} (h : left.entries = right.entries) : left = right := by
  cases left
  cases right
  simp_all

instance [DecidableEq α] : DecidableEq (SortedMap α) := fun left right =>
  if h : left.entries = right.entries then
    isTrue (ext h)
  else
    isFalse fun same => h (congrArg entries same)

/-- The map without entries. -/
def empty : SortedMap α := ⟨[], List.Pairwise.nil⟩

instance : Inhabited (SortedMap α) := ⟨empty⟩

/-! ## Looking up -/

/-- The value stored under `key` in a list of entries. -/
def lookup (key : String) : List (String × α) → Option α
  | [] => none
  | entry :: rest => if entry.1 = key then some entry.2 else lookup key rest

/-- The value stored under `key`. -/
def get? (map : SortedMap α) (key : String) : Option α := lookup key map.entries

def contains (map : SortedMap α) (key : String) : Bool := (map.get? key).isSome

def keys (map : SortedMap α) : List String := map.entries.map Prod.fst

def values (map : SortedMap α) : List α := map.entries.map Prod.snd

def isEmpty (map : SortedMap α) : Bool := map.entries.isEmpty

def size (map : SortedMap α) : Nat := map.entries.length

/-! ## Inserting -/

/-- Puts an entry in its place, replacing the one with the same key. -/
def insertEntry (key : String) (value : α) : List (String × α) → List (String × α)
  | [] => [(key, value)]
  | entry :: rest =>
    if key < entry.1 then (key, value) :: entry :: rest
    else if key = entry.1 then (key, value) :: rest
    else entry :: insertEntry key value rest

theorem mem_insertEntry {key : String} {value : α} {entry : String × α}
    {entries : List (String × α)} (h : entry ∈ insertEntry key value entries) :
    entry = (key, value) ∨ entry ∈ entries := by
  induction entries with
  | nil => simpa [insertEntry] using h
  | cons head rest ih =>
    simp only [insertEntry] at h
    split at h
    · simpa using h
    · split at h
      · rcases List.mem_cons.mp h with h | h
        · exact Or.inl h
        · exact Or.inr (List.mem_cons_of_mem _ h)
      · rcases List.mem_cons.mp h with h | h
        · exact Or.inr (h ▸ List.mem_cons_self)
        · exact (ih h).imp_right (List.mem_cons_of_mem _)

theorem lt_of_not_lt_of_ne {left right : String} (notLess : ¬ left < right)
    (different : ¬ left = right) : right < left :=
  Decidable.byContradiction fun h =>
    different (String.le_antisymm (String.not_lt.mp h) (String.not_lt.mp notLess))

theorem pairwise_insertEntry (key : String) (value : α) {entries : List (String × α)}
    (h : entries.Pairwise (fun left right => left.1 < right.1)) :
    (insertEntry key value entries).Pairwise (fun left right => left.1 < right.1) := by
  induction entries with
  | nil => simp [insertEntry]
  | cons head rest ih =>
    obtain ⟨headLess, restSorted⟩ := List.pairwise_cons.mp h
    simp only [insertEntry]
    split
    · rename_i less
      refine List.pairwise_cons.mpr ⟨fun entry member => ?_, h⟩
      rcases List.mem_cons.mp member with rfl | member
      · exact less
      · exact String.lt_trans less (headLess entry member)
    · rename_i notLess
      split
      · rename_i same
        exact List.pairwise_cons.mpr ⟨fun entry member => same ▸ headLess entry member, restSorted⟩
      · rename_i different
        refine List.pairwise_cons.mpr ⟨fun entry member => ?_, ih restSorted⟩
        rcases mem_insertEntry member with rfl | member
        · exact lt_of_not_lt_of_ne notLess different
        · exact headLess entry member

/-- Stores `value` under `key`, replacing what was there. -/
def insert (map : SortedMap α) (key : String) (value : α) : SortedMap α :=
  ⟨insertEntry key value map.entries, pairwise_insertEntry key value map.sorted⟩

theorem lookup_insertEntry (key other : String) (value : α) (entries : List (String × α)) :
    lookup other (insertEntry key value entries) =
      if key = other then some value else lookup other entries := by
  induction entries with
  | nil => simp [insertEntry, lookup]
  | cons head rest ih =>
    simp only [insertEntry]
    split
    · simp [lookup]
    · split
      · rename_i same
        by_cases h : key = other
        · simp [lookup, h]
        · have hOther : ¬ head.1 = other := fun equal => h (same.trans equal)
          simp [lookup, h, hOther]
      · rename_i different
        by_cases h : head.1 = other
        · have hKey : ¬ key = other := fun equal => different (equal.trans h.symm)
          simp [lookup, h, hKey]
        · simp [lookup, h, ih]

@[simp] theorem get?_empty (key : String) : (empty : SortedMap α).get? key = none := rfl

@[simp] theorem get?_insert (map : SortedMap α) (key other : String) (value : α) :
    (map.insert key value).get? other = if key = other then some value else map.get? other :=
  lookup_insertEntry key other value map.entries

/-! ## Erasing -/

/-- Drops the entry stored under `key`, if there is one. -/
def erase (map : SortedMap α) (key : String) : SortedMap α :=
  ⟨map.entries.filter (fun entry => entry.1 ≠ key), map.sorted.sublist List.filter_sublist⟩

theorem lookup_filter_ne (key other : String) (entries : List (String × α)) :
    lookup other (entries.filter (fun entry => entry.1 ≠ key)) =
      if key = other then none else lookup other entries := by
  induction entries with
  | nil => simp [lookup]
  | cons head rest ih =>
    by_cases h : head.1 = key
    · rw [List.filter_cons_of_neg (by simp [h]), ih]
      by_cases hOther : key = other
      · simp [hOther]
      · simp [lookup, hOther, h]
    · rw [List.filter_cons_of_pos (by simp [h])]
      by_cases hOther : key = other
      · have hHead : ¬ head.1 = other := fun equal => h (equal.trans hOther.symm)
        simpa [lookup, hHead, hOther] using ih
      · simpa [lookup, hOther] using congrArg
          (fun found => if head.1 = other then some head.2 else found) ih

@[simp] theorem get?_erase (map : SortedMap α) (key other : String) :
    (map.erase key).get? other = if key = other then none else map.get? other :=
  lookup_filter_ne key other map.entries

/-! ## Membership -/

theorem lookup_eq_some_iff {entries : List (String × α)}
    (h : entries.Pairwise (fun left right => left.1 < right.1)) {key : String} {value : α} :
    lookup key entries = some value ↔ (key, value) ∈ entries := by
  induction entries with
  | nil => simp [lookup]
  | cons head rest ih =>
    obtain ⟨headLess, restSorted⟩ := List.pairwise_cons.mp h
    by_cases same : head.1 = key
    · have absent : (key, value) ∉ rest := by
        intro member
        have less : head.1 < key := headLess _ member
        exact String.lt_irrefl key (same ▸ less)
      simp only [lookup, if_pos same, Option.some.injEq, List.mem_cons, absent, or_false]
      exact ⟨fun equal => Prod.ext same.symm equal.symm,
        fun equal => (congrArg Prod.snd equal).symm⟩
    · have other : (key, value) ≠ head := fun equal => same (congrArg Prod.fst equal).symm
      simp only [lookup, if_neg same, List.mem_cons, other, false_or]
      exact ih restSorted

theorem mem_entries_iff {map : SortedMap α} {entry : String × α} :
    entry ∈ map.entries ↔ map.get? entry.1 = some entry.2 :=
  (lookup_eq_some_iff map.sorted).symm

theorem mem_keys_iff {map : SortedMap α} {key : String} :
    key ∈ map.keys ↔ (map.get? key).isSome = true := by
  simp only [keys, List.mem_map, Option.isSome_iff_exists]
  constructor
  · rintro ⟨entry, member, rfl⟩
    exact ⟨entry.2, mem_entries_iff.mp member⟩
  · rintro ⟨value, found⟩
    exact ⟨(key, value), mem_entries_iff.mpr found, rfl⟩

theorem mem_values_iff {map : SortedMap α} {value : α} :
    value ∈ map.values ↔ ∃ key, map.get? key = some value := by
  simp only [values, List.mem_map]
  constructor
  · rintro ⟨entry, member, rfl⟩
    exact ⟨entry.1, mem_entries_iff.mp member⟩
  · rintro ⟨key, found⟩
    exact ⟨(key, value), mem_entries_iff.mpr found, rfl⟩

theorem pairwise_keys (map : SortedMap α) : map.keys.Pairwise (· < ·) :=
  List.pairwise_map.mpr map.sorted

/-- The keys are in strictly increasing order, so none of them is listed twice. -/
theorem nodup_keys (map : SortedMap α) : map.keys.Nodup := by
  refine map.pairwise_keys.imp ?_
  intro left right less equal
  rw [equal] at less
  exact String.lt_irrefl _ less

theorem isEmpty_iff {map : SortedMap α} : map.isEmpty = true ↔ ∀ key, map.get? key = none := by
  rw [isEmpty, List.isEmpty_iff]
  constructor
  · intro none key
    rw [get?, none, lookup]
  · intro none
    refine List.eq_nil_iff_forall_not_mem.mpr fun entry member => ?_
    have found := mem_entries_iff.mp member
    rw [none] at found
    exact absurd found (by simp)

@[simp] theorem contains_empty (key : String) : (empty : SortedMap α).contains key = false := rfl

@[simp] theorem contains_insert (map : SortedMap α) (key other : String) (value : α) :
    (map.insert key value).contains other = (decide (key = other) || map.contains other) := by
  by_cases h : key = other <;> simp [contains, h]

@[simp] theorem contains_erase (map : SortedMap α) (key other : String) :
    (map.erase key).contains other = (!decide (key = other) && map.contains other) := by
  by_cases h : key = other <;> simp [contains, h]

/-- Two sorted lists of entries with the same members are the same list. -/
theorem entries_eq_of_mem_iff {left right : List (String × α)}
    (hLeft : left.Pairwise (fun first second => first.1 < second.1))
    (hRight : right.Pairwise (fun first second => first.1 < second.1))
    (h : ∀ entry, entry ∈ left ↔ entry ∈ right) : left = right := by
  induction left generalizing right with
  | nil => exact (List.eq_nil_iff_forall_not_mem.mpr fun entry member =>
      List.not_mem_nil ((h entry).mpr member)).symm
  | cons head rest ih =>
    cases right with
    | nil => exact absurd ((h head).mp List.mem_cons_self) List.not_mem_nil
    | cons other others =>
      obtain ⟨headLess, restSorted⟩ := List.pairwise_cons.mp hLeft
      obtain ⟨otherLess, othersSorted⟩ := List.pairwise_cons.mp hRight
      have same : head = other := by
        rcases List.mem_cons.mp ((h head).mp List.mem_cons_self) with equal | inOthers
        · exact equal
        · rcases List.mem_cons.mp ((h other).mpr List.mem_cons_self) with equal | inRest
          · exact equal.symm
          · exact absurd (String.lt_trans (otherLess _ inOthers) (headLess _ inRest))
              (String.lt_irrefl _)
      subst same
      have tails : ∀ entry, entry ∈ rest ↔ entry ∈ others := by
        intro entry
        constructor
        · intro member
          rcases List.mem_cons.mp ((h entry).mp (List.mem_cons_of_mem _ member)) with equal | found
          · exact absurd (equal ▸ headLess entry member) (String.lt_irrefl _)
          · exact found
        · intro member
          rcases List.mem_cons.mp ((h entry).mpr (List.mem_cons_of_mem _ member)) with equal | found
          · exact absurd (equal ▸ otherLess entry member) (String.lt_irrefl _)
          · exact found
      rw [ih restSorted othersSorted tails]

/-- A map is determined by what is stored under each key. -/
theorem ext_get? {left right : SortedMap α} (h : ∀ key, left.get? key = right.get? key) :
    left = right :=
  ext (entries_eq_of_mem_iff left.sorted right.sorted fun entry => by
    rw [mem_entries_iff, mem_entries_iff, h])

/-! ## Building and transforming -/

/-- Stores the entries one after the other; of two with one key the later stays. -/
def ofList (entries : List (String × α)) : SortedMap α :=
  entries.foldl (fun map entry => map.insert entry.1 entry.2) empty

theorem pairwise_map (f : α → β) {entries : List (String × α)}
    (h : entries.Pairwise (fun left right => left.1 < right.1)) :
    (entries.map fun entry => (entry.1, f entry.2)).Pairwise
      (fun left right => left.1 < right.1) :=
  List.pairwise_map.mpr h

/-- Applies `f` to every value. -/
def mapValues (map : SortedMap α) (f : α → β) : SortedMap β :=
  ⟨map.entries.map fun entry => (entry.1, f entry.2), pairwise_map f map.sorted⟩

/-- Keeps the entries whose key passes `keep`. -/
def filterKeys (map : SortedMap α) (keep : String → Bool) : SortedMap α :=
  ⟨map.entries.filter fun entry => keep entry.1, map.sorted.sublist List.filter_sublist⟩

end SortedMap

/-- A finite set of texts, in increasing order. -/
abbrev NameSet := SortedMap Unit

namespace NameSet

/-- Adds `name`. -/
def add (names : NameSet) (name : String) : NameSet := names.insert name ()

/-- The members in increasing order. -/
def toList (names : NameSet) : List String := names.keys

@[simp] theorem contains_add (names : NameSet) (name other : String) :
    (names.add name).contains other = (decide (name = other) || names.contains other) :=
  SortedMap.contains_insert names name other ()

theorem mem_toList_iff {names : NameSet} {name : String} :
    name ∈ names.toList ↔ names.contains name = true :=
  SortedMap.mem_keys_iff

theorem ext_contains {left right : NameSet}
    (h : ∀ name, left.contains name = right.contains name) : left = right := by
  refine SortedMap.ext_get? fun name => ?_
  have same := h name
  unfold SortedMap.contains at same
  cases hLeft : left.get? name <;> cases hRight : right.get? name <;> simp_all

end NameSet

end SliceControl
