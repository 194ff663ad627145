import Mathlib.Data.List.Nodup
import SliceControl.Store

/-!
# A consistent store

The store finds slices, workloads and nodes under their own names, and it lists under every owner
exactly the slices that name this owner. Every operation keeps it so. In a consistent store the
slices of a workload can be read off the slices themselves, without the list of their owner.
-/

namespace SliceControl

open SortedMap

namespace Store

/-- Everything is found under its own name, and the lists of the owners say what the slices say. -/
structure Consistent (store : Store) : Prop where
  slice_name : ∀ name slice, store.slice? name = some slice → slice.name = name
  workload_key : ∀ key workload, store.workload? key = some workload → workload.key = key
  node_name : ∀ name node, store.node? name = some node → node.name = name
  owned_iff : ∀ key name, (store.ownedNames key).contains name = true ↔
    ∃ slice, store.slice? name = some slice ∧ slice.ownerKey = some key
  /-- An owner without slices is not listed. -/
  owned_nonempty : ∀ key names, store.owned.get? key = some names → names.isEmpty = false

theorem consistent_empty : empty.Consistent where
  slice_name := by intro name slice hslice; exact absurd hslice (by simp [slice?, empty])
  workload_key := by
    intro key workload hworkload
    exact absurd hworkload (by simp [workload?, empty])
  node_name := by intro name node hnode; exact absurd hnode (by simp [node?, empty])
  owned_iff := by intro key name; simp [ownedNames, slice?, empty]
  owned_nonempty := by intro key names hnames; exact absurd hnames (by simp [empty])

/-! ## The slices of a workload -/

/-- The slice of a name, if it belongs to `key`. -/
def ownedSlice? (store : Store) (key name : String) : Option Slice :=
  (store.slice? name).filter fun slice ↦ slice.ownerKey = some key

variable {store : Store}

theorem ownedSlice?_eq_some_iff {key name : String} {slice : Slice} :
    store.ownedSlice? key name = some slice ↔
      store.slice? name = some slice ∧ slice.ownerKey = some key := by
  simp [ownedSlice?, Option.filter_eq_some_iff]

theorem ownedSlice?_eq_none_iff {key name : String} :
    store.ownedSlice? key name = none ↔
      ∀ slice, store.slice? name = some slice → slice.ownerKey ≠ some key := by
  simp [ownedSlice?, Option.filter_eq_none_iff]

namespace Consistent

theorem mem_ownedSlices_iff (h : store.Consistent) {key : String} {slice : Slice} :
    slice ∈ store.ownedSlices key ↔ store.ownedSlice? key slice.name = some slice := by
  simp only [ownedSlices, List.mem_filterMap, NameSet.mem_toList_iff, h.owned_iff,
    ownedSlice?_eq_some_iff]
  constructor
  · rintro ⟨name, ⟨other, hother, howner⟩, hslice⟩
    cases hother.symm.trans hslice
    rw [h.slice_name name slice hslice]
    exact ⟨hslice, howner⟩
  · rintro ⟨hslice, howner⟩
    exact ⟨slice.name, ⟨slice, hslice, howner⟩, hslice⟩

/-- The slices of an owner are those whose names are listed for it, in the order of the list. -/
theorem map_name_ownedSlices (h : store.Consistent) (key : String) :
    (store.ownedSlices key).map Slice.name = (store.ownedNames key).toList := by
  have hlisted : ∀ name ∈ (store.ownedNames key).toList,
      (store.slice? name).map Slice.name = some name := by
    intro name hname
    obtain ⟨slice, hslice, -⟩ := (h.owned_iff key name).mp (NameSet.mem_toList_iff.mp hname)
    rw [hslice, Option.map_some, h.slice_name name slice hslice]
  calc (store.ownedSlices key).map Slice.name
      = (store.ownedNames key).toList.filterMap fun name ↦ (store.slice? name).map Slice.name := by
        rw [ownedSlices, List.map_filterMap]
    _ = (store.ownedNames key).toList.filterMap some := List.filterMap_congr hlisted
    _ = (store.ownedNames key).toList := List.filterMap_some

theorem nodup_ownedSlices_names (h : store.Consistent) (key : String) :
    ((store.ownedSlices key).map Slice.name).Nodup := by
  rw [h.map_name_ownedSlices]
  exact nodup_keys _

/-- The slices of a workload are listed by name, so they are known once the slice of every name is
known. -/
theorem ownedSlices_congr {other : Store} (h : store.Consistent) (hother : other.Consistent)
    {key : String} (hsame : ∀ name, store.ownedSlice? key name = other.ownedSlice? key name) :
    store.ownedSlices key = other.ownedSlices key := by
  have hiff (name : String) (slice : Slice) :
      (store.slice? name = some slice ∧ slice.ownerKey = some key) ↔
        (other.slice? name = some slice ∧ slice.ownerKey = some key) := by
    rw [← ownedSlice?_eq_some_iff, hsame, ownedSlice?_eq_some_iff]
  have hnames : store.ownedNames key = other.ownedNames key := by
    apply NameSet.ext_contains
    intro name
    rw [Bool.eq_iff_iff, h.owned_iff, hother.owned_iff]
    exact exists_congr fun slice ↦ hiff name slice
  have hslices : ∀ name ∈ (other.ownedNames key).toList, store.slice? name = other.slice? name := by
    intro name hname
    obtain ⟨slice, hslice, howner⟩ :=
      (hother.owned_iff key name).mp (NameSet.mem_toList_iff.mp hname)
    rw [hslice, ((hiff name slice).mpr ⟨hslice, howner⟩).1]
  rw [ownedSlices, ownedSlices, hnames]
  exact List.filterMap_congr hslices

/-- The lists of the owners are known once the slices are known. -/
theorem owned_congr {other : Store} (h : store.Consistent) (hother : other.Consistent)
    (hsame : ∀ name, store.slice? name = other.slice? name) : store.owned = other.owned := by
  have hnames (key : String) : store.ownedNames key = other.ownedNames key := by
    apply NameSet.ext_contains
    intro name
    rw [Bool.eq_iff_iff, h.owned_iff, hother.owned_iff, hsame]
  have hlisted {first second : Store} (hfirst : first.Consistent) {key : String} {names : NameSet}
      (hkey : first.owned.get? key = some names)
      (hagree : first.ownedNames key = second.ownedNames key) :
      second.owned.get? key = some names := by
    have hnonempty := hfirst.owned_nonempty key names hkey
    unfold ownedNames at hagree
    rw [hkey, Option.getD_some] at hagree
    cases hfound : second.owned.get? key with
    | none =>
      rw [hagree, hfound] at hnonempty
      cases hnonempty
    | some found => rw [hagree, hfound, Option.getD_some]
  apply SortedMap.ext_get?
  intro key
  ext names
  exact ⟨fun hkey ↦ hlisted h hkey (hnames key), fun hkey ↦ hlisted hother hkey (hnames key).symm⟩

end Consistent

/-! ## The lists of the owners -/

section Index

variable {owned : SortedMap NameSet} {owner name : String}

theorem contains_indexAdd (key other : String) :
    (((indexAdd owned owner name).get? key).getD .empty).contains other =
      (decide (owner = key ∧ name = other) || ((owned.get? key).getD .empty).contains other) := by
  unfold indexAdd
  by_cases howner : owner = key
  · subst howner
    simp
  · simp [howner]

theorem contains_indexRemove (key other : String) :
    (((indexRemove owned owner name).get? key).getD .empty).contains other =
      (!decide (owner = key ∧ name = other) && ((owned.get? key).getD .empty).contains other) := by
  unfold indexRemove
  cases hnames : owned.get? owner with
  | none =>
    by_cases howner : owner = key
    · subst howner
      simp [hnames]
    · simp [howner]
  | some names =>
    by_cases howner : owner = key
    · subst howner
      dsimp only
      split_ifs with hempty
      · have hgone := SortedMap.isEmpty_iff.mp hempty other
        by_cases hname : name = other
        · simp [hname]
        · have hother : names.get? other = none := by simpa [hname] using hgone
          simp [SortedMap.contains, hname, hnames, hother]
      · by_cases hname : name = other <;> simp [hname, hnames]
    · dsimp only
      split_ifs <;> simp [howner]

theorem indexAdd_nonempty (h : ∀ key names, owned.get? key = some names → names.isEmpty = false)
    (key : String) (names : NameSet) (hnames : (indexAdd owned owner name).get? key = some names) :
    names.isEmpty = false := by
  unfold indexAdd at hnames
  rw [get?_insert] at hnames
  split_ifs at hnames with howner
  · cases hnames
    rw [← Bool.not_eq_true, SortedMap.isEmpty_iff]
    intro hempty
    exact absurd (hempty name) (by simp [NameSet.add])
  · exact h key names hnames

theorem indexRemove_nonempty (h : ∀ key names, owned.get? key = some names → names.isEmpty = false)
    (key : String) (names : NameSet)
    (hnames : (indexRemove owned owner name).get? key = some names) : names.isEmpty = false := by
  unfold indexRemove at hnames
  cases hlisted : owned.get? owner with
  | none =>
    rw [hlisted] at hnames
    exact h key names hnames
  | some listed =>
    rw [hlisted] at hnames
    dsimp only at hnames
    split_ifs at hnames with hempty
    · rw [get?_erase] at hnames
      split_ifs at hnames
      exact h key names hnames
    · rw [get?_insert] at hnames
      split_ifs at hnames
      · cases hnames
        exact Bool.eq_false_iff.mpr hempty
      · exact h key names hnames

end Index

end Store

end SliceControl
