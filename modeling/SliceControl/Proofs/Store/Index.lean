import SliceControl.Proofs.Store.Reachable

/-!
# The lists of the owners

The store keeps a list of names for every owner beside the slices themselves. In a consistent store
the list says what could as well be found by looking through all slices: the slices of an owner are
those that name it, each once and in the order of their names.
-/

namespace SliceControl

open SortedMap

namespace Store

variable {store : Store}

namespace Consistent

/-- The listing of all slices is in the order of their names. -/
theorem map_listSlices (h : store.Consistent) :
    (store.listSlices.map fun slice ↦ (slice.name, slice)) = store.slices.entries := by
  have hnames : ∀ entry ∈ store.slices.entries, (entry.2.name, entry.2) = entry := by
    rintro ⟨name, slice⟩ hentry
    have hslice : store.slice? name = some slice := mem_entries_iff.mp hentry
    exact Prod.ext (h.slice_name name slice hslice) rfl
  calc (store.listSlices.map fun slice ↦ (slice.name, slice))
      = store.slices.entries.map fun entry ↦ (entry.2.name, entry.2) := by
        rw [listSlices, values, List.map_map]
        rfl
    _ = store.slices.entries.map id := List.map_congr_left hnames
    _ = store.slices.entries := List.map_id _

theorem mem_listSlices_iff (h : store.Consistent) {slice : Slice} :
    slice ∈ store.listSlices ↔ store.slice? slice.name = some slice := by
  refine mem_values_iff.trans ⟨?_, fun hslice ↦ ⟨slice.name, hslice⟩⟩
  rintro ⟨name, hslice⟩
  rw [h.slice_name name slice hslice]
  exact hslice

theorem pairwise_ownedSlices (h : store.Consistent) (key : String) :
    ((store.ownedSlices key).map Slice.name).Pairwise (· < ·) := by
  rw [h.map_name_ownedSlices]
  exact pairwise_keys _

/-- What is listed for an owner is what a search through all slices would find. -/
theorem ownedSlices_eq_filter (h : store.Consistent) (key : String) :
    store.ownedSlices key = store.listSlices.filter (·.ownerKey = some key) := by
  have hmem : ∀ slice, slice ∈ store.ownedSlices key ↔
      slice ∈ store.listSlices.filter (·.ownerKey = some key) := by
    intro slice
    rw [h.mem_ownedSlices_iff, ownedSlice?_eq_some_iff, List.mem_filter, h.mem_listSlices_iff,
      decide_eq_true_iff]
  have hlisted : (store.listSlices.map Slice.name).Pairwise (· < ·) := by
    have hsorted := List.pairwise_map.mpr (h.map_listSlices ▸ store.slices.sorted)
    simpa only [List.pairwise_map] using hsorted
  -- Two lists of named entries in increasing order with the same members are the same.
  have hentries : ((store.ownedSlices key).map fun slice ↦ (slice.name, slice)) =
      (store.listSlices.filter (·.ownerKey = some key)).map fun slice ↦ (slice.name, slice) := by
    apply entries_eq_of_mem_iff
    · exact List.pairwise_map.mpr (List.pairwise_map.mp (h.pairwise_ownedSlices key))
    · exact List.pairwise_map.mpr ((List.pairwise_map.mp hlisted).sublist List.filter_sublist)
    · intro entry
      simp only [List.mem_map, hmem]
  have hslices (slices : List Slice) :
      (slices.map fun slice ↦ (slice.name, slice)).map Prod.snd = slices := by
    rw [List.map_map]
    exact List.map_id slices
  rw [← hslices (store.ownedSlices key), hentries, hslices]

/-- A slice is listed under one owner at most. -/
theorem owner_unique (h : store.Consistent) {name first second : String}
    (hfirst : (store.ownedNames first).contains name = true)
    (hsecond : (store.ownedNames second).contains name = true) : first = second := by
  obtain ⟨slice, hslice, howner⟩ := (h.owned_iff first name).mp hfirst
  obtain ⟨other, hother, hkey⟩ := (h.owned_iff second name).mp hsecond
  cases hslice.symm.trans hother
  exact Option.some.inj (howner.symm.trans hkey)

end Consistent

/-- After any run of operations, successful or failing, the slices that are listed for an owner are
the stored slices that name it as their owner, each once and in the order of their names. No name is
listed under two owners, and no owner is listed without names. -/
theorem index_exact (run : List (Operation × Instant)) :
    let store := Store.empty.performAll run
    (∀ key, store.ownedSlices key = store.listSlices.filter (·.ownerKey = some key)) ∧
      (∀ key, ((store.ownedSlices key).map Slice.name).Pairwise (· < ·)) ∧
      (∀ slice, slice ∈ store.listSlices ↔ store.slice? slice.name = some slice) ∧
      (∀ name first second, (store.ownedNames first).contains name = true →
        (store.ownedNames second).contains name = true → first = second) ∧
      ∀ key names, store.owned.get? key = some names → names.isEmpty = false := by
  intro store
  have h : store.Consistent := (Reachable.empty.performAll run).consistent
  exact ⟨h.ownedSlices_eq_filter, h.pairwise_ownedSlices, fun _ ↦ h.mem_listSlices_iff,
    fun _ _ _ ↦ h.owner_unique, h.owned_nonempty⟩

end Store

end SliceControl
