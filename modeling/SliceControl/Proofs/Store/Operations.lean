import SliceControl.Proofs.Store.Consistency

/-!
# What the operations leave

Each operation changes one name or key in one part of the store and leaves everything else as it
was. A consistent store stays consistent: nodes, workloads and reports do not touch the lists of the
owners, and a slice comes and goes together with its entry in the list of its owner.
-/

namespace SliceControl

open SortedMap

/-- A slice with a creation time. -/
def Slice.stamped (slice : Slice) (now : Instant) : Slice :=
  { slice with metadata := slice.metadata.stamped now }

namespace Store

variable {store : Store}

/-! ## Parts of the store -/

namespace Consistent

theorem with_nodes (h : store.Consistent) {nodes : SortedMap Node}
    (hnodes : ∀ name node, nodes.get? name = some node → node.name = name) :
    { store with nodes }.Consistent where
  slice_name := h.slice_name
  workload_key := h.workload_key
  node_name := hnodes
  owned_iff := h.owned_iff
  owned_nonempty := h.owned_nonempty

theorem with_workloads (h : store.Consistent) {workloads : SortedMap Workload}
    (hworkloads : ∀ key workload, workloads.get? key = some workload → workload.key = key) :
    { store with workloads }.Consistent where
  slice_name := h.slice_name
  workload_key := hworkloads
  node_name := h.node_name
  owned_iff := h.owned_iff
  owned_nonempty := h.owned_nonempty

/-- A slice may be replaced by one with the same metadata. -/
theorem with_slice (h : store.Consistent) {name : String} {slice updated : Slice}
    (hslice : store.slice? name = some slice) (hmetadata : updated.metadata = slice.metadata) :
    { store with slices := store.slices.insert name updated }.Consistent where
  slice_name := by
    intro other found hfound
    simp only [slice?, get?_insert] at hfound
    split_ifs at hfound with hother
    · cases hfound
      calc updated.metadata.name
          = slice.metadata.name := congrArg Metadata.name hmetadata
        _ = name := h.slice_name name slice hslice
        _ = other := hother
    · exact h.slice_name other found hfound
  workload_key := h.workload_key
  node_name := h.node_name
  owned_iff := by
    intro key other
    have howner : updated.ownerKey = slice.ownerKey := by simp only [Slice.ownerKey, hmetadata]
    simp only [ownedNames, slice?, get?_insert]
    by_cases hother : name = other
    · subst hother
      have hiff := h.owned_iff key name
      simp only [hslice, Option.some.injEq, exists_eq_left'] at hiff
      simpa only [if_pos, Option.some.injEq, exists_eq_left', howner, ownedNames] using hiff
    · simpa only [if_neg hother, ownedNames, slice?] using h.owned_iff key other
  owned_nonempty := h.owned_nonempty

end Consistent

/-! ## Nodes -/

theorem Consistent.upsertNode (h : store.Consistent) (node : Node) :
    (store.upsertNode node).store.Consistent := by
  apply h.with_nodes
  intro name found hfound
  rw [get?_insert] at hfound
  split_ifs at hfound with hname
  · cases hfound
    exact hname
  · exact h.node_name name found hfound

theorem Consistent.removeNode (h : store.Consistent) (name : String) :
    (store.removeNode name).store.Consistent := by
  unfold Store.removeNode
  cases store.nodes.get? name with
  | none => exact h
  | some node =>
    apply h.with_nodes
    intro other found hfound
    rw [get?_erase] at hfound
    split_ifs at hfound
    exact h.node_name other found hfound

/-! ## Workloads -/

theorem Consistent.upsertWorkload (h : store.Consistent) (workload : Workload) (now : Instant) :
    (store.upsertWorkload workload now).store.Consistent := by
  apply h.with_workloads
  intro key found hfound
  rw [get?_insert] at hfound
  split_ifs at hfound with hkey
  · cases hfound
    exact hkey
  · exact h.workload_key key found hfound

theorem Consistent.removeWorkload (h : store.Consistent) (key : String) :
    (store.removeWorkload key).store.Consistent := by
  unfold Store.removeWorkload
  cases store.workloads.get? key with
  | none => exact h
  | some workload =>
    apply h.with_workloads
    intro other found hfound
    rw [get?_erase] at hfound
    split_ifs at hfound
    exact h.workload_key other found hfound

end Store

/-! ## Checks -/

theorem AdmissionCheck.name_update {check next : AdmissionCheck} (h : check.name = next.name) :
    (check.update next).name = next.name := by
  unfold update
  split_ifs
  · exact h
  · rfl

/-- An updated check says what the update says. -/
theorem AdmissionCheck.sameAs_update {check next : AdmissionCheck} (h : check.name = next.name) :
    (check.update next).sameAs next = true := by
  unfold update sameAs
  split_ifs with hstate <;> simp [h, hstate]

namespace Workload

/-- An updated check changes nothing about a workload besides its checks. -/
theorem eq_of_setCheck? {workload updated : Workload} {next : AdmissionCheck}
    (h : workload.setCheck? next = some updated) :
    updated = { workload with status.checks := updated.status.checks } := by
  simp only [setCheck?, Option.map_eq_some_iff] at h
  obtain ⟨checks, -, rfl⟩ := h
  rfl

theorem updateFirst_of_find? {next current : AdmissionCheck} {checks : List AdmissionCheck}
    (h : checks.find? (·.name = next.name) = some current) :
    ∃ updated, updateFirst next checks = some updated ∧
      updated.find? (·.name = next.name) = some (current.update next) := by
  induction checks with
  | nil => cases h
  | cons check rest ih =>
    by_cases hname : check.name = next.name
    · rw [List.find?_cons_of_pos (by simpa using hname)] at h
      cases h
      refine ⟨_, if_pos hname, ?_⟩
      rw [List.find?_cons_of_pos (by simpa using AdmissionCheck.name_update hname)]
    · rw [List.find?_cons_of_neg (by simpa using hname)] at h
      obtain ⟨updated, hupdated, hfound⟩ := ih h
      refine ⟨check :: updated, ?_, ?_⟩
      · rw [updateFirst, if_neg hname, hupdated, Option.map_some]
      · rw [List.find?_cons_of_neg (by simpa using hname)]
        exact hfound

/-- A check that a workload carries can be updated, and it is found updated afterwards. -/
theorem setCheck?_of_check? {workload : Workload} {next current : AdmissionCheck}
    (h : workload.check? next.name = some current) :
    ∃ updated, workload.setCheck? next = some updated ∧
      updated.check? next.name = some (current.update next) := by
  obtain ⟨checks, hchecks, hfound⟩ := updateFirst_of_find? h
  refine ⟨{ workload with status.checks := checks }, ?_, hfound⟩
  rw [setCheck?, hchecks, Option.map_some]

end Workload

namespace Store

variable {store : Store}

theorem Consistent.updateCheck (h : store.Consistent) (key : String) (check : AdmissionCheck) :
    (store.updateCheck key check).store.Consistent := by
  unfold Store.updateCheck
  cases hworkload : store.workloads.get? key with
  | none => exact h
  | some workload =>
    dsimp only
    cases hupdated : workload.setCheck? check with
    | none => exact h
    | some updated =>
      apply h.with_workloads
      intro other found hfound
      rw [get?_insert] at hfound
      split_ifs at hfound with hother
      · cases hfound
        rw [Workload.eq_of_setCheck? hupdated, ← hother]
        exact h.workload_key key workload hworkload
      · exact h.workload_key other found hfound

/-! ## Slices -/

theorem slice?_insertSlice (store : Store) (slice : Slice) (now : Instant) (name : String) :
    (store.insertSlice slice now).store.slice? name =
      if slice.name = name then some ((store.slice? name).getD (slice.stamped now))
      else store.slice? name := by
  unfold insertSlice
  split_ifs with hcontains hname hname
  · subst hname
    obtain ⟨found, hfound⟩ := Option.isSome_iff_exists.mp hcontains
    simp [refuse, slice?, hfound]
  · rfl
  · subst hname
    have hnone : store.slices.get? slice.name = none := by
      simpa [SortedMap.contains] using hcontains
    simp [slice?, hnone, Slice.stamped]
  · simp [slice?, hname]

/-- A name that is taken is not inserted again. -/
theorem insertSlice_of_some {slice found : Slice} (h : store.slice? slice.name = some found)
    (now : Instant) :
    store.insertSlice slice now = store.refuse (.alreadyExists .slice slice.name) := by
  have hcontains : store.slices.contains slice.name = true := by
    rw [SortedMap.contains, show store.slices.get? slice.name = some found from h]
    rfl
  rw [insertSlice, if_pos hcontains]

theorem workload?_insertSlice (store : Store) (slice : Slice) (now : Instant) (key : String) :
    (store.insertSlice slice now).store.workload? key = store.workload? key := by
  unfold insertSlice
  split_ifs <;> rfl

theorem nodes_insertSlice (store : Store) (slice : Slice) (now : Instant) :
    (store.insertSlice slice now).store.nodes = store.nodes := by
  unfold insertSlice
  split_ifs <;> rfl

theorem Consistent.insertSlice (h : store.Consistent) (slice : Slice) (now : Instant) :
    (store.insertSlice slice now).store.Consistent := by
  have hslices := slice?_insertSlice store slice now
  unfold Store.insertSlice at hslices ⊢
  split_ifs at hslices ⊢ with hcontains
  · exact h
  have hfree : store.slice? slice.name = none := by
    simpa [SortedMap.contains, slice?] using hcontains
  refine ⟨?_, h.workload_key, h.node_name, ?_, ?_⟩
  · intro name found hfound
    rw [hslices] at hfound
    split_ifs at hfound with hname
    · subst hname
      rw [hfree] at hfound
      cases hfound
      rfl
    · exact h.slice_name name found hfound
  · intro key name
    have hiff := h.owned_iff key name
    rw [hslices]
    -- Only the entry of the new slice in the list of its owner can change.
    by_cases hname : slice.name = name
    · subst hname
      have howner : (slice.stamped now).ownerKey = slice.ownerKey := rfl
      rw [hfree] at hiff ⊢
      simp only [reduceCtorEq, false_and, exists_false, iff_false, Bool.not_eq_true] at hiff
      simp only [if_true, Option.getD_none, Option.some.injEq, exists_eq_left', howner]
      cases hkey : slice.ownerKey with
      | none => simpa [ownedNames] using hiff
      | some owner =>
        rw [ownedNames, contains_indexAdd, ← ownedNames, hiff]
        simp
    · rw [if_neg hname, ← hiff]
      cases slice.ownerKey with
      | none => rfl
      | some owner =>
        rw [ownedNames, contains_indexAdd, ← ownedNames]
        simp [hname]
  · intro key names hnames
    dsimp only at hnames
    cases howner : slice.ownerKey with
    | none =>
      rw [howner] at hnames
      exact h.owned_nonempty key names hnames
    | some owner =>
      rw [howner] at hnames
      exact indexAdd_nonempty h.owned_nonempty key names hnames

theorem removeSlice_of_none {name : String} (h : store.slice? name = none) :
    store.removeSlice name = store.refuse (.notFound .slice name) := by
  unfold slice? at h
  simp [removeSlice, h]

/-- A slice that is removed is struck from the list of its owner, whose key is published. -/
theorem removeSlice_of_some {name : String} {slice : Slice} (h : store.slice? name = some slice) :
    store.removeSlice name = ⟨.ok slice,
      { store with
        slices := store.slices.erase name
        owned := match slice.ownerKey with
          | some owner => indexRemove store.owned owner name
          | none => store.owned },
      slice.ownerKey.toList⟩ := by
  unfold slice? at h
  cases howner : slice.ownerKey <;> simp [removeSlice, h, howner]

theorem slice?_removeSlice (store : Store) (name other : String) :
    (store.removeSlice name).store.slice? other =
      if name = other then none else store.slice? other := by
  cases hslice : store.slice? name with
  | none =>
    rw [removeSlice_of_none hslice]
    split_ifs with hother
    · rw [← hother]
      exact hslice
    · rfl
  | some slice =>
    rw [removeSlice_of_some hslice]
    exact get?_erase store.slices name other

theorem workload?_removeSlice (store : Store) (name key : String) :
    (store.removeSlice name).store.workload? key = store.workload? key := by
  cases hslice : store.slice? name with
  | none => rw [removeSlice_of_none hslice]; rfl
  | some slice => rw [removeSlice_of_some hslice]; rfl

theorem nodes_removeSlice (store : Store) (name : String) :
    (store.removeSlice name).store.nodes = store.nodes := by
  cases hslice : store.slice? name with
  | none => rw [removeSlice_of_none hslice]; rfl
  | some slice => rw [removeSlice_of_some hslice]

theorem Consistent.removeSlice (h : store.Consistent) (name : String) :
    (store.removeSlice name).store.Consistent := by
  cases hslice : store.slice? name with
  | none =>
    rw [removeSlice_of_none hslice]
    exact h
  | some slice =>
    have hslices := slice?_removeSlice store name
    rw [removeSlice_of_some hslice] at hslices ⊢
    refine ⟨?_, h.workload_key, h.node_name, ?_, ?_⟩
    · intro other found hfound
      rw [hslices] at hfound
      split_ifs at hfound
      exact h.slice_name other found hfound
    · intro key other
      have hiff := h.owned_iff key other
      rw [hslices]
      -- Only the entry of the slice in the list of its owner can change.
      by_cases hname : name = other
      · subst hname
        rw [hslice] at hiff
        simp only [Option.some.injEq, exists_eq_left'] at hiff
        simp only [if_true, reduceCtorEq, false_and, exists_false, iff_false, Bool.not_eq_true]
        cases hkey : slice.ownerKey with
        | none =>
          rw [hkey] at hiff
          simpa [ownedNames] using hiff
        | some owner =>
          rw [ownedNames, contains_indexRemove, ← ownedNames]
          by_cases howner : owner = key
          · simp [howner]
          · rw [hkey] at hiff
            simpa [howner] using hiff
      · rw [if_neg hname, ← hiff]
        cases slice.ownerKey with
        | none => rfl
        | some owner =>
          rw [ownedNames, contains_indexRemove, ← ownedNames]
          simp [hname]
    · intro key names hnames
      dsimp only at hnames
      cases howner : slice.ownerKey with
      | none =>
        rw [howner] at hnames
        exact h.owned_nonempty key names hnames
      | some owner =>
        rw [howner] at hnames
        exact indexRemove_nonempty h.owned_nonempty key names hnames

/-! ## Reports -/

theorem Consistent.setCondition (h : store.Consistent) (name : String) (condition : Condition) :
    (store.setCondition name condition).store.Consistent := by
  unfold Store.setCondition
  cases hslice : store.slices.get? name with
  | none => exact h
  | some slice =>
    dsimp only
    cases slice.status.record condition with
    | error error => exact h
    | ok status => exact h.with_slice hslice rfl

theorem Consistent.setPlacement (h : store.Consistent) (name : String) (blockId : Option String)
    (subBlockIds : List String) :
    (store.setPlacement name blockId subBlockIds).store.Consistent := by
  unfold Store.setPlacement
  cases hslice : store.slices.get? name with
  | none => exact h
  | some slice => exact h.with_slice hslice rfl

end Store

end SliceControl
