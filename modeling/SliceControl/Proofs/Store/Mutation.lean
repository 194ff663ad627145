import SliceControl.Api
import SliceControl.Proofs.Pass.Snapshot
import SliceControl.Proofs.Reconcile.Locality

/-!
# Changes from outside

Clients of the server change the store in seven ways. A change keeps the store consistent, and it
publishes every workload for which reconciling could now come to another result.
-/

namespace SliceControl

open SortedMap

/-- A change that a client of the server asks for. -/
inductive Mutation where
  | upsertNode (node : Node)
  | removeNode (name : String)
  | upsertWorkload (workload : Workload)
  | removeWorkload (key : String)
  | removeSlice (name : String)
  | setCondition (name : String) (condition : Condition)
  | setPlacement (name : String) (blockId : Option String) (subBlockIds : List String)

/-- What an operation leaves, whatever its result. -/
def Change.effect {α : Type} (change : Change α) : Store × List String :=
  (change.store, change.published)

/-- The store that a change leaves, and the keys that it publishes. -/
def Mutation.effect (mutation : Mutation) (store : Store) (now : Instant) : Store × List String :=
  match mutation with
  | .upsertNode node => (store.upsertNode node).effect
  | .removeNode name => (store.removeNode name).effect
  | .upsertWorkload workload => (store.upsertWorkload workload now).effect
  | .removeWorkload key => (store.removeWorkload key).effect
  | .removeSlice name => (store.removeSlice name).effect
  | .setCondition name condition => (store.setCondition name condition).effect
  | .setPlacement name blockId subBlockIds =>
    (store.setPlacement name blockId subBlockIds).effect

namespace Api

def Answer.effect (answer : Answer) : Store × List String := (answer.store, answer.published)

/-- An answer that changes nothing, or what one of the seven changes does. -/
def Answer.IsMutation (answer : Answer) (store : Store) (now : Instant) : Prop :=
  answer.effect = (store, []) ∨ ∃ mutation : Mutation, mutation.effect store now = answer.effect

variable {clock : Clock} {store : Store} {request : Request}

theorem isMutation_withBody {α : Type} {now : Instant} {decode : Json → Decoded α}
    {answer : α → Answer} (h : ∀ value, (answer value).IsMutation store now) :
    (withBody request store decode answer).IsMutation store now := by
  unfold withBody
  cases request.decode decode with
  | error response => exact .inl rfl
  | ok value => exact h value

theorem isMutation_perform (action : Action) :
    (perform clock store request action).IsMutation store clock.now := by
  cases action with
  | deleteSlice name => exact .inr ⟨.removeSlice name, rfl⟩
  | reportCondition name =>
    exact isMutation_withBody fun condition ↦ .inr ⟨.setCondition name condition, rfl⟩
  | reportPlacement name =>
    exact isMutation_withBody fun report ↦
      .inr ⟨.setPlacement name report.blockId report.subBlockIds, rfl⟩
  | upsertWorkload =>
    exact isMutation_withBody fun workload ↦ .inr ⟨.upsertWorkload workload, rfl⟩
  | deleteWorkload key => exact .inr ⟨.removeWorkload key, rfl⟩
  | registerNode => exact isMutation_withBody fun node ↦ .inr ⟨.upsertNode node, rfl⟩
  | removeNode name => exact .inr ⟨.removeNode name, rfl⟩
  | mutateJob => exact isMutation_withBody fun review ↦ .inl rfl
  | _ => exact .inl rfl

theorem isMutation_route (method : String) :
    (route clock store request method).IsMutation store clock.now := by
  unfold route
  cases Endpoint.ofTarget? request.target with
  | none => exact .inl rfl
  | some endpoint =>
    dsimp only
    split_ifs
    · exact .inl rfl
    · cases endpoint.decode?.bind fun decoded ↦ decoded.action? method with
      | none => exact .inl rfl
      | some action => exact isMutation_perform action

/-- Whatever a client asks for, the server changes nothing or makes one of the seven changes. -/
theorem isMutation_answer (clock : Clock) (store : Store) (request : Request) :
    (answer clock store request).IsMutation store clock.now := by
  unfold answer
  split_ifs
  · exact isMutation_route "GET"
  · exact isMutation_route request.method

end Api

namespace Store

/-- What a pass over a workload would read now. -/
def reading (store : Store) (key : String) : Snapshot := store.snapshot key store.listNodes

variable {store : Store}

theorem reading_congr {other : Store} {key : String}
    (hworkload : other.workload? key = store.workload? key)
    (hslices : other.ownedSlices key = store.ownedSlices key) (hnodes : other.nodes = store.nodes) :
    other.reading key = store.reading key := by
  unfold reading snapshot listNodes
  rw [hworkload, hslices, hnodes]

/-! ## Consistency -/

theorem Consistent.effect (h : store.Consistent) (mutation : Mutation) (now : Instant) :
    (mutation.effect store now).1.Consistent := by
  cases mutation with
  | upsertNode node => exact h.upsertNode node
  | removeNode name => exact h.removeNode name
  | upsertWorkload workload => exact h.upsertWorkload workload now
  | removeWorkload key => exact h.removeWorkload key
  | removeSlice name => exact h.removeSlice name
  | setCondition name condition => exact h.setCondition name condition
  | setPlacement name blockId subBlockIds => exact h.setPlacement name blockId subBlockIds

/-! ## Changes of nodes -/

theorem Consistent.nodup_listNodes_names (h : store.Consistent) :
    (store.listNodes.map Node.name).Nodup := by
  have hkeys : store.listNodes.map Node.name = store.nodes.keys := by
    unfold listNodes values keys
    rw [List.map_map]
    apply List.map_congr_left
    intro entry hentry
    exact h.node_name entry.1 entry.2 (mem_entries_iff.mp hentry)
  rw [hkeys]
  exact nodup_keys _

theorem Consistent.find?_listNodes (h : store.Consistent) (host : String) :
    store.listNodes.find? (·.name = host) = store.node? host := by
  ext node
  rw [find?_eq_some_iff_of_nodup h.nodup_listNodes_names]
  constructor
  · rintro ⟨hmem, rfl⟩
    obtain ⟨key, hkey⟩ := mem_values_iff.mp hmem
    rw [h.node_name key node hkey]
    exact hkey
  · intro hnode
    exact ⟨mem_values_iff.mpr ⟨host, hnode⟩, h.node_name host node hnode⟩

theorem mem_hostUsers_iff {host key : String} :
    key ∈ store.hostUsers host ↔
      ∃ workload, store.workload? key = some workload ∧ workload.usesHost host = true := by
  simp only [hostUsers, List.mem_map, List.mem_filter, mem_entries_iff]
  constructor
  · rintro ⟨⟨key, workload⟩, ⟨hfound, huses⟩, rfl⟩
    exact ⟨workload, hfound, huses⟩
  · rintro ⟨workload, hfound, huses⟩
    exact ⟨(key, workload), ⟨hfound, huses⟩, rfl⟩

/-- A change of one node concerns the workloads that are admitted onto it. -/
theorem reconcile_of_other_host {nodes : SortedMap Node} (h : store.Consistent)
    (hother : { store with nodes }.Consistent) {host key : String}
    (hrest : ∀ rest, host ≠ rest → nodes.get? rest = store.nodes.get? rest)
    (hkey : key ∉ store.hostUsers host) (context : PassContext) :
    reconcile ({ store with nodes }.reading key) context =
      reconcile (store.reading key) context := by
  apply reconcile_congr_nodes
  intro workload hworkload rest huses
  have hne : host ≠ rest := by
    rintro rfl
    exact hkey (mem_hostUsers_iff.mpr ⟨workload, hworkload, huses⟩)
  rw [h.find?_listNodes, hother.find?_listNodes]
  exact hrest rest hne

/-! ## Changes of workloads -/

theorem reading_of_other_workload {workloads : SortedMap Workload} {key : String}
    (hsame : workloads.get? key = store.workloads.get? key) :
    { store with workloads }.reading key = store.reading key :=
  reading_congr hsame rfl rfl

/-! ## Changes of slices -/

/-- A slice of another owner may come, go or change without any effect on what a workload owns. -/
theorem ownedSlices_of_owner_ne {other : Store} (h : store.Consistent) (hother : other.Consistent)
    {key name : String} (hrest : ∀ rest, rest ≠ name → other.slice? rest = store.slice? rest)
    (hbefore : store.ownedSlice? key name = none) (hafter : other.ownedSlice? key name = none) :
    other.ownedSlices key = store.ownedSlices key := by
  apply hother.ownedSlices_congr h
  intro rest
  by_cases hname : rest = name
  · rw [hname, hbefore, hafter]
  · rw [ownedSlice?, hrest rest hname, ← ownedSlice?]

theorem ownedSlice?_of_owner_ne {key name : String} {slice : Slice}
    (hslice : store.slice? name = some slice) (howner : slice.ownerKey ≠ some key) :
    store.ownedSlice? key name = none := by
  refine ownedSlice?_eq_none_iff.mpr fun found hfound ↦ ?_
  cases hslice.symm.trans hfound
  exact howner

/-- Without the places, a slice that is given a new place stays as it is. -/
theorem unplaced_ownedSlices (updated : Slice) {name : String} {slice : Slice}
    (hslice : store.slice? name = some slice) (hplace : updated.unplaced = slice.unplaced)
    (key : String) :
    ({ store with slices := store.slices.insert name updated }.ownedSlices key).map Slice.unplaced =
      (store.ownedSlices key).map Slice.unplaced := by
  unfold ownedSlices
  have hnames : { store with slices := store.slices.insert name updated }.ownedNames key =
      store.ownedNames key := rfl
  rw [hnames, List.map_filterMap, List.map_filterMap]
  apply List.filterMap_congr
  intro other _
  simp only [slice?, get?_insert]
  split_ifs with hother
  · subst hother
    rw [show store.slices.get? name = some slice from hslice, Option.map_some, Option.map_some,
      hplace]
  · rfl

theorem reading_removeSlice (h : store.Consistent) {name key : String}
    (hkey : key ∉ (store.removeSlice name).published) :
    (store.removeSlice name).store.reading key = store.reading key := by
  have hslices := slice?_removeSlice store name
  cases hslice : store.slice? name with
  | none =>
    rw [removeSlice_of_none hslice]
    rfl
  | some slice =>
    rw [removeSlice_of_some hslice] at hkey
    have howner : slice.ownerKey ≠ some key := fun hsame ↦ hkey (by simp [hsame])
    apply reading_congr (workload?_removeSlice store name key) ?_ (nodes_removeSlice store name)
    apply ownedSlices_of_owner_ne h (h.removeSlice name) ?_ (ownedSlice?_of_owner_ne hslice howner)
    · rw [ownedSlice?, hslices, if_pos rfl]
      rfl
    · intro rest hrest
      rw [hslices, if_neg (Ne.symm hrest)]

theorem reading_setCondition (h : store.Consistent) {name key : String} {condition : Condition}
    (hkey : key ∉ (store.setCondition name condition).published) :
    (store.setCondition name condition).store.reading key = store.reading key := by
  have hafter := h.setCondition name condition
  unfold setCondition at hkey hafter ⊢
  cases hslice : store.slices.get? name with
  | none => rfl
  | some slice =>
    rw [hslice] at hkey hafter
    dsimp only at hkey hafter ⊢
    cases hstatus : slice.status.record condition with
    | error error => rfl
    | ok status =>
      rw [hstatus] at hkey hafter
      have howner : slice.ownerKey ≠ some key := fun hsame ↦ hkey (Option.mem_toList.mpr hsame)
      refine reading_congr rfl ?_ rfl
      apply ownedSlices_of_owner_ne h hafter ?_ (ownedSlice?_of_owner_ne hslice howner)
      · exact ownedSlice?_of_owner_ne ((get?_insert ..).trans (if_pos rfl)) howner
      · intro rest hrest
        exact (get?_insert ..).trans (if_neg (Ne.symm hrest))

/-- Where the hardware of a slice stands has no bearing on what is reconciled. -/
theorem reconcile_setPlacement (store : Store) (name : String) (blockId : Option String)
    (subBlockIds : List String) (key : String) (context : PassContext) :
    reconcile ((store.setPlacement name blockId subBlockIds).store.reading key) context =
      reconcile (store.reading key) context := by
  unfold setPlacement
  cases hslice : store.slices.get? name with
  | none => rfl
  | some slice =>
    dsimp only [reading, snapshot]
    rw [← reconcile_unplaced,
      unplaced_ownedSlices { slice with status := { slice.status with blockId, subBlockIds } }
        hslice rfl, reconcile_unplaced]
    rfl

/-! ## Publication -/

/-- Reconciling comes to the same result as before for every workload that a change does not
publish. -/
theorem reconcile_of_not_published (h : store.Consistent) (mutation : Mutation) (now : Instant)
    {key : String} (hkey : key ∉ (mutation.effect store now).2) (context : PassContext) :
    reconcile ((mutation.effect store now).1.reading key) context =
      reconcile (store.reading key) context := by
  cases mutation with
  | upsertNode node =>
    apply reconcile_of_other_host h (h.upsertNode node) ?_ hkey
    intro rest hrest
    rw [get?_insert, if_neg hrest]
  | removeNode name =>
    have hafter := h.removeNode name
    simp only [Mutation.effect, Change.effect, removeNode] at hkey hafter ⊢
    cases hnode : store.nodes.get? name with
    | none => rfl
    | some node =>
      rw [hnode] at hkey hafter
      apply reconcile_of_other_host h hafter ?_ hkey
      intro rest hrest
      rw [get?_erase, if_neg hrest]
  | upsertWorkload workload =>
    have hne : workload.key ≠ key := fun hsame ↦ hkey (List.mem_singleton.mpr hsame.symm)
    refine congrArg (reconcile · context) (reading_of_other_workload ?_)
    rw [get?_insert, if_neg hne]
  | removeWorkload removed =>
    simp only [Mutation.effect, Change.effect, removeWorkload] at hkey ⊢
    cases hworkload : store.workloads.get? removed with
    | none => rfl
    | some workload =>
      rw [hworkload] at hkey
      have hne : removed ≠ key := fun hsame ↦ hkey (List.mem_singleton.mpr hsame.symm)
      refine congrArg (reconcile · context) (reading_of_other_workload ?_)
      rw [get?_erase, if_neg hne]
  | removeSlice name => exact congrArg (reconcile · context) (reading_removeSlice h hkey)
  | setCondition name condition =>
    exact congrArg (reconcile · context) (reading_setCondition h hkey)
  | setPlacement name blockId subBlockIds =>
    exact reconcile_setPlacement store name blockId subBlockIds key context

end Store

end SliceControl
