import SliceControl.Cluster
import SliceControl.Proofs.Slice.Arrival
import SliceControl.Proofs.Store.Lifetime

/-!
# Operations that fail

An operation on the store fails for one of a few reasons, and then it is a refusal: it leaves the
store as it was and publishes no key. So does a request of a client that is answered with a failure.
A run of operations therefore comes to the same store when those that fail are left out.
-/

namespace SliceControl

/-! ## Operations with their results -/

/-- A change without the resource that it yields. -/
def Change.bare {α : Type} (change : Change α) : Change Unit :=
  ⟨change.result.map fun _ ↦ (), change.store, change.published⟩

theorem Change.result_bare {α : Type} {change : Change α} {value : α}
    (h : change.result = .ok value) : change.bare.result = .ok () := by
  rw [bare, h]
  rfl

def Mutation.change (mutation : Mutation) (store : Store) (now : Instant) : Change Unit :=
  match mutation with
  | .upsertNode node => store.upsertNode node
  | .removeNode name => (store.removeNode name).bare
  | .upsertWorkload workload => (store.upsertWorkload workload now).bare
  | .removeWorkload key => (store.removeWorkload key).bare
  | .removeSlice name => (store.removeSlice name).bare
  | .setCondition name condition => (store.setCondition name condition).bare
  | .setPlacement name blockId subBlockIds => (store.setPlacement name blockId subBlockIds).bare

/-- What an operation does to a store, with its result. -/
def Operation.change (operation : Operation) (store : Store) (now : Instant) : Change Unit :=
  match operation with
  | .mutate mutation => mutation.change store now
  | .serve request => (store.serve now request).bare
  | .applySlice slice => (store.applySlice slice now).bare

theorem Mutation.effect_change (mutation : Mutation) (store : Store) (now : Instant) :
    (mutation.change store now).effect = mutation.effect store now := by
  cases mutation <;> rfl

theorem Operation.store_change (operation : Operation) (store : Store) (now : Instant) :
    (operation.change store now).store = operation.perform store now := by
  cases operation with
  | mutate mutation => exact congrArg Prod.fst (mutation.effect_change store now)
  | serve request => rfl
  | applySlice slice => rfl

theorem Workload.setCheck?_of_check?_eq_none {workload : Workload} {next : AdmissionCheck}
    (h : workload.check? next.name = none) : workload.setCheck? next = none := by
  have hchecks : updateFirst next workload.status.checks = none := by
    have hnone : workload.status.checks.find? (·.name = next.name) = none := h
    generalize workload.status.checks = checks at hnone
    induction checks with
    | nil => rfl
    | cons check rest ih =>
      rw [List.find?_eq_none, List.forall_mem_cons, ← List.find?_eq_none] at hnone
      rw [updateFirst, if_neg (by simpa using hnone.1), ih hnone.2, Option.map_none]
  rw [setCheck?, hchecks, Option.map_none]

/-! ## Reasons -/

namespace Store

/-- Why an operation on a store fails. -/
inductive Refuses (store : Store) : Operation → StoreError → Prop
  | removeNode {name : String} (hnone : store.node? name = none) :
      Refuses store (.mutate (.removeNode name)) (.notFound .node name)
  | removeWorkload {key : String} (hnone : store.workload? key = none) :
      Refuses store (.mutate (.removeWorkload key)) (.notFound .workload key)
  | removeSlice {name : String} (hnone : store.slice? name = none) :
      Refuses store (.mutate (.removeSlice name)) (.notFound .slice name)
  | deleteSlice {name : String} (hnone : store.slice? name = none) :
      Refuses store (.serve (.deleteSlice name)) (.notFound .slice name)
  | setCondition {name : String} {condition : Condition} (hnone : store.slice? name = none) :
      Refuses store (.mutate (.setCondition name condition)) (.notFound .slice name)
  /-- A newer condition of the type is recorded. -/
  | regression {name : String} {slice : Slice} {condition recorded : Condition}
      (hslice : store.slice? name = some slice)
      (hrecorded : slice.status.condition? condition.type = some recorded)
      (holder : condition.lastTransitionTime.before recorded.lastTransitionTime = true) :
      Refuses store (.mutate (.setCondition name condition))
        (.status ⟨condition.type, recorded.lastTransitionTime, condition.lastTransitionTime⟩)
  | setPlacement {name : String} {blockId : Option String} {subBlockIds : List String}
      (hnone : store.slice? name = none) :
      Refuses store (.mutate (.setPlacement name blockId subBlockIds)) (.notFound .slice name)
  | createSlice {slice taken : Slice} (htaken : store.slice? slice.name = some taken) :
      Refuses store (.serve (.createSlice slice)) (.alreadyExists .slice slice.name)
  | applySlice {slice existing : Slice} (hexisting : store.slice? slice.name = some existing)
      (hspec : existing.spec ≠ slice.spec) :
      Refuses store (.applySlice slice) (.immutable slice.name)
  | updateCheck {key : String} {check : AdmissionCheck} (hnone : store.workload? key = none) :
      Refuses store (.serve (.updateCheck key check)) (.notFound .workload key)
  /-- The workload does not carry the check. -/
  | missingCheck {key : String} {check : AdmissionCheck} {workload : Workload}
      (hworkload : store.workload? key = some workload)
      (hnone : workload.check? check.name = none) :
      Refuses store (.serve (.updateCheck key check)) (.notFound .admissionCheck check.name)

variable {store : Store} {operation : Operation} {error : StoreError}

theorem removeNode_of_none {name : String} (h : store.node? name = none) :
    store.removeNode name = store.refuse (.notFound .node name) := by
  unfold node? at h
  simp [removeNode, h]

theorem removeWorkload_of_none {key : String} (h : store.workload? key = none) :
    store.removeWorkload key = store.refuse (.notFound .workload key) := by
  unfold workload? at h
  simp [removeWorkload, h]

theorem setCondition_of_none {name : String} (h : store.slice? name = none)
    (condition : Condition) :
    store.setCondition name condition = store.refuse (.notFound .slice name) := by
  unfold slice? at h
  simp [setCondition, h]

theorem setCondition_of_error {name : String} {slice : Slice} {condition : Condition}
    {found : Regression} (h : store.slice? name = some slice)
    (hrecord : slice.status.record condition = .error found) :
    store.setCondition name condition = store.refuse (.status found) := by
  unfold slice? at h
  simp [setCondition, h, hrecord]

theorem setPlacement_of_none {name : String} (h : store.slice? name = none)
    (blockId : Option String) (subBlockIds : List String) :
    store.setPlacement name blockId subBlockIds = store.refuse (.notFound .slice name) := by
  unfold slice? at h
  simp [setPlacement, h]

theorem updateCheck_of_none {key : String} (h : store.workload? key = none)
    (check : AdmissionCheck) :
    store.updateCheck key check = store.refuse (.notFound .workload key) := by
  unfold workload? at h
  simp [updateCheck, h]

theorem updateCheck_of_missing {key : String} {workload : Workload} {check : AdmissionCheck}
    (h : store.workload? key = some workload) (hcheck : workload.check? check.name = none) :
    store.updateCheck key check = store.refuse (.notFound .admissionCheck check.name) := by
  unfold workload? at h
  simp [updateCheck, h, Workload.setCheck?_of_check?_eq_none hcheck]

theorem result_insertSlice_of_none {slice : Slice} (h : store.slice? slice.name = none)
    (now : Instant) : (store.insertSlice slice now).result = .ok (slice.stamped now) := by
  unfold slice? at h
  simp only [insertSlice, SortedMap.contains, h]
  rfl

theorem applySlice_of_ne {slice existing : Slice}
    (h : store.slice? slice.name = some existing) (hspec : existing.spec ≠ slice.spec)
    (now : Instant) : store.applySlice slice now = store.refuse (.immutable slice.name) := by
  rw [applySlice, h]
  exact if_neg hspec

/-- For each of these reasons the operation is refused. -/
theorem Refuses.change_eq (h : store.Refuses operation error) (now : Instant) :
    operation.change store now = store.refuse error := by
  cases h with
  | removeNode hnone => exact congrArg Change.bare (removeNode_of_none hnone)
  | removeWorkload hnone => exact congrArg Change.bare (removeWorkload_of_none hnone)
  | removeSlice hnone => exact congrArg Change.bare (removeSlice_of_none hnone)
  | deleteSlice hnone =>
    simp only [Operation.change, serve, removeSlice_of_none hnone]
    rfl
  | setCondition hnone => exact congrArg Change.bare (setCondition_of_none hnone _)
  | regression hslice hrecorded holder =>
    have hrecord := SliceStatus.record_eq_error_iff.mpr ⟨_, hrecorded, holder, rfl⟩
    exact congrArg Change.bare (setCondition_of_error hslice hrecord)
  | setPlacement hnone => exact congrArg Change.bare (setPlacement_of_none hnone _ _)
  | createSlice htaken => exact congrArg Change.bare (insertSlice_of_some htaken now)
  | applySlice hexisting hspec => exact congrArg Change.bare (applySlice_of_ne hexisting hspec now)
  | updateCheck hnone => exact congrArg Change.bare (updateCheck_of_none hnone _)
  | missingCheck hworkload hnone =>
    exact congrArg Change.bare (updateCheck_of_missing hworkload hnone)

/-- There is no other reason for which a change from outside fails. -/
theorem refuses_or_ok_mutate (store : Store) (mutation : Mutation) (now : Instant) :
    (∃ error, store.Refuses (.mutate mutation) error) ∨
      (mutation.change store now).result = .ok () := by
  cases mutation with
  | upsertNode node => exact .inr rfl
  | removeNode name =>
    cases hnode : store.nodes.get? name with
    | none => exact .inl ⟨_, .removeNode hnode⟩
    | some node => exact .inr (Change.result_bare (by rw [removeNode, hnode]))
  | upsertWorkload workload => exact .inr rfl
  | removeWorkload key =>
    cases hworkload : store.workloads.get? key with
    | none => exact .inl ⟨_, .removeWorkload hworkload⟩
    | some workload => exact .inr (Change.result_bare (by rw [removeWorkload, hworkload]))
  | removeSlice name =>
    cases hslice : store.slice? name with
    | none => exact .inl ⟨_, .removeSlice hslice⟩
    | some slice => exact .inr (Change.result_bare (by rw [removeSlice_of_some hslice]))
  | setCondition name condition =>
    cases hslice : store.slices.get? name with
    | none => exact .inl ⟨_, .setCondition hslice⟩
    | some slice =>
      cases hrecord : slice.status.record condition with
      | error found =>
        obtain ⟨recorded, hrecorded, holder, -⟩ := SliceStatus.record_eq_error_iff.mp hrecord
        exact .inl ⟨_, .regression hslice hrecorded holder⟩
      | ok status =>
        have hok : (store.setCondition name condition).result = .ok { slice with status } := by
          simp only [setCondition, hslice, hrecord]
        exact .inr (Change.result_bare hok)
  | setPlacement name blockId subBlockIds =>
    cases hslice : store.slices.get? name with
    | none => exact .inl ⟨_, .setPlacement hslice⟩
    | some slice => exact .inr (Change.result_bare (by rw [setPlacement, hslice]))

theorem refuses_or_ok_serve (store : Store) (request : StoreRequest) (now : Instant) :
    (∃ error, store.Refuses (.serve request) error) ∨
      (store.serve now request).bare.result = .ok () := by
  cases request with
  | createSlice slice =>
    cases hslice : store.slices.get? slice.name with
    | some taken => exact .inl ⟨_, .createSlice hslice⟩
    | none => exact .inr (Change.result_bare (result_insertSlice_of_none hslice now))
  | deleteSlice name =>
    cases hslice : store.slice? name with
    | none => exact .inl ⟨_, .deleteSlice hslice⟩
    | some slice =>
      have hok : (store.serve now (.deleteSlice name)).result = .ok () := by
        simp only [serve, removeSlice_of_some hslice]
        rfl
      exact .inr (Change.result_bare hok)
  | updateCheck key check =>
    cases hworkload : store.workloads.get? key with
    | none => exact .inl ⟨_, .updateCheck hworkload⟩
    | some workload =>
      cases hcheck : workload.check? check.name with
      | none => exact .inl ⟨_, .missingCheck hworkload hcheck⟩
      | some current =>
        obtain ⟨updated, hupdated, -⟩ := Workload.setCheck?_of_check? hcheck
        have hok : (store.serve now (.updateCheck key check)).result = .ok () := by
          simp only [serve, updateCheck, hworkload, hupdated]
          rfl
        exact .inr (Change.result_bare hok)
  | _ => exact .inr rfl

theorem refuses_or_ok_applySlice (store : Store) (slice : Slice) (now : Instant) :
    (∃ error, store.Refuses (.applySlice slice) error) ∨
      (store.applySlice slice now).bare.result = .ok () := by
  cases hslice : store.slice? slice.name with
  | none =>
    have happly : store.applySlice slice now = store.insertSlice slice now := by
      rw [applySlice, hslice]
    rw [happly]
    exact .inr (Change.result_bare (result_insertSlice_of_none hslice now))
  | some existing =>
    by_cases hspec : existing.spec = slice.spec
    · have hok : (store.applySlice slice now).result = .ok existing := by
        simp only [applySlice, hslice, if_pos hspec]
      exact .inr (Change.result_bare hok)
    · exact .inl ⟨_, .applySlice hslice hspec⟩

/-- An operation fails for one of these reasons, or it succeeds. -/
theorem refuses_or_ok (store : Store) (operation : Operation) (now : Instant) :
    (∃ error, store.Refuses operation error) ∨ (operation.change store now).result = .ok () := by
  cases operation with
  | mutate mutation => exact store.refuses_or_ok_mutate mutation now
  | serve request => exact store.refuses_or_ok_serve request now
  | applySlice slice => exact store.refuses_or_ok_applySlice slice now

/-- An operation fails just for these reasons, and then it is refused. -/
theorem result_eq_error_iff (store : Store) (operation : Operation) (now : Instant) :
    (operation.change store now).result = .error error ↔ store.Refuses operation error := by
  constructor
  · intro h
    rcases store.refuses_or_ok operation now with ⟨found, hfound⟩ | hok
    · rw [hfound.change_eq now] at h
      cases h
      exact hfound
    · rw [hok] at h
      cases h
  · intro h
    rw [h.change_eq now]
    rfl

theorem change_eq_refuse {now : Instant} (h : (operation.change store now).result = .error error) :
    operation.change store now = store.refuse error :=
  ((store.result_eq_error_iff operation now).mp h).change_eq now

/-! ## Runs -/

/-- The operations of a run that succeed. -/
def succeeding (store : Store) : List (Operation × Instant) → List (Operation × Instant)
  | [] => []
  | step :: rest =>
    match (step.1.change store step.2).result with
    | .ok _ => step :: (step.1.perform store step.2).succeeding rest
    | .error _ => store.succeeding rest

/-- A run comes to the same store when the operations that fail are left out. -/
theorem performAll_succeeding (store : Store) (run : List (Operation × Instant)) :
    store.performAll (store.succeeding run) = store.performAll run := by
  induction run generalizing store with
  | nil => rfl
  | cons step rest ih =>
    rw [succeeding]
    cases hresult : (step.1.change store step.2).result with
    | ok value => exact ih _
    | error error =>
      have hkept : step.1.perform store step.2 = store := by
        rw [← Operation.store_change, change_eq_refuse hresult]
        rfl
      calc store.performAll (store.succeeding rest)
          = store.performAll rest := ih store
        _ = (step.1.perform store step.2).performAll rest := by rw [hkept]

end Store

/-! ## Requests of clients -/

namespace Api

/-- The response reports that the request or the operation behind it has failed. -/
def Response.IsFailure (response : Response) : Prop := 400 ≤ response.status

/-- An answer with a failure changes nothing and publishes no key. -/
def Answer.KeepsOnFailure (answer : Answer) (store : Store) : Prop :=
  answer.response.IsFailure → answer.effect = (store, [])

variable {clock : Clock} {store : Store} {request : Request}

theorem keepsOnFailure_still (response : Response) :
    (Answer.still store response).KeepsOnFailure store := fun _ ↦ rfl

/-- Where success is never reported as a failure, the operation has failed. -/
theorem keepsOnFailure_ofChange (mutation : Mutation) (now : Instant) {α : Type}
    {respond : Except StoreError α → Response} {change : Change α}
    (hchange : mutation.change store now = change.bare)
    (hrespond : ∀ value, ¬(respond (.ok value)).IsFailure) :
    (Answer.ofChange respond change).KeepsOnFailure store := by
  intro hfailure
  cases hresult : change.result with
  | ok value =>
    rw [Answer.ofChange, hresult] at hfailure
    exact absurd hfailure (hrespond value)
  | error error =>
    have hfailed : ((Operation.mutate mutation).change store now).result = .error error := by
      rw [Operation.change, hchange, Change.bare, hresult]
      rfl
    have hbare : change.bare = store.refuse error :=
      hchange.symm.trans (Store.change_eq_refuse hfailed)
    exact congrArg Change.effect hbare

theorem keepsOnFailure_withBody {α : Type} {decode : Json → Decoded α} {answer : α → Answer}
    (h : ∀ value, (answer value).KeepsOnFailure store) :
    (withBody request store decode answer).KeepsOnFailure store := by
  unfold withBody
  cases request.decode decode with
  | error response => exact keepsOnFailure_still response
  | ok value => exact h value

theorem keepsOnFailure_perform (action : Action) :
    (perform clock store request action).KeepsOnFailure store := by
  have hdone (body : Json) : ¬(Response.json 200 body).IsFailure := by
    simp [Response.IsFailure, Response.json]
  have hmade (body : Json) : ¬(Response.json 201 body).IsFailure := by
    simp [Response.IsFailure, Response.json]
  cases action with
  | deleteSlice name =>
    exact keepsOnFailure_ofChange (.removeSlice name) clock.now rfl fun _ ↦ hdone _
  | reportCondition name =>
    exact keepsOnFailure_withBody fun condition ↦
      keepsOnFailure_ofChange (.setCondition name condition) clock.now rfl fun _ ↦ hdone _
  | reportPlacement name =>
    exact keepsOnFailure_withBody fun report ↦
      keepsOnFailure_ofChange (.setPlacement name report.blockId report.subBlockIds) clock.now rfl
        fun _ ↦ hdone _
  | upsertWorkload =>
    exact keepsOnFailure_withBody fun workload ↦
      keepsOnFailure_ofChange (.upsertWorkload workload) clock.now rfl fun _ ↦ hdone _
  | deleteWorkload key =>
    exact keepsOnFailure_ofChange (.removeWorkload key) clock.now rfl fun _ ↦ hdone _
  | registerNode =>
    exact keepsOnFailure_withBody fun node ↦
      keepsOnFailure_ofChange (.upsertNode node) clock.now rfl fun _ ↦ hmade _
  | removeNode name =>
    exact keepsOnFailure_ofChange (.removeNode name) clock.now rfl fun _ ↦ hdone _
  | mutateJob => exact keepsOnFailure_withBody fun review ↦ keepsOnFailure_still _
  | _ => exact keepsOnFailure_still _

theorem keepsOnFailure_route (method : String) :
    (route clock store request method).KeepsOnFailure store := by
  unfold route
  cases Endpoint.ofTarget? request.target with
  | none => exact keepsOnFailure_still _
  | some endpoint =>
    dsimp only
    split_ifs
    · exact keepsOnFailure_still _
    · cases endpoint.decode?.bind fun decoded ↦ decoded.action? method with
      | none => exact keepsOnFailure_still _
      | some action => exact keepsOnFailure_perform action

theorem keepsOnFailure_answer (clock : Clock) (store : Store) (request : Request) :
    (answer clock store request).KeepsOnFailure store := by
  unfold answer
  split_ifs
  · exact keepsOnFailure_route "GET"
  · exact keepsOnFailure_route request.method

end Api

/-! ## The cluster -/

namespace Cluster

theorem publish_nothing (cluster : Cluster) : cluster.publish cluster.store [] = cluster := by
  simp [publish]

/-- An operation on the store that fails, for whatever reason, leaves slices, workloads, nodes and
the lists of the owners as they were and publishes no key, so that each workload owns what it has
owned and the whole cluster is as before. The same holds of a request of a client, with any
staleness timeout and any identifier drawn for it, that is answered with a failure. -/
theorem failure_changes_nothing (cluster : Cluster) :
    (∀ operation error, (operation.change cluster.store cluster.now).result = .error error →
      let change := operation.change cluster.store cluster.now
      cluster.store.Refuses operation error ∧ change.store = cluster.store ∧
        change.published = [] ∧
        (∀ key, change.store.ownedSlices key = cluster.store.ownedSlices key) ∧
        (cluster.perform operation.change).2 = cluster) ∧
      ∀ timeout drawn request, (cluster.respond timeout drawn request).1.IsFailure →
        (cluster.respond timeout drawn request).2 = cluster := by
  constructor
  · intro operation error hfailed change
    have hchange : change = cluster.store.refuse error := Store.change_eq_refuse hfailed
    refine ⟨(Store.result_eq_error_iff _ _ _).mp hfailed, ?_, ?_, fun key ↦ ?_, ?_⟩
    · rw [hchange]
      rfl
    · rw [hchange]
      rfl
    · rw [hchange]
      rfl
    · calc (cluster.perform operation.change).2
          = cluster.commit change := rfl
        _ = cluster.publish cluster.store [] := by rw [hchange]; rfl
        _ = cluster := cluster.publish_nothing
  · intro timeout drawn request hfailure
    have heffect : (Api.answer ⟨cluster.now, timeout, drawn⟩ cluster.store request).effect =
        (cluster.store, []) := Api.keepsOnFailure_answer _ _ _ hfailure
    let publish (effect : Store × List String) := cluster.publish effect.1 effect.2
    calc (cluster.respond timeout drawn request).2
        = cluster.publish cluster.store [] := congrArg publish heffect
      _ = cluster := cluster.publish_nothing

/-- A report that comes too late is refused, and so is the removal of a node that is missing. -/
theorem failure_changes_nothing_sample :
    let store := (Store.empty.insertSlice (Sample.looseSlice "4x4x4") (.ofNanos 0)).store.mutateAll
      [(Sample.report .true 9, .ofNanos 0)]
    let cluster : Cluster := { Cluster.start (.ofNanos 0) with store, channel := some .empty }
    let late := Operation.mutate (Sample.report .false 5)
    let removal : Api.Request := ⟨"DELETE", "/v1/nodes/n9", none, ""⟩
    (cluster.perform late.change).1 =
        .error (.status ⟨"Ready", .ofNanos 9000000000, .ofNanos 5000000000⟩) ∧
      (cluster.perform late.change).2 = cluster ∧
      (cluster.respond (.ofSeconds 600) .generated removal).1.status = 404 ∧
      (cluster.respond (.ofSeconds 600) .generated removal).2 = cluster := by
  intro store cluster late removal
  have hfailed : (late.change cluster.store cluster.now).result =
      .error (.status ⟨"Ready", .ofNanos 9000000000, .ofNanos 5000000000⟩) := by decide +kernel
  have hstatus : (cluster.respond (.ofSeconds 600) .generated removal).1.status = 404 := by
    decide +kernel
  obtain ⟨hoperations, hrequests⟩ := failure_changes_nothing cluster
  obtain ⟨-, -, -, -, hkept⟩ := hoperations late _ hfailed
  have hfailure : (cluster.respond (.ofSeconds 600) .generated removal).1.IsFailure := by
    rw [Api.Response.IsFailure, hstatus]
    decide
  exact ⟨hfailed, hkept, hstatus, hrequests _ _ removal hfailure⟩

end Cluster

end SliceControl
