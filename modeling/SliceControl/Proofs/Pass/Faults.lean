import SliceControl.Proofs.Pass.Calm
import SliceControl.Proofs.Pass.Footprint
import SliceControl.Proofs.Pass.Timeless
import SliceControl.Proofs.Retry

/-!
# Passes under transient faults

Calls may fail transiently, each before or after its request has been carried out. As long as no
call uses up its attempts, a pass comes to what it would have come to without faults: a creation
that has been carried out already finds the slice with its own owner, a deletion finds nothing to
delete, and a check is set to what it says already.

A read that uses up its attempts ends the pass before anything is written.
-/

namespace SliceControl

/-! ## Plans of transient faults -/

/-- How many of these calls fail before the first one that does not. -/
def failuresFirst (calls : List (Option Outage)) : Nat := (calls.takeWhile Option.isSome).length

theorem failuresFirst_of_none {calls : List (Option Outage)} (h : calls.head?.join = none) :
    failuresFirst calls = 0 := by
  rcases calls with _ | ⟨_ | outage, rest⟩
  · rfl
  · rfl
  · cases h

theorem failuresFirst_of_some {calls : List (Option Outage)} {outage : Outage}
    (h : calls.head?.join = some outage) :
    failuresFirst calls = failuresFirst calls.tail + 1 := by
  rcases calls with _ | ⟨_ | first, rest⟩
  · cases h
  · cases h
  · rfl

namespace OutagePlan

/-- What happens to the coming calls of a kind, as far as it is planned. -/
def coming (plan : OutagePlan) (method : String) : List (Option Outage) :=
  (plan.get? method).getD []

/-- All planned failures are transient. -/
def IsTransient (plan : OutagePlan) : Prop :=
  ∀ method outage, some outage ∈ plan.coming method → outage.error.isTransient = true

/-- However many calls have been made before, fewer than `attempts` fail in a row. -/
def Spares (plan : OutagePlan) (attempts : Nat) : Prop :=
  ∀ method made, failuresFirst ((plan.coming method).drop made) < attempts

variable {plan : OutagePlan}

theorem take_fst (plan : OutagePlan) (method : String) :
    (plan.take method).1 = (plan.coming method).head?.join := by
  unfold take coming
  rcases plan.get? method with _ | _ | ⟨next, rest⟩ <;> rfl

theorem coming_take (plan : OutagePlan) (method other : String) :
    (plan.take method).2.coming other =
      if method = other then (plan.coming method).tail else plan.coming other := by
  unfold take coming
  by_cases hsame : method = other
  · subst hsame
    rcases hcalls : plan.get? method with _ | _ | ⟨next, rest⟩ <;> simp [hcalls]
  · rcases plan.get? method with _ | _ | ⟨next, rest⟩ <;> simp [hsame]

theorem isTransient_empty : IsTransient .empty := fun _ _ houtage ↦ by cases houtage

theorem spares_empty {attempts : Nat} (h : 0 < attempts) : Spares .empty attempts := by
  intro method made
  simpa [coming, failuresFirst] using h

/-- Fewer planned calls than attempts cannot use them up. -/
theorem spares_of_length_lt {attempts : Nat}
    (h : ∀ method, (plan.coming method).length < attempts) : plan.Spares attempts := by
  intro method made
  calc failuresFirst ((plan.coming method).drop made)
      ≤ ((plan.coming method).drop made).length := (List.takeWhile_prefix _).length_le
    _ ≤ (plan.coming method).length := by rw [List.length_drop]; exact Nat.sub_le _ _
    _ < attempts := h method

theorem coming_insert_empty (method other : String) (calls : List (Option Outage)) :
    coming (SortedMap.empty.insert method calls) other = if method = other then calls else [] := by
  unfold coming
  rw [SortedMap.get?_insert]
  split_ifs <;> rfl

theorem IsTransient.take (h : plan.IsTransient) (method : String) :
    (plan.take method).2.IsTransient := by
  intro other outage houtage
  rw [coming_take] at houtage
  split_ifs at houtage
  · exact h method outage (List.mem_of_mem_tail houtage)
  · exact h other outage houtage

theorem Spares.take {attempts : Nat} (h : plan.Spares attempts) (method : String) :
    (plan.take method).2.Spares attempts := by
  intro other made
  rw [coming_take]
  split_ifs
  · rw [List.drop_tail]
    exact h method (made + 1)
  · exact h other made

theorem Spares.failuresFirst_lt {attempts : Nat} (h : plan.Spares attempts) (method : String) :
    failuresFirst (plan.coming method) < attempts := by
  simpa using h method 0

end OutagePlan

/-! ## Calls under transient faults -/

namespace Cluster

variable {cluster : Cluster}

/-- A request is answered by the store, which may have carried it out before. -/
def Served (cluster : Cluster) (request : StoreRequest) (reply : request.Reply)
    (after : Cluster) : Prop :=
  ∃ store now, cluster.store.Tried request store ∧ reply = (store.serve now request).result ∧
    after.store = (store.serve now request).store

theorem Served.of_tried {request : StoreRequest} {reply : request.Reply} {middle after : Cluster}
    (htried : cluster.store.Tried request middle.store) (h : middle.Served request reply after) :
    cluster.Served request reply after := by
  obtain ⟨store, now, hstore, hreply, hafter⟩ := h
  refine ⟨store, now, ?_, hreply, hafter⟩
  rcases hstore with rfl | ⟨first, rfl⟩
  · exact htried
  · exact .inr (htried.serve first)

/-- The store has carried out what it answers. -/
theorem Served.carried {request : StoreRequest} {reply : request.Reply} {after : Cluster}
    (h : cluster.Served request reply after) :
    ∃ now, after.store = (cluster.store.serve now request).store := by
  obtain ⟨store, now, htried, -, hafter⟩ := h
  exact hafter ▸ htried.serve now

/-- Under transient faults a request is answered by the store, or its call fails and may have been
carried out. -/
theorem served_or_failed (cluster : Cluster) (request : StoreRequest)
    (h : cluster.outages.IsTransient) :
    (failuresFirst (cluster.outages.coming request.method) = 0 ∧
        cluster.Served request (cluster.serve request).1 (cluster.serve request).2 ∧
        ∀ error, (cluster.serve request).1 = .error error → error.isTransient = false) ∨
      (failuresFirst (cluster.outages.coming request.method) =
          failuresFirst ((cluster.serve request).2.outages.coming request.method) + 1 ∧
        ∃ error, error.isTransient = true ∧ (cluster.serve request).1 = .error error) := by
  have hnext := cluster.outages.take_fst request.method
  have hrest := cluster.outages.coming_take request.method request.method
  rw [if_pos rfl, ← outages_serve] at hrest
  cases hcall : (cluster.outages.take request.method).1 with
  | none =>
    obtain ⟨hreply, hstore⟩ := serve_of_none hcall
    refine .inl ⟨failuresFirst_of_none (hnext ▸ hcall), ?_, ?_⟩
    · exact ⟨cluster.store, cluster.now, .inl rfl, hreply, hstore⟩
    · exact fun error herror ↦ Store.isTransient_eq_false_of_serve (hreply.symm.trans herror)
  | some outage =>
    have hhead := hnext.symm.trans hcall
    refine .inr ⟨hrest ▸ failuresFirst_of_some hhead, outage.error, ?_, (serve_of_some hcall).1⟩
    exact h request.method outage (List.mem_of_mem_head? (Option.join_eq_some_iff.mp hhead))

/-- A call comes through if fewer calls fail in a row than it has attempts, and otherwise it fails
transiently. -/
theorem run_attemptFrom_of_isTransient (policy : RetryPolicy) (request : StoreRequest)
    (spare attempt : Nat) (h : cluster.outages.IsTransient) :
    let ran := (attemptFrom policy request spare attempt).run world cluster
    (failuresFirst (cluster.outages.coming request.method) ≤ spare →
        cluster.Served request ran.1 ran.2) ∧
      (spare < failuresFirst (cluster.outages.coming request.method) →
        ∃ error, error.isTransient = true ∧ ran.1 = .error error) := by
  induction spare generalizing attempt cluster with
  | zero =>
    intro ran
    rcases cluster.served_or_failed request h with ⟨hnone, hserved, -⟩ | ⟨hfails, hfailed⟩
    · exact ⟨fun _ ↦ hserved, fun hmore ↦ by omega⟩
    · exact ⟨fun hless ↦ by omega, fun _ ↦ hfailed⟩
  | succ spare ih =>
    have hanswered := cluster.served_or_failed request h
    have htried := cluster.tried_serve request
    have hlater : (cluster.serve request).2.outages.IsTransient := by
      rw [outages_serve]
      exact h.take request.method
    rcases hserve : cluster.serve request with ⟨reply, after⟩
    rw [hserve] at hanswered htried hlater
    rw [run_attemptFrom_succ policy request spare attempt hserve]
    rcases hanswered with ⟨hnone, hserved, hlasting⟩ | ⟨hfails, error, htransient, hreply⟩
    · have hran : cluster.Served request reply after := hserved
      refine ⟨fun _ ↦ ?_, fun hmore ↦ by omega⟩
      cases reply with
      | ok answer => exact hran
      | error error =>
        dsimp only
        rw [if_neg (Bool.eq_false_iff.mp (hlasting error rfl))]
        exact hran
    · have hwaited : (elapse (policy.backoffMs attempt) after).outages.IsTransient := hlater
      obtain ⟨hcomes, hends⟩ := ih (attempt + 1) hwaited
      cases hreply
      dsimp only at hfails ⊢
      rw [if_pos htransient, hfails]
      refine ⟨fun hless ↦ ?_, fun hmore ↦ ?_⟩
      · exact (hcomes (Nat.le_of_succ_le_succ hless)).of_tried htried
      · exact hends (Nat.lt_of_succ_lt_succ hmore)

end Cluster

namespace PassSettings

variable {cluster : Cluster} (settings : PassSettings) {key : String}

/-- A request that a pass makes comes through unless all its attempts fail. -/
theorem run_ask_of_isTransient (h : cluster.outages.IsTransient) (request : StoreRequest) :
    let ran := (settings.ask request).run Cluster.world cluster
    (failuresFirst (cluster.outages.coming request.method) < settings.retry.attempts →
        cluster.Served request ran.1 ran.2) ∧
      (settings.retry.attempts ≤ failuresFirst (cluster.outages.coming request.method) →
        ∃ error, error.isTransient = true ∧ ran.1 = .error error) := by
  intro ran
  obtain ⟨hcomes, hends⟩ := Cluster.run_attemptFrom_of_isTransient settings.retry request
    (settings.retry.attempts - 1) 1 h
  have hattempts : 0 < settings.retry.attempts := settings.retry.attempts_pos
  exact ⟨fun hless ↦ hcomes (by omega), fun hmore ↦ hends (by omega)⟩

theorem isTransient_run {α : Type} (h : cluster.outages.IsTransient)
    (procedure : StoreProcedure α) :
    (procedure.run Cluster.world cluster).2.outages.IsTransient :=
  outages_run OutagePlan.IsTransient (fun _ method hplan ↦ hplan.take method) procedure h

theorem spares_run {α : Type} {attempts : Nat} (h : cluster.outages.Spares attempts)
    (procedure : StoreProcedure α) :
    (procedure.run Cluster.world cluster).2.outages.Spares attempts :=
  outages_run (·.Spares attempts) (fun _ method hplan ↦ hplan.take method) procedure h

/-- Requests of one kind leave what is planned for the other kinds. -/
theorem coming_run_ask (request : StoreRequest) {method : String} (h : request.method ≠ method) :
    ((settings.ask request).run Cluster.world cluster).2.outages.coming method =
      cluster.outages.coming method := by
  have hasks : (settings.ask request).Asks (· = request) := settings.asks_ask rfl
  apply Procedure.run_preserves_of_asks
    (fun after : Cluster ↦ after.outages.coming method = cluster.outages.coming method) _ _ hasks
      rfl
  · intro _ after hrequest hcoming
    cases hrequest
    show (after.serve request).2.outages.coming method = _
    rw [Cluster.outages_serve, OutagePlan.coming_take, if_neg h]
    exact hcoming
  · exact fun _ _ hcoming ↦ hcoming

/-- Under transient faults the procedure succeeds, unless all attempts of one of these requests
fail; then it fails transiently. -/
def ComesThrough {α : Type} (requests : List StoreRequest)
    (procedure : StoreProcedure (Except StoreError α)) : Prop :=
  ∀ cluster : Cluster, cluster.outages.IsTransient →
    let result := (procedure.run Cluster.world cluster).1
    ((∀ request ∈ requests,
        failuresFirst (cluster.outages.coming request.method) < settings.retry.attempts) ∧
        ∃ value, result = .ok value) ∨
      ((∃ request ∈ requests,
        settings.retry.attempts ≤ failuresFirst (cluster.outages.coming request.method)) ∧
        ∃ error, error.isTransient = true ∧ result = .error error)

/-- A request that the store never refuses, of another kind than those after it. -/
theorem comesThrough_ask {α : Type} {request : StoreRequest} {rest : List StoreRequest}
    {next : request.Reply → StoreProcedure (Except StoreError α)}
    (hanswers : ∀ (store : Store) (now : Instant),
      ∃ value, (store.serve now request).result = .ok value)
    (hother : ∀ other ∈ rest, request.method ≠ other.method)
    (herror : ∀ error, next (.error error) = .done (.error error))
    (hnext : ∀ answer, settings.ComesThrough rest (next (.ok answer))) :
    settings.ComesThrough (request :: rest) (settings.ask request >>= next) := by
  intro cluster h
  obtain ⟨hcomes, hends⟩ := settings.run_ask_of_isTransient h request
  rw [Procedure.run_bind]
  rcases Nat.lt_or_ge (failuresFirst (cluster.outages.coming request.method))
    settings.retry.attempts with hless | hmore
  · obtain ⟨store, now, -, hreply, -⟩ := hcomes hless
    obtain ⟨answer, hanswer⟩ := hanswers store now
    have hrest := hnext answer ((settings.ask request).run Cluster.world cluster).2
      (isTransient_run h _)
    have hsame : ∀ other ∈ rest, failuresFirst (((settings.ask request).run Cluster.world
        cluster).2.outages.coming other.method) =
        failuresFirst (cluster.outages.coming other.method) :=
      fun other hmem ↦ congrArg failuresFirst (settings.coming_run_ask request (hother other hmem))
    rw [hreply.trans hanswer]
    rcases hrest with ⟨hall, hvalue⟩ | ⟨⟨failing, hfailing, hmore⟩, hfailed⟩
    · refine .inl ⟨?_, hvalue⟩
      intro other hmem
      rcases List.mem_cons.mp hmem with rfl | hmem
      · exact hless
      · exact hsame other hmem ▸ hall other hmem
    · refine .inr ⟨⟨failing, List.mem_cons_of_mem _ hfailing, ?_⟩, hfailed⟩
      exact hsame failing hfailing ▸ hmore
  · obtain ⟨error, htransient, hreply⟩ := hends hmore
    rw [hreply, herror]
    exact .inr ⟨⟨request, List.mem_cons_self, hmore⟩, error, htransient, rfl⟩

/-- The requests with which a pass reads. -/
def reads (key : String) : List StoreRequest := [.getWorkload key, .listOwnedSlices key, .listNodes]

theorem comesThrough_readSnapshot (key : String) :
    settings.ComesThrough (reads key) (settings.readSnapshot key) := by
  have hdone (snapshot : Snapshot) : settings.ComesThrough [] (.done (.ok snapshot)) :=
    fun _ _ ↦ .inl ⟨by simp, snapshot, rfl⟩
  apply settings.comesThrough_ask
  · exact fun _ _ ↦ ⟨_, rfl⟩
  · simp [StoreRequest.method]
  · exact fun _ ↦ rfl
  intro workload
  apply settings.comesThrough_ask
  · exact fun _ _ ↦ ⟨_, rfl⟩
  · simp [StoreRequest.method]
  · exact fun _ ↦ rfl
  intro slices
  apply settings.comesThrough_ask
  · exact fun _ _ ↦ ⟨_, rfl⟩
  · simp
  · exact fun _ ↦ rfl
  exact fun nodes ↦ hdone _

end PassSettings

/-! ## Writes under transient faults -/

/-- An own write of a pass, where the workload carries the check that the pass answers for. -/
structure Write.IsDue (write : Write) (key checkName : String) (store : Store) : Prop
    extends write.IsOwn key checkName store where
  carries : ∀ check, write = .setCheck check →
    ∃ workload, store.workload? key = some workload ∧ (workload.check? checkName).isSome = true

namespace Store

variable {store other : Store} {key checkName : String} {write : Write}

theorem SameBesides.isDue (h : SameBesides key checkName store other)
    (hwrite : write.IsDue key checkName store) : write.IsDue key checkName other :=
  ⟨h.isOwn hwrite.toIsOwn, fun check hcheck ↦ h.carries (hwrite.carries check hcheck)⟩

theorem Consistent.isDue_of_mem_writes (h : store.Consistent) {nodes : List Node}
    {context : PassContext}
    (hwrite : write ∈ (reconcile (store.snapshot key nodes) context).writes) :
    write.IsDue key context.checkName store := by
  refine ⟨h.isOwn_of_mem_writes hwrite, ?_⟩
  rintro check rfl
  rcases (store.snapshot key nodes).situation context.checkName with
    hreleasing | ⟨workload, hworkload, hidle | ⟨current, hopen⟩⟩
  · rw [reconcile_of_isReleasing hreleasing] at hwrite
    obtain ⟨slice, -, -, hdelete⟩ := mem_releaseAll_writes.mp hwrite
    cases hdelete
  · rw [reconcile_of_isIdle hworkload hidle] at hwrite
    cases hwrite
  · exact ⟨workload, hworkload, Option.isSome_of_eq_some hopen.carries⟩

theorem isAlreadyExists_of_insertSlice {slice : Slice} {now : Instant} {error : StoreError}
    (h : (store.insertSlice slice now).result = .error error) : error.isAlreadyExists = true := by
  unfold insertSlice refuse at h
  split_ifs at h
  cases h
  rfl

theorem isNotFound_of_deleteSlice {now : Instant} {name : String} {error : StoreError}
    (h : (store.serve now (.deleteSlice name)).result = .error error) :
    error.isNotFound = true := by
  cases hslice : store.slice? name with
  | none =>
    simp only [serve, removeSlice_of_none hslice] at h
    cases h
    rfl
  | some slice =>
    simp only [serve, removeSlice_of_some hslice] at h
    cases h

/-- A check that the workload carries is updated, before and after it has been tried. -/
theorem Tried.updateCheck_result {check : AdmissionCheck}
    (h : store.Tried (.updateCheck key check) other)
    (hdue : (Write.setCheck check).IsDue key checkName store) :
    (other.updateCheck key check).result = .ok () := by
  have hcarried : SameBesides key checkName store other := by
    rcases h with rfl | ⟨now, rfl⟩
    · exact .refl key checkName other
    · show SameBesides key checkName store (store.carryOut key (.setCheck check, now))
      exact .carryOut hdue.toIsOwn
  obtain ⟨workload, hworkload, hcheck⟩ := hcarried.carries (hdue.carries check rfl)
  rw [← hdue.named check rfl] at hcheck
  obtain ⟨current, hcurrent⟩ := Option.isSome_iff_exists.mp hcheck
  obtain ⟨updated, hupdated, -⟩ := Workload.setCheck?_of_check? hcurrent
  unfold Store.updateCheck
  rw [show other.workloads.get? key = some workload from hworkload]
  simp only [hupdated]

end Store

namespace PassSettings

variable {cluster : Cluster} (settings : PassSettings) {key checkName : String}

/-- A slice that names the workload as its owner is confirmed. -/
theorem run_confirmOwner_of_owned (htransient : cluster.outages.IsTransient)
    (hspares : cluster.outages.Spares settings.retry.attempts) {name : String} {slice : Slice}
    (hslice : cluster.store.slice? name = some slice) (howner : slice.ownerKey = some key) :
    ((settings.confirmOwner key name).run Cluster.world cluster).1 = .ok () := by
  have hstill := (settings.run_ask_of_still cluster (.getSlice name) fun _ ↦ rfl).2
  have hserved := (settings.run_ask_of_isTransient htransient (.getSlice name)).1
    (hspares.failuresFirst_lt _)
  unfold confirmOwner
  rw [Procedure.run_bind]
  generalize (settings.ask (.getSlice name)).run Cluster.world cluster = asked at hstill hserved ⊢
  obtain ⟨reply, after⟩ := asked
  obtain ⟨store, now, -, hreply, -⟩ := hserved
  have hfound : reply = .ok (some slice) := by
    rcases hstill with hfound | ⟨error, herror⟩
    · rw [← hslice]
      exact hfound
    · cases herror.symm.trans hreply
  rw [hfound]
  dsimp only
  rw [howner]
  dsimp only
  rw [if_pos rfl]
  rfl

/-- A slice is created, and it counts as created unless another owner holds the name. -/
theorem run_apply_createSlice (htransient : cluster.outages.IsTransient)
    (hspares : cluster.outages.Spares settings.retry.attempts) {slice : Slice}
    (howner : slice.ownerKey = some key) :
    let ran := (settings.apply key (.createSlice slice)).run Cluster.world cluster
    (∃ now, ran.2.store = cluster.store.carryOut key (.createSlice slice, now)) ∧
      ((Write.createSlice slice).collides key cluster.store = false → ran.1 = .ok ()) := by
  have hserved := (settings.run_ask_of_isTransient htransient (.createSlice slice)).1
    (hspares.failuresFirst_lt _)
  have hlater := isTransient_run htransient (settings.ask (.createSlice slice))
  have hspared := spares_run hspares (settings.ask (.createSlice slice))
  unfold apply
  rw [Procedure.run_bind]
  generalize (settings.ask (.createSlice slice)).run Cluster.world cluster = asked
    at hserved hlater hspared ⊢
  obtain ⟨error | created, after⟩ := asked
  · obtain ⟨first, hcarried⟩ := hserved.carried
    obtain ⟨store, now, -, hreply, -⟩ := hserved
    have hstore := settings.store_run_confirmOwner after key slice.name
    dsimp only at hcarried ⊢
    rw [if_pos (Store.isAlreadyExists_of_insertSlice hreply.symm)]
    refine ⟨⟨first, hstore.trans hcarried⟩, fun hfree ↦ ?_⟩
    -- Whoever created the slice that stands under the name now, it names the workload.
    have hslice : after.store.slice? slice.name =
        some ((cluster.store.slice? slice.name).getD (slice.stamped first)) := calc
      after.store.slice? slice.name
        = (cluster.store.insertSlice slice first).store.slice? slice.name := by rw [hcarried]; rfl
      _ = _ := (Store.slice?_insertSlice _ _ _ _).trans (if_pos rfl)
    apply settings.run_confirmOwner_of_owned hlater hspared hslice
    cases hheld : cluster.store.slice? slice.name with
    | none => exact howner
    | some held =>
      by_contra hother
      rw [Write.collides_createSlice_iff.mpr ⟨held, hheld, hother⟩] at hfree
      cases hfree
  · exact ⟨hserved.carried, fun _ ↦ rfl⟩

/-- A write that is due is carried out, and it counts as done unless another owner holds the
name. -/
theorem run_apply_of_isDue (htransient : cluster.outages.IsTransient)
    (hspares : cluster.outages.Spares settings.retry.attempts) {write : Write}
    (hdue : write.IsDue key checkName cluster.store) :
    let ran := (settings.apply key write).run Cluster.world cluster
    (∃ now, ran.2.store = cluster.store.carryOut key (write, now)) ∧
      (write.collides key cluster.store = false → ran.1 = .ok ()) := by
  have hserved := (settings.run_ask_of_isTransient htransient (write.request key)).1
    (hspares.failuresFirst_lt _)
  cases write with
  | createSlice slice => exact settings.run_apply_createSlice htransient hspares hdue.belongs
  | deleteSlice name =>
    unfold apply
    rw [Procedure.run_bind]
    dsimp only [Write.request] at hserved
    generalize (settings.ask (.deleteSlice name)).run Cluster.world cluster = asked at hserved ⊢
    obtain ⟨error | deleted, after⟩ := asked
    · have hcarried := hserved.carried
      obtain ⟨store, now, -, hreply, -⟩ := hserved
      dsimp only
      rw [if_pos (Store.isNotFound_of_deleteSlice hreply.symm)]
      exact ⟨hcarried, fun _ ↦ rfl⟩
    · exact ⟨hserved.carried, fun _ ↦ rfl⟩
  | setCheck check =>
    unfold apply
    rw [Procedure.run_bind]
    dsimp only [Write.request] at hserved
    generalize (settings.ask (.updateCheck key check)).run Cluster.world cluster = asked
      at hserved ⊢
    obtain ⟨error | updated, after⟩ := asked
    · obtain ⟨store, now, htried, hreply, -⟩ := hserved
      cases hreply.trans (htried.updateCheck_result hdue)
    · exact ⟨hserved.carried, fun _ ↦ rfl⟩

/-- All writes that are due are carried out, and those fail that collide. -/
theorem run_applyAll_of_isDue {store : Store} {writes : List Write}
    (hdue : ∀ write ∈ writes, write.IsDue key checkName store)
    (htransient : cluster.outages.IsTransient)
    (hspares : cluster.outages.Spares settings.retry.attempts)
    (h : Store.SameBesides key checkName store cluster.store) :
    let ran := (settings.applyAll key writes).run Cluster.world cluster
    ran.1 = writes.countP (·.collides key store) ∧
      ∃ steps : List (Write × Instant), steps.map Prod.fst = writes ∧
        ran.2.store = cluster.store.carryAll key steps := by
  induction writes generalizing cluster with
  | nil => exact ⟨rfl, [], rfl, rfl⟩
  | cons write rest ih =>
    have hwrite := h.isDue (hdue write List.mem_cons_self)
    obtain ⟨⟨now, hcarried⟩, hdone⟩ := settings.run_apply_of_isDue htransient hspares hwrite
    have hmiddle : Store.SameBesides key checkName store
        ((settings.apply key write).run Cluster.world cluster).2.store := by
      rw [hcarried]
      exact h.trans (.carryOut hwrite.toIsOwn)
    obtain ⟨hcount, steps, hsteps, hstore⟩ :=
      ih (fun other hother ↦ hdue other (List.mem_cons_of_mem _ hother))
        (isTransient_run htransient _) (spares_run hspares _) hmiddle
    rw [run_applyAll_cons, List.countP_cons, ← hcount, ← h.collides_eq]
    refine ⟨congrArg (_ + ·) ?_, (write, now) :: steps, congrArg (write :: ·) hsteps,
      hstore.trans (congrArg (·.carryAll key steps) hcarried)⟩
    cases hcollides : write.collides key cluster.store with
    | true =>
      obtain ⟨error, herror⟩ := settings.apply_of_collides hcollides
      rw [herror]
      rfl
    | false =>
      rw [hdone hcollides]
      rfl

/-! ## Passes under transient faults -/

/-- A pass whose calls come through carries out all its writes, and those fail that collide. -/
theorem run_pass_of_spares {cluster : Cluster} (hstore : cluster.store.Reachable)
    (htransient : cluster.outages.IsTransient)
    (hspares : cluster.outages.Spares settings.retry.attempts) (key : String) :
    let ran := (settings.pass key).run Cluster.world cluster
    let outcome := reconcile (cluster.store.reading key)
      (settings.contextAt (settings.clockTime key cluster))
    ran.1 = verdict key outcome (outcome.writes.countP (·.collides key cluster.store)) ∧
      ∃ steps : List (Write × Instant), steps.map Prod.fst = outcome.writes ∧
        ran.2.store = cluster.store.carryAll key steps := by
  intro ran outcome
  have hread : ∃ snapshot, ((settings.readSnapshot key).run Cluster.world cluster).1 =
      .ok snapshot := by
    rcases settings.comesThrough_readSnapshot key cluster htransient with
      ⟨-, hread⟩ | ⟨⟨request, -, hmore⟩, -⟩
    · exact hread
    · have hless := hspares.failuresFirst_lt request.method
      omega
  have hlater := isTransient_run htransient (settings.readSnapshot key)
  have hspared := spares_run hspares (settings.readSnapshot key)
  rcases settings.run_pass_cases cluster key with
    ⟨error, middle, hfailed, -⟩ | ⟨middle, failed, after, hmiddle, hsame, happlied, hpass⟩
  · obtain ⟨snapshot, hsnapshot⟩ := hread
    rw [hfailed] at hsnapshot
    cases hsnapshot
  rw [hmiddle] at hlater hspared
  have hdue : ∀ write ∈ outcome.writes, write.IsDue key settings.checkName cluster.store :=
    fun write hwrite ↦ hstore.consistent.isDue_of_mem_writes hwrite
  have hunchanged : Store.SameBesides key settings.checkName cluster.store middle.store :=
    hsame ▸ .refl key settings.checkName cluster.store
  have hwrites := settings.run_applyAll_of_isDue hdue hlater hspared hunchanged
  rw [happlied] at hwrites
  obtain ⟨hcount, steps, hsteps, hafter⟩ := hwrites
  have hran : ran = (verdict key outcome failed, after) := hpass
  rw [hran, ← hcount]
  exact ⟨rfl, steps, hsteps, hsame ▸ hafter⟩

end PassSettings

/-- The cluster without faults, at some moment. -/
def Cluster.calmAt (cluster : Cluster) (now : Instant) : Cluster :=
  { cluster with outages := .empty, now }

namespace PassSettings

variable (settings : PassSettings)

/-- A pass without faults carries out all its writes, and those fail that collide. -/
theorem run_pass_calmAt {cluster : Cluster} (hstore : cluster.store.Reachable) (key : String)
    (now : Instant) :
    let ran := (settings.pass key).run Cluster.world (cluster.calmAt now)
    let outcome := reconcile (cluster.store.reading key) (settings.contextAt now)
    ran.1 = verdict key outcome (outcome.writes.countP (·.collides key cluster.store)) ∧
      ∃ steps : List (Write × Instant), steps.map Prod.fst = outcome.writes ∧
        ran.2.store = cluster.store.carryAll key steps := by
  have hcalm : (cluster.calmAt now).store.Reachable := hstore
  have hran := settings.run_pass_of_spares hcalm OutagePlan.isTransient_empty
    (OutagePlan.spares_empty settings.retry.attempts_pos) key
  rw [settings.clockTime_of_empty rfl] at hran
  exact hran

/-- Transient faults do not show in what a pass comes to. If no call uses up its attempts, then the
pass ends like a pass without faults at the moment at which it reads the clock: with the same
outcome, or with the same number of failed writes, and with the same store up to the creation times
of slices. If all attempts of a read fail, the pass reports this read and changes nothing. -/
theorem pass_conceals_transient_faults {cluster : Cluster} (hstore : cluster.store.Reachable)
    (htransient : cluster.outages.IsTransient) (key : String) :
    let calm := cluster.calmAt (settings.clockTime key cluster)
    let ran := (settings.pass key).run Cluster.world cluster
    let undisturbed := (settings.pass key).run Cluster.world calm
    settings.clockTime key calm = settings.clockTime key cluster ∧
      (cluster.outages.Spares settings.retry.attempts →
        ran.1 = undisturbed.1 ∧ Store.SameButTimes undisturbed.2.store ran.2.store) ∧
      ∀ request ∈ reads key,
        settings.retry.attempts ≤ failuresFirst (cluster.outages.coming request.method) →
          ∃ error, error.isTransient = true ∧ ran.1 = .error (.read key error) ∧
            ran.2.store = cluster.store := by
  intro calm ran undisturbed
  refine ⟨settings.clockTime_of_empty rfl key, fun hspares ↦ ?_, fun request hrequest hmore ↦ ?_⟩
  · obtain ⟨hresult, steps, hsteps, hafter⟩ :=
      settings.run_pass_of_spares hstore htransient hspares key
    obtain ⟨hcalm, later, hlater, hundisturbed⟩ :=
      settings.run_pass_calmAt hstore key (settings.clockTime key cluster)
    have hsame : Store.SameButTimes undisturbed.2.store ran.2.store := by
      rw [show ran.2.store = _ from hafter, show undisturbed.2.store = _ from hundisturbed]
      exact (Store.SameButTimes.refl cluster.store).carryAll (hsteps.trans hlater.symm)
    exact ⟨hresult.trans hcalm.symm, hsame⟩
  · have hread : ∃ error, error.isTransient = true ∧
        ((settings.readSnapshot key).run Cluster.world cluster).1 = .error error := by
      rcases settings.comesThrough_readSnapshot key cluster htransient with
        ⟨hless, -⟩ | ⟨-, hread⟩
      · have hrequest := hless request hrequest
        omega
      · exact hread
    obtain ⟨error, herror, hread⟩ := hread
    rcases settings.run_pass_cases cluster key with
      ⟨failure, middle, hfailed, hsame, hpass⟩ | ⟨middle, failed, after, hmiddle, -⟩
    · rw [hfailed] at hread
      cases hread
      have hran : ran = (.error (.read key error), middle) := hpass
      rw [hran]
      exact ⟨error, herror, rfl, hsame⟩
    · rw [hmiddle] at hread
      cases hread

end PassSettings

/-! ## A creation that fails too late -/

namespace Sample

/-- The sample workload is to be served, and calls of one kind time out, after they have taken
effect or before. -/
def flaky (method : String) (effects : List Bool) : Cluster :=
  { Cluster.start (.ofNanos 0) with
    store := registered
    outages := SortedMap.empty.insert method
      (effects.map fun takesEffect ↦ some ⟨.transient "timeout", takesEffect⟩) }

theorem flaky_isTransient (method : String) (effects : List Bool) :
    (flaky method effects).outages.IsTransient := by
  intro other outage houtage
  rw [flaky, OutagePlan.coming_insert_empty] at houtage
  split_ifs at houtage
  · obtain ⟨takesEffect, -, hsame⟩ := List.mem_map.mp houtage
    cases hsame
    rfl
  · cases houtage

theorem flaky_spares {method : String} {effects : List Bool} {attempts : Nat}
    (h : effects.length < attempts) : (flaky method effects).outages.Spares attempts := by
  apply OutagePlan.spares_of_length_lt
  intro other
  rw [flaky, OutagePlan.coming_insert_empty]
  split_ifs
  · simpa using h
  · exact Nat.zero_lt_of_lt h

end Sample

/-- A creation that times out after it has taken effect is repeated, and the pass succeeds. A pass
whose nodes are not listed in two attempts reports that, and it leaves the store alone. -/
theorem PassSettings.pass_conceals_transient_faults_sample :
    let late := Sample.flaky "create_slice" [true]
    let calm := late.calmAt (Sample.twice.clockTime "team/job" late)
    let ran := (Sample.twice.pass "team/job").run Cluster.world late
    let undisturbed := (Sample.twice.pass "team/job").run Cluster.world calm
    let unlisted := Sample.flaky "list_nodes" [false, false]
    let broken := (Sample.twice.pass "team/job").run Cluster.world unlisted
    Sample.registered.Reachable ∧ late.outages.IsTransient ∧ late.outages.Spares 2 ∧
      ran.1.isOk = true ∧ ran.1 = undisturbed.1 ∧
      Store.SameButTimes undisturbed.2.store ran.2.store ∧
      unlisted.outages.IsTransient ∧
      2 ≤ failuresFirst (unlisted.outages.coming StoreRequest.listNodes.method) ∧
      ∃ error, broken.1 = .error (.read "team/job" error) ∧ broken.2.store = unlisted.store := by
  -- Without the names, the runs are compared as terms and not by running them.
  dsimp only
  have hstore (method : String) (effects : List Bool) :
      (Sample.flaky method effects).store.Reachable :=
    Sample.registered_reachable
  have hlate := Sample.flaky_isTransient "create_slice" [true]
  have hspares : (Sample.flaky "create_slice" [true]).outages.Spares 2 :=
    Sample.flaky_spares (by decide)
  have hunlisted := Sample.flaky_isTransient "list_nodes" [false, false]
  have hmore : 2 ≤ failuresFirst ((Sample.flaky "list_nodes" [false, false]).outages.coming
      StoreRequest.listNodes.method) := by
    decide +kernel
  obtain ⟨-, hconceals, -⟩ :=
    PassSettings.pass_conceals_transient_faults Sample.twice (hstore _ _) hlate "team/job"
  obtain ⟨hresult, hsame⟩ := hconceals hspares
  obtain ⟨-, -, hreads⟩ :=
    PassSettings.pass_conceals_transient_faults Sample.twice (hstore _ _) hunlisted "team/job"
  obtain ⟨error, -, hbroken, hunchanged⟩ := hreads .listNodes (by simp [reads]) hmore
  exact ⟨Sample.registered_reachable, hlate, hspares, by decide +kernel, hresult, hsame, hunlisted,
    hmore, error, hbroken, hunchanged⟩

end SliceControl
