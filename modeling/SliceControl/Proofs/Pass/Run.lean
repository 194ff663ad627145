import SliceControl.Cluster
import SliceControl.Proofs.Pass.Snapshot
import SliceControl.Proofs.Procedure
import SliceControl.Proofs.Store.Mutation

/-!
# Running a pass

A call may fail before or after its request has been carried out, and then it may be repeated.
Carrying out a request twice is the same as carrying it out once, so repeating a call does no harm:
a pass carries out some of its writes, each at some moment, and it carries out all of them if it
succeeds. A failed call must only not pretend that something is missing or there already, since such
an answer counts as success.
-/

namespace SliceControl

/-! ## Requests that are repeated -/

theorem AdmissionCheck.update_update (check next : AdmissionCheck) :
    (check.update next).update next = check.update next := by
  unfold update
  split_ifs with hstate <;> simp_all

theorem Workload.updateFirst_updateFirst {next : AdmissionCheck}
    {checks updated : List AdmissionCheck} (h : updateFirst next checks = some updated) :
    updateFirst next updated = some updated := by
  induction checks generalizing updated with
  | nil => cases h
  | cons check rest ih =>
    unfold updateFirst at h
    split_ifs at h with hname
    · cases h
      rw [updateFirst, if_pos (AdmissionCheck.name_update hname), AdmissionCheck.update_update]
    · obtain ⟨others, hothers, rfl⟩ := Option.map_eq_some_iff.mp h
      rw [updateFirst, if_neg hname, ih hothers]
      rfl

theorem Workload.setCheck?_setCheck? {workload updated : Workload} {next : AdmissionCheck}
    (h : workload.setCheck? next = some updated) : updated.setCheck? next = some updated := by
  obtain ⟨checks, hchecks, rfl⟩ := Option.map_eq_some_iff.mp h
  unfold setCheck?
  rw [Workload.updateFirst_updateFirst hchecks]
  rfl

namespace Store

variable {store : Store}

theorem updateCheck_updateCheck (key : String) (check : AdmissionCheck) :
    ((store.updateCheck key check).store.updateCheck key check).store =
      (store.updateCheck key check).store := by
  unfold updateCheck
  cases hworkload : store.workloads.get? key with
  | none => simp [refuse, hworkload]
  | some workload =>
    dsimp only
    cases hupdated : workload.setCheck? check with
    | none => simp [refuse, hworkload, hupdated]
    | some updated =>
      have htwice := Workload.setCheck?_setCheck? hupdated
      simp only [SortedMap.get?_insert, if_pos, htwice]
      congr 1
      apply SortedMap.ext_get?
      intro other
      simp only [SortedMap.get?_insert]
      split_ifs <;> rfl

/-- Carrying out a request twice is the same as carrying it out once. -/
theorem serve_serve (first second : Instant) (request : StoreRequest) :
    ((store.serve first request).store.serve second request).store =
      (store.serve first request).store := by
  cases request with
  | createSlice slice =>
    have hslice := slice?_insertSlice store slice first slice.name
    rw [if_pos rfl] at hslice
    show ((store.insertSlice slice first).store.insertSlice slice second).store = _
    rw [insertSlice_of_some hslice]
    rfl
  | deleteSlice name =>
    have hslice := slice?_removeSlice store name name
    rw [if_pos rfl] at hslice
    have hgone := removeSlice_of_none hslice
    simp only [serve, hgone, refuse]
  | updateCheck key check => exact updateCheck_updateCheck key check
  | _ => rfl

/-- Nothing has been done for a request, or it has been carried out at some moment. -/
def Tried (store : Store) (request : StoreRequest) (after : Store) : Prop :=
  after = store ∨ ∃ now, after = (store.serve now request).store

/-- However often a request is carried out, once makes the difference. -/
theorem Tried.serve {request : StoreRequest} {after : Store} (h : store.Tried request after)
    (now : Instant) :
    ∃ first, (after.serve now request).store = (store.serve first request).store := by
  rcases h with rfl | ⟨first, rfl⟩
  · exact ⟨now, rfl⟩
  · exact ⟨first, serve_serve first now request⟩

end Store

/-! ## Calls that fail -/

/-- A failure that does not say that something is missing or there already. -/
def StoreError.IsFault (error : StoreError) : Prop :=
  error.isNotFound = false ∧ error.isAlreadyExists = false

/-- No planned outage pretends that something is missing or there already. -/
def OutagePlan.IsHonest (plan : OutagePlan) : Prop :=
  ∀ method calls, plan.get? method = some calls → ∀ outage, some outage ∈ calls →
    outage.error.IsFault

theorem OutagePlan.isHonest_empty : OutagePlan.IsHonest .empty :=
  fun _ _ hcalls ↦ by cases hcalls

theorem OutagePlan.IsHonest.take {plan : OutagePlan} (h : plan.IsHonest) (method : String) :
    (∀ outage, (plan.take method).1 = some outage → outage.error.IsFault) ∧
      (plan.take method).2.IsHonest := by
  unfold OutagePlan.take
  cases hcalls : plan.get? method with
  | none => exact ⟨by simp, h⟩
  | some calls =>
    cases calls with
    | nil => exact ⟨by simp, h⟩
    | cons next rest =>
      refine ⟨fun outage hnext ↦ h method _ hcalls outage (hnext ▸ List.mem_cons_self), ?_⟩
      intro other others hothers outage houtage
      rw [SortedMap.get?_insert] at hothers
      split_ifs at hothers
      · cases hothers
        exact h method _ hcalls outage (List.mem_cons_of_mem _ houtage)
      · exact h other others hothers outage houtage

/-- What an answered request may have come to: its call has failed and it may have been tried, or
it has been tried and then carried out with this result. -/
def Cluster.Answered (cluster : Cluster) (request : StoreRequest) (reply : request.Reply)
    (after : Cluster) : Prop :=
  after.outages.IsHonest ∧
    ((∃ error, reply = .error error ∧ error.IsFault ∧
        cluster.store.Tried request after.store) ∨
      ∃ store now, cluster.store.Tried request store ∧ reply = (store.serve now request).result ∧
        after.store = (store.serve now request).store)

namespace Cluster

variable {cluster : Cluster}

/-- Without an outage, a request is carried out at once. -/
theorem serve_of_none {request : StoreRequest}
    (h : (cluster.outages.take request.method).1 = none) :
    (cluster.serve request).1 = (cluster.store.serve cluster.now request).result ∧
      (cluster.serve request).2.store = (cluster.store.serve cluster.now request).store := by
  unfold serve
  simp only [h]
  exact ⟨rfl, rfl⟩

/-- An outage answers in place of the store, and it may let the request take effect. -/
theorem serve_of_some {request : StoreRequest} {outage : Outage}
    (h : (cluster.outages.take request.method).1 = some outage) :
    (cluster.serve request).1 = .error outage.error ∧
      (cluster.serve request).2.store =
        if outage.takesEffect then (cluster.store.serve cluster.now request).store
        else cluster.store := by
  unfold serve
  simp only [h]
  refine ⟨trivial, ?_⟩
  split_ifs <;> rfl

theorem tried_serve (cluster : Cluster) (request : StoreRequest) :
    cluster.store.Tried request (cluster.serve request).2.store := by
  cases hnext : (cluster.outages.take request.method).1 with
  | none => exact .inr ⟨cluster.now, (serve_of_none hnext).2⟩
  | some outage =>
    rw [(serve_of_some hnext).2]
    split_ifs
    · exact .inr ⟨cluster.now, rfl⟩
    · exact .inl rfl

theorem outages_serve (request : StoreRequest) :
    (cluster.serve request).2.outages = (cluster.outages.take request.method).2 := by
  unfold serve
  cases hnext : (cluster.outages.take request.method).1 with
  | none =>
    simp only [hnext]
    rfl
  | some outage =>
    simp only [hnext]
    split_ifs <;> rfl

theorem answered_serve (h : cluster.outages.IsHonest) (request : StoreRequest) :
    cluster.Answered request (cluster.serve request).1 (cluster.serve request).2 := by
  obtain ⟨hfault, hrest⟩ := h.take request.method
  refine ⟨outages_serve request ▸ hrest, ?_⟩
  cases hnext : (cluster.outages.take request.method).1 with
  | none =>
    obtain ⟨hreply, hstore⟩ := serve_of_none hnext
    exact .inr ⟨cluster.store, cluster.now, .inl rfl, hreply, hstore⟩
  | some outage =>
    exact .inl ⟨outage.error, (serve_of_some hnext).1, hfault outage hnext,
      tried_serve cluster request⟩

/-- A failed first attempt makes no difference to what the later ones come to. -/
theorem Answered.of_tried {request : StoreRequest} {reply : request.Reply} {middle after : Cluster}
    (htried : cluster.store.Tried request middle.store) (h : middle.Answered request reply after) :
    cluster.Answered request reply after := by
  have htrans {store : Store} (hstore : middle.store.Tried request store) :
      cluster.store.Tried request store := by
    rcases hstore with rfl | ⟨now, rfl⟩
    · exact htried
    · exact .inr (htried.serve now)
  obtain ⟨houtages, ⟨error, hreply, hfault, hstore⟩ | ⟨store, now, hstore, hreply, hafter⟩⟩ := h
  · exact ⟨houtages, .inl ⟨error, hreply, hfault, htrans hstore⟩⟩
  · exact ⟨houtages, .inr ⟨store, now, htrans hstore, hreply, hafter⟩⟩

theorem run_attemptFrom_succ (policy : RetryPolicy) (request : StoreRequest) (spare attempt : Nat)
    {reply : request.Reply} {after : Cluster} (h : cluster.serve request = (reply, after)) :
    (attemptFrom policy request (spare + 1) attempt).run world cluster =
      match reply with
      | .ok answer => (.ok answer, after)
      | .error error =>
        if error.isTransient then
          (attemptFrom policy request spare (attempt + 1)).run world
            (elapse (policy.backoffMs attempt) after)
        else (.error error, after) := by
  have hworld : world.serve request cluster = (reply, after) := h
  rw [attemptFrom, Procedure.run_call, hworld]
  cases reply with
  | ok answer => rfl
  | error error =>
    dsimp only
    split_ifs <;> rfl

/-- A request that the store answers without any change is answered that way, unless the last
attempt has failed. -/
theorem run_attemptFrom_of_still (policy : RetryPolicy) {request : StoreRequest}
    {result : request.Reply}
    (hstill : ∀ now, cluster.store.serve now request = ⟨result, cluster.store, []⟩)
    (spare attempt : Nat) :
    ((attemptFrom policy request spare attempt).run world cluster).2.store = cluster.store ∧
      (((attemptFrom policy request spare attempt).run world cluster).1 = result ∨
        ∃ error, ((attemptFrom policy request spare attempt).run world cluster).1 =
          .error error) := by
  have hserve (cluster : Cluster)
      (hstill : ∀ now, cluster.store.serve now request = ⟨result, cluster.store, []⟩) :
      (cluster.serve request).2.store = cluster.store ∧
        ((cluster.serve request).1 = result ∨
          ∃ error, (cluster.serve request).1 = .error error) := by
    cases hnext : (cluster.outages.take request.method).1 with
    | none =>
      obtain ⟨hreply, hstore⟩ := serve_of_none hnext
      exact ⟨by rw [hstore, hstill], .inl (by rw [hreply, hstill])⟩
    | some outage =>
      obtain ⟨hreply, hstore⟩ := serve_of_some hnext
      exact ⟨by rw [hstore, hstill, ite_self], .inr ⟨_, hreply⟩⟩
  induction spare generalizing attempt cluster with
  | zero => exact hserve cluster hstill
  | succ spare ih =>
    obtain ⟨hfirst, hreply⟩ := hserve cluster hstill
    rcases hserved : cluster.serve request with ⟨reply, after⟩
    rw [hserved] at hfirst hreply
    dsimp only at hfirst hreply
    rw [run_attemptFrom_succ policy request spare attempt hserved]
    cases reply with
    | ok answer => exact ⟨hfirst, hreply⟩
    | error error =>
      dsimp only
      split_ifs
      · have hlater : ∀ now, (elapse (policy.backoffMs attempt) after).store.serve now request =
            ⟨result, (elapse (policy.backoffMs attempt) after).store, []⟩ := by
          intro now
          show after.store.serve now request = ⟨result, after.store, []⟩
          rw [hfirst]
          exact hstill now
        rw [← hfirst]
        exact ih hlater (attempt + 1)
      · exact ⟨hfirst, .inr ⟨error, rfl⟩⟩

theorem answered_attemptFrom (policy : RetryPolicy) (request : StoreRequest) (spare attempt : Nat)
    (h : cluster.outages.IsHonest) :
    cluster.Answered request ((attemptFrom policy request spare attempt).run world cluster).1
      ((attemptFrom policy request spare attempt).run world cluster).2 := by
  induction spare generalizing attempt cluster with
  | zero => exact answered_serve h request
  | succ spare ih =>
    have hfirst := answered_serve h request
    rcases hserve : cluster.serve request with ⟨reply, after⟩
    rw [hserve] at hfirst
    rw [run_attemptFrom_succ policy request spare attempt hserve]
    cases reply with
    | ok answer => exact hfirst
    | error error =>
      dsimp only
      split_ifs
      · have hlater : (elapse (policy.backoffMs attempt) after).Answered request _ _ :=
          ih (attempt + 1) hfirst.1
        apply hlater.of_tried
        rcases hfirst.2 with ⟨_, _, _, htried⟩ | ⟨store, now, htried, _, hafter⟩
        · exact htried
        · exact .inr (hafter ▸ htried.serve now)
      · exact hfirst

namespace Answered

variable {request : StoreRequest} {reply : request.Reply} {after : Cluster}

theorem tried (h : cluster.Answered request reply after) :
    cluster.store.Tried request after.store := by
  rcases h.2 with ⟨_, _, _, htried⟩ | ⟨store, now, htried, _, hafter⟩
  · exact htried
  · exact .inr (hafter ▸ htried.serve now)

/-- A reply that is no failure of the call is given once the request has been carried out. -/
theorem served (h : cluster.Answered request reply after)
    (hreply : ∀ error, reply = .error error → ¬error.IsFault) :
    ∃ now, after.store = (cluster.store.serve now request).store := by
  rcases h.2 with ⟨error, herror, hfault, _⟩ | ⟨store, now, htried, _, hafter⟩
  · exact absurd hfault (hreply error herror)
  · exact hafter ▸ htried.serve now

/-- A request that only reads leaves the store as it is, and what it is answered with is what the
store holds. -/
theorem read {value : request.Answer} (h : cluster.Answered request reply after)
    (hread : ∀ now, cluster.store.serve now request = ⟨.ok value, cluster.store, []⟩) :
    after.store = cluster.store ∧ ∀ answer, reply = .ok answer → answer = value := by
  have hstill {store : Store} (htried : cluster.store.Tried request store) :
      store = cluster.store := by
    rcases htried with rfl | ⟨now, rfl⟩
    · rfl
    · rw [hread now]
  refine ⟨hstill h.tried, fun answer hanswer ↦ ?_⟩
  rcases h.2 with ⟨error, herror, _, _⟩ | ⟨store, now, htried, hresult, _⟩
  · cases hanswer.symm.trans herror
  · rw [hstill htried, hread now] at hresult
    exact Except.ok.inj (hanswer.symm.trans hresult)

end Answered

end Cluster

/-! ## Writes -/

namespace PassSettings

variable {cluster : Cluster} (settings : PassSettings)

theorem answered_ask (h : cluster.outages.IsHonest) (request : StoreRequest) :
    cluster.Answered request ((settings.ask request).run Cluster.world cluster).1
      ((settings.ask request).run Cluster.world cluster).2 :=
  Cluster.answered_attemptFrom settings.retry request _ _ h

theorem run_ask_of_still (cluster : Cluster) (request : StoreRequest) {result : request.Reply}
    (hstill : ∀ now, cluster.store.serve now request = ⟨result, cluster.store, []⟩) :
    ((settings.ask request).run Cluster.world cluster).2.store = cluster.store ∧
      (((settings.ask request).run Cluster.world cluster).1 = result ∨
        ∃ error, ((settings.ask request).run Cluster.world cluster).1 = .error error) :=
  Cluster.run_attemptFrom_of_still settings.retry hstill _ _

/-- What holds of the planned outages, however many calls are made, holds after a run. -/
theorem outages_run {α : Type} (planned : OutagePlan → Prop)
    (htake : ∀ plan method, planned plan → planned (plan.take method).2)
    (procedure : StoreProcedure α) (h : planned cluster.outages) :
    planned (procedure.run Cluster.world cluster).2.outages := by
  apply Procedure.run_preserves fun cluster : Cluster ↦ planned cluster.outages
  · intro request cluster hplanned
    show planned (cluster.serve request).2.outages
    rw [Cluster.outages_serve]
    exact htake _ _ hplanned
  · exact fun _ _ hplanned ↦ hplanned
  · exact h

theorem isHonest_run {α : Type} (h : cluster.outages.IsHonest) (procedure : StoreProcedure α) :
    (procedure.run Cluster.world cluster).2.outages.IsHonest :=
  outages_run OutagePlan.IsHonest (fun _ method hplan ↦ (hplan.take method).2) procedure h

/-- Confirming an owner changes nothing. -/
theorem store_run_confirmOwner (cluster : Cluster) (key name : String) :
    ((settings.confirmOwner key name).run Cluster.world cluster).2.store = cluster.store := by
  have hlast : ((settings.confirmOwner key name).run Cluster.world cluster).2 =
      ((settings.ask (.getSlice name)).run Cluster.world cluster).2 := by
    unfold confirmOwner
    rw [Procedure.run_bind]
    rcases (settings.ask (.getSlice name)).run Cluster.world cluster with
      ⟨error | (_ | slice), after⟩
    · rfl
    · rfl
    · dsimp only
      split
      · split_ifs <;> rfl
      · rfl
  rw [hlast]
  exact (settings.run_ask_of_still cluster (.getSlice name) fun _ ↦ rfl).1

/-- A write may have been carried out, and it has been if it counts as done. -/
def Applied (cluster : Cluster) (key : String) (write : Write)
    (run : Except StoreError Unit × Cluster) : Prop :=
  run.2.outages.IsHonest ∧ cluster.store.Tried (write.request key) run.2.store ∧
    (run.1 = .ok () → ∃ now, run.2.store = cluster.store.carryOut key (write, now))

theorem applied_of_served {key : String} {write : Write} {result : Except StoreError Unit}
    {reply : (write.request key).Reply} {after : Cluster}
    (h : cluster.Answered (write.request key) reply after)
    (hreply : ∀ error, reply = .error error → ¬error.IsFault) :
    Applied cluster key write (result, after) :=
  ⟨h.1, h.tried, fun _ ↦ h.served hreply⟩

/-- A failure that does not count as done leaves the write tried. -/
theorem applied_of_failed {key : String} {write : Write} {error : StoreError} {after : Cluster}
    (h : cluster.Answered (write.request key) (.error error) after) :
    Applied cluster key write (.error error, after) :=
  ⟨h.1, h.tried, fun hok ↦ by cases hok⟩

theorem applied_apply (h : cluster.outages.IsHonest) (key : String) (write : Write) :
    Applied cluster key write ((settings.apply key write).run Cluster.world cluster) := by
  cases write with
  | createSlice slice =>
    have hanswered := settings.answered_ask h (.createSlice slice)
    unfold apply
    rw [Procedure.run_bind]
    generalize (settings.ask (.createSlice slice)).run Cluster.world cluster = asked at hanswered ⊢
    obtain ⟨error | created, after⟩ := asked
    · dsimp only at hanswered ⊢
      split_ifs with hexists
      · have hserved := hanswered.served fun other hother ↦ by
          cases hother
          simp [StoreError.IsFault, hexists]
        have hstore := settings.store_run_confirmOwner after key slice.name
        refine ⟨isHonest_run hanswered.1 _, ?_, fun _ ↦ ?_⟩
        · rw [hstore]
          exact hanswered.tried
        · rw [hstore]
          exact hserved
      · exact applied_of_failed hanswered
    · exact applied_of_served hanswered (by simp)
  | deleteSlice name =>
    have hanswered := settings.answered_ask h (.deleteSlice name)
    unfold apply
    rw [Procedure.run_bind]
    generalize (settings.ask (.deleteSlice name)).run Cluster.world cluster = asked at hanswered ⊢
    obtain ⟨error | deleted, after⟩ := asked
    · dsimp only at hanswered ⊢
      split_ifs with hgone
      · apply applied_of_served hanswered
        intro other hother
        cases hother
        simp [StoreError.IsFault, hgone]
      · exact applied_of_failed hanswered
    · exact applied_of_served hanswered (by simp)
  | setCheck check =>
    have hanswered := settings.answered_ask h (.updateCheck key check)
    unfold apply
    rw [Procedure.run_bind]
    generalize (settings.ask (.updateCheck key check)).run Cluster.world cluster = asked
      at hanswered ⊢
    obtain ⟨error | updated, after⟩ := asked
    · exact applied_of_failed hanswered
    · exact applied_of_served hanswered (by simp)

/-- Writes are carried out one after the other, and those that fail are counted. -/
theorem run_applyAll_cons (cluster : Cluster) (key : String) (write : Write) (rest : List Write) :
    (settings.applyAll key (write :: rest)).run Cluster.world cluster =
      let applied := (settings.apply key write).run Cluster.world cluster
      let ran := (settings.applyAll key rest).run Cluster.world applied.2
      (ran.1 + (if applied.1.isOk then 0 else 1), ran.2) := by
  rw [applyAll, Procedure.run_bind, Procedure.run_bind]
  dsimp only
  generalize (settings.apply key write).run Cluster.world cluster = applied
  obtain ⟨error | done, middle⟩ := applied <;> rfl

/-- A pass carries out some of its writes in order, and all of them if none fails. -/
theorem run_applyAll (h : cluster.outages.IsHonest) (key : String) (writes : List Write) :
    ((settings.applyAll key writes).run Cluster.world cluster).2.outages.IsHonest ∧
      ∃ steps : List (Write × Instant),
        ((settings.applyAll key writes).run Cluster.world cluster).2.store =
            cluster.store.carryAll key steps ∧
          (steps.map Prod.fst).Sublist writes ∧
          (((settings.applyAll key writes).run Cluster.world cluster).1 = 0 →
            steps.map Prod.fst = writes) := by
  induction writes generalizing cluster with
  | nil => exact ⟨h, [], rfl, .slnil, fun _ ↦ rfl⟩
  | cons write rest ih =>
    obtain ⟨houtages, htried, hdone⟩ := settings.applied_apply h key write
    obtain ⟨hafter, steps, hstore, hsublist, hall⟩ := ih houtages
    rw [run_applyAll_cons]
    dsimp only
    have hcarried : ∀ {now : Instant},
        ((settings.apply key write).run Cluster.world cluster).2.store =
            cluster.store.carryOut key (write, now) →
          _ = cluster.store.carryAll key ((write, now) :: steps) :=
      fun hmiddle ↦ hstore.trans (congrArg (·.carryAll key steps) hmiddle)
    cases hresult : ((settings.apply key write).run Cluster.world cluster).1 with
    | ok done =>
      obtain ⟨now, hmiddle⟩ := hdone hresult
      exact ⟨hafter, (write, now) :: steps, hcarried hmiddle, hsublist.cons_cons write,
        fun hnone ↦ congrArg (write :: ·) (hall hnone)⟩
    | error error =>
      rcases htried with hmiddle | ⟨now, hmiddle⟩
      · exact ⟨hafter, steps, hstore.trans (congrArg (·.carryAll key steps) hmiddle),
          hsublist.cons write, fun hnone ↦ absurd hnone (Nat.succ_ne_zero _)⟩
      · exact ⟨hafter, (write, now) :: steps, hcarried hmiddle, hsublist.cons_cons write,
          fun hnone ↦ absurd hnone (Nat.succ_ne_zero _)⟩

/-! ## The pass -/

/-- Reading changes nothing, and what is read is what the store holds. -/
theorem run_readSnapshot (cluster : Cluster) (key : String) :
    ((settings.readSnapshot key).run Cluster.world cluster).2.store = cluster.store ∧
      ∀ snapshot, ((settings.readSnapshot key).run Cluster.world cluster).1 = .ok snapshot →
        snapshot = cluster.store.reading key := by
  have hread {request : StoreRequest} {value answer : request.Answer}
      (hanswer : (Except.ok answer : request.Reply) = .ok value ∨
        ∃ error, (Except.ok answer : request.Reply) = .error error) : answer = value := by
    rcases hanswer with hvalue | ⟨error, herror⟩
    · exact Except.ok.inj hvalue
    · cases herror
  have hworkload := settings.run_ask_of_still cluster (.getWorkload key) fun _ ↦ rfl
  unfold readSnapshot
  rw [Procedure.run_bind]
  generalize (settings.ask (.getWorkload key)).run Cluster.world cluster = asked at hworkload ⊢
  obtain ⟨error | workload, first⟩ := asked
  · exact ⟨hworkload.1, fun _ hok ↦ by cases hok⟩
  obtain ⟨hfirst, hfound⟩ := hworkload
  have hslices := settings.run_ask_of_still first (.listOwnedSlices key) fun _ ↦ rfl
  dsimp only at hfirst hfound hslices ⊢
  rw [Procedure.run_bind]
  generalize (settings.ask (.listOwnedSlices key)).run Cluster.world first = asked at hslices ⊢
  obtain ⟨error | slices, second⟩ := asked
  · exact ⟨hslices.1.trans hfirst, fun _ hok ↦ by cases hok⟩
  obtain ⟨hsecond, howned⟩ := hslices
  have hnodes := settings.run_ask_of_still second .listNodes fun _ ↦ rfl
  dsimp only at hsecond howned hnodes ⊢
  rw [Procedure.run_bind]
  generalize (settings.ask .listNodes).run Cluster.world second = asked at hnodes ⊢
  obtain ⟨error | nodes, third⟩ := asked
  · exact ⟨hnodes.1.trans (hsecond.trans hfirst), fun _ hok ↦ by cases hok⟩
  obtain ⟨hthird, hlisted⟩ := hnodes
  have hstore := calc third.store
      = second.store := hthird
    _ = first.store := hsecond
    _ = cluster.store := hfirst
  refine ⟨hstore, fun snapshot hok ↦ ?_⟩
  cases hok
  rw [hread hfound, hread howned, hread hlisted, hsecond, hfirst]
  rfl

/-- The moment at which a pass over `key` reads the clock, which is once it has read the store. -/
def clockTime (key : String) (cluster : Cluster) : Instant :=
  ((settings.readSnapshot key).run Cluster.world cluster).2.now

/-- What a pass comes to with these writes, of which `failed` have failed. -/
def verdict (key : String) (outcome : Outcome) (failed : Nat) : Except PassError Outcome :=
  if failed = 0 then .ok outcome else .error (.writes key failed outcome.writes.length)

/-- A pass ends with a read that fails, or it reconciles what the store holds and carries out the
writes from there. -/
theorem run_pass_cases (cluster : Cluster) (key : String) :
    (∃ error middle,
        (settings.readSnapshot key).run Cluster.world cluster = (.error error, middle) ∧
        middle.store = cluster.store ∧
        (settings.pass key).run Cluster.world cluster = (.error (.read key error), middle)) ∨
      ∃ middle failed after,
        (settings.readSnapshot key).run Cluster.world cluster =
            (.ok (cluster.store.reading key), middle) ∧
          middle.store = cluster.store ∧
          let outcome := reconcile (cluster.store.reading key)
            (settings.contextAt (settings.clockTime key cluster))
          (settings.applyAll key outcome.writes).run Cluster.world middle = (failed, after) ∧
            (settings.pass key).run Cluster.world cluster =
              (verdict key outcome failed, after) := by
  have hread := settings.run_readSnapshot cluster key
  unfold pass clockTime
  rw [Procedure.run_bind]
  generalize (settings.readSnapshot key).run Cluster.world cluster = ran at hread ⊢
  obtain ⟨error | snapshot, middle⟩ := ran
  · exact .inl ⟨error, middle, rfl, hread.1, rfl⟩
  cases hread.2 snapshot rfl
  refine .inr ⟨middle, _, _, rfl, hread.1, rfl, ?_⟩
  have htime : Procedure.time.run Cluster.world middle = (middle.now, middle) := rfl
  dsimp only
  rw [Procedure.run_bind, htime]
  dsimp only
  rw [Procedure.run_bind]
  unfold verdict
  split_ifs <;> rfl

/-- A pass carries out some of the writes that reconciling asks for, each at some moment. A pass
that succeeds has carried out all of them. -/
theorem run_pass (h : cluster.outages.IsHonest) (key : String) :
    ((settings.pass key).run Cluster.world cluster).2.outages.IsHonest ∧
      ∃ (now : Instant) (steps : List (Write × Instant)),
        ((settings.pass key).run Cluster.world cluster).2.store =
            cluster.store.carryAll key steps ∧
          (steps.map Prod.fst).Sublist
            (reconcile (cluster.store.reading key) (settings.contextAt now)).writes ∧
          ∀ outcome, ((settings.pass key).run Cluster.world cluster).1 = .ok outcome →
            outcome = reconcile (cluster.store.reading key) (settings.contextAt now) ∧
              steps.map Prod.fst = outcome.writes := by
  refine ⟨isHonest_run h _, settings.clockTime key cluster, ?_⟩
  rcases settings.run_pass_cases cluster key with
    ⟨error, middle, -, hstore, hpass⟩ | ⟨middle, failed, after, hread, hstore, happlied, hpass⟩
  · rw [hpass]
    exact ⟨[], hstore, List.nil_sublist _, fun _ hok ↦ by cases hok⟩
  have houtages := isHonest_run h (settings.readSnapshot key)
  rw [hread] at houtages
  have happly := settings.run_applyAll houtages key
    (reconcile (cluster.store.reading key)
      (settings.contextAt (settings.clockTime key cluster))).writes
  rw [happlied] at happly
  obtain ⟨-, steps, hsteps, hsublist, hall⟩ := happly
  rw [hpass]
  refine ⟨steps, hstore ▸ hsteps, hsublist, fun outcome hok ↦ ?_⟩
  dsimp only [verdict] at hok
  split_ifs at hok with hnone
  cases hok
  exact ⟨rfl, hall hnone⟩

end PassSettings

end SliceControl
