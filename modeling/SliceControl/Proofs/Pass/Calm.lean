import SliceControl.Proofs.Pass.Run

/-!
# Passes without faults

The store itself does not fail transiently, so where no faults are planned no call is repeated. A
pass then ends before it has to wait, and so does the listing of all keys: the clock does not move
meanwhile.
-/

namespace SliceControl

/-- The store itself does not fail transiently. -/
theorem Store.isTransient_eq_false_of_serve {store : Store} {now : Instant}
    {request : StoreRequest} {error : StoreError}
    (h : (store.serve now request).result = .error error) : error.isTransient = false := by
  cases request with
  | createSlice slice =>
    simp only [serve, insertSlice, refuse] at h
    split_ifs at h
    cases h
    rfl
  | deleteSlice name =>
    cases hslice : store.slice? name with
    | none =>
      simp only [serve, removeSlice_of_none hslice, refuse] at h
      cases h
      rfl
    | some slice =>
      simp only [serve, removeSlice_of_some hslice] at h
      cases h
  | updateCheck key check =>
    simp only [serve, updateCheck, refuse] at h
    split at h
    · cases h
      rfl
    · split at h <;> cases h
      rfl
  | _ => cases h

namespace Cluster

variable {cluster : Cluster}

/-- Without an outage a request is made just once. -/
theorem runUntilSleep_attemptFrom_of_none (policy : RetryPolicy) {request : StoreRequest}
    (h : (cluster.outages.take request.method).1 = none) (spare attempt : Nat) :
    (attemptFrom policy request spare attempt).runUntilSleep world cluster =
      (.finished (cluster.serve request).1, (cluster.serve request).2) := by
  have hreply := (serve_of_none h).1
  have hcall {next : request.Reply → StoreProcedure request.Reply} :
      (Procedure.call request next).runUntilSleep world cluster =
        (next (cluster.serve request).1).runUntilSleep world (cluster.serve request).2 := rfl
  cases spare with
  | zero => rfl
  | succ spare =>
    rw [attemptFrom, hcall]
    cases hanswer : (cluster.serve request).1 with
    | ok answer => rfl
    | error error =>
      have hlasting := Store.isTransient_eq_false_of_serve (hreply.symm.trans hanswer)
      dsimp only
      rw [if_neg (Bool.eq_false_iff.mp hlasting)]
      rfl

end Cluster

namespace PassSettings

variable {α β : Type} (settings : PassSettings)

/-- Without faults the procedure ends before it waits. -/
def EndsAtOnce (procedure : StoreProcedure α) : Prop :=
  ∀ cluster : Cluster, cluster.outages = .empty → ∃ result after,
    procedure.runUntilSleep Cluster.world cluster = (.finished result, after) ∧
      after.outages = .empty ∧ after.now = cluster.now ∧ after.elapsed = cluster.elapsed

theorem endsAtOnce_done (result : α) : EndsAtOnce (.done result) :=
  fun cluster h ↦ ⟨result, cluster, rfl, h, rfl, rfl⟩

theorem endsAtOnce_bind {procedure : StoreProcedure α} {next : α → StoreProcedure β}
    (hfirst : EndsAtOnce procedure) (hnext : ∀ result, EndsAtOnce (next result)) :
    EndsAtOnce (procedure >>= next) := by
  intro cluster h
  obtain ⟨result, middle, hran, houtages, hnow, helapsed⟩ := hfirst cluster h
  obtain ⟨last, after, hlast, hlater, hstill, hsame⟩ := hnext result middle houtages
  refine ⟨last, after, ?_, hlater, hstill.trans hnow, hsame.trans helapsed⟩
  rw [Procedure.runUntilSleep_bind next hran, hlast]

theorem endsAtOnce_ask (request : StoreRequest) : EndsAtOnce (settings.ask request) := by
  intro cluster h
  have hnone : cluster.outages.take request.method = (none, .empty) := by rw [h]; rfl
  have hserve : (cluster.serve request).2.now = cluster.now ∧
      (cluster.serve request).2.elapsed = cluster.elapsed := by
    unfold Cluster.serve
    rw [hnone]
    exact ⟨rfl, rfl⟩
  have hran := Cluster.runUntilSleep_attemptFrom_of_none settings.retry
    (congrArg Prod.fst hnone) (settings.retry.attempts - 1) 1
  refine ⟨_, _, hran, ?_, hserve⟩
  rw [Cluster.outages_serve, hnone]

theorem endsAtOnce_readSnapshot (key : String) : EndsAtOnce (settings.readSnapshot key) := by
  apply endsAtOnce_bind (settings.endsAtOnce_ask _)
  rintro (error | workload)
  · exact endsAtOnce_done _
  apply endsAtOnce_bind (settings.endsAtOnce_ask _)
  rintro (error | slices)
  · exact endsAtOnce_done _
  apply endsAtOnce_bind (settings.endsAtOnce_ask _)
  rintro (error | nodes)
  · exact endsAtOnce_done _
  · exact endsAtOnce_done _

/-- Without faults the clock still says at the end of reading what it said before. -/
theorem clockTime_of_empty {cluster : Cluster} (h : cluster.outages = .empty) (key : String) :
    settings.clockTime key cluster = cluster.now := by
  obtain ⟨result, after, hran, -, hnow, -⟩ := settings.endsAtOnce_readSnapshot key cluster h
  rw [clockTime, Procedure.run_of_runUntilSleep hran]
  exact hnow

theorem endsAtOnce_confirmOwner (key name : String) :
    EndsAtOnce (settings.confirmOwner key name) := by
  apply endsAtOnce_bind (settings.endsAtOnce_ask _)
  rintro (error | (_ | slice))
  · exact endsAtOnce_done _
  · exact endsAtOnce_done _
  · dsimp only
    split
    · split_ifs <;> exact endsAtOnce_done _
    · exact endsAtOnce_done _

theorem endsAtOnce_apply (key : String) (write : Write) :
    EndsAtOnce (settings.apply key write) := by
  cases write with
  | createSlice slice =>
    apply endsAtOnce_bind (settings.endsAtOnce_ask _)
    rintro (error | created)
    · dsimp only
      split_ifs
      · exact settings.endsAtOnce_confirmOwner key slice.name
      · exact endsAtOnce_done _
    · exact endsAtOnce_done _
  | deleteSlice name =>
    apply endsAtOnce_bind (settings.endsAtOnce_ask _)
    rintro (error | deleted)
    · dsimp only
      split_ifs <;> exact endsAtOnce_done _
    · exact endsAtOnce_done _
  | setCheck check =>
    apply endsAtOnce_bind (settings.endsAtOnce_ask _)
    rintro (error | updated) <;> exact endsAtOnce_done _

theorem endsAtOnce_applyAll (key : String) (writes : List Write) :
    EndsAtOnce (settings.applyAll key writes) := by
  induction writes with
  | nil => exact endsAtOnce_done 0
  | cons write rest ih =>
    apply endsAtOnce_bind (settings.endsAtOnce_apply key write)
    intro result
    apply endsAtOnce_bind ih
    intro failed
    cases result <;> exact endsAtOnce_done _

theorem endsAtOnce_pass (key : String) : EndsAtOnce (settings.pass key) := by
  apply endsAtOnce_bind (settings.endsAtOnce_readSnapshot key)
  rintro (error | snapshot)
  · exact endsAtOnce_done _
  have htime : EndsAtOnce Procedure.time :=
    fun cluster h ↦ ⟨cluster.now, cluster, rfl, h, rfl, rfl⟩
  apply endsAtOnce_bind htime
  intro now
  apply endsAtOnce_bind (settings.endsAtOnce_applyAll key _)
  intro failed
  split_ifs <;> exact endsAtOnce_done _

end PassSettings

end SliceControl
