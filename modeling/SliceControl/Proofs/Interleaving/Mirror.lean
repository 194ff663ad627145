import Mathlib.Data.List.Perm.Basic
import SliceControl.Proofs.Interleaving.Resync
import SliceControl.Proofs.Pass.Calm
import SliceControl.Proofs.WorkQueue.Phases

/-!
# The control loop as a system

While no calls fail, whatever the control loop does amounts to events of the system, so what is
shown of the runs of the system holds of the control loop. Workers that ask for a key are free until
they have been handed one, a pass together with what follows it happens at one moment, and so does a
listing. Only the order in which delayed adds have been entered is not kept: those that fall due
together leave the agenda together.
-/

namespace SliceControl

/-! ## Stages of workers -/

/-- Where a worker is in its round when it has come so far in asking for a key. -/
def CallerPhase.stage : CallerPhase → WorkerStage
  | looking | parking | parked => .free
  | signalling key | served key => .working key

namespace Dispatch

/-- Workers are where their asking for keys has got them, and those that do not ask are free. -/
structure Stages (dispatch : Dispatch) (workers : Nat → WorkerStage) : Prop where
  asking : ∀ worker phase, (worker, phase) ∈ dispatch.callers → workers worker = phase.stage
  free : ∀ worker, worker ∉ dispatch.callers.map Prod.fst → workers worker = .free

namespace Stages

variable {dispatch next : Dispatch} {workers : Nat → WorkerStage} {caller : Nat}
  {phase other : CallerPhase}

theorem setPhase (h : dispatch.Stages workers) (hnodup : (dispatch.callers.map Prod.fst).Nodup)
    (hcaller : (caller, phase) ∈ dispatch.callers) {changed : Dispatch}
    (hcallers : changed.callers = dispatch.callers) (other : CallerPhase) :
    (changed.setPhase caller other).Stages (Function.update workers caller other.stage) where
  asking := by
    intro worker reached hworker
    rw [← hcallers] at hnodup hcaller
    rcases (mem_callers_setPhase_iff hnodup hcaller).mp hworker with hsame | ⟨hbefore, hne⟩
    · cases hsame
      exact Function.update_self _ _ _
    · rw [Function.update_of_ne hne]
      exact h.asking worker reached (hcallers ▸ hbefore)
  free := by
    intro worker hworker
    rw [map_fst_callers_setPhase, hcallers] at hworker
    have hne : worker ≠ caller := by
      rintro rfl
      exact hworker (List.mem_map_of_mem hcaller)
    rw [Function.update_of_ne hne]
    exact h.free worker hworker

/-- A caller that goes on within a stage. -/
theorem setPhase_same (h : dispatch.Stages workers)
    (hnodup : (dispatch.callers.map Prod.fst).Nodup)
    (hcaller : (caller, phase) ∈ dispatch.callers) {changed : Dispatch}
    (hcallers : changed.callers = dispatch.callers) (hstage : other.stage = phase.stage) :
    (changed.setPhase caller other).Stages workers := by
  have hset := h.setPhase hnodup hcaller hcallers other
  rwa [hstage, ← h.asking caller phase hcaller, Function.update_eq_self] at hset

theorem signal (h : dispatch.Stages workers) (hconsistent : dispatch.Consistent) :
    dispatch.signal.Stages workers := by
  rcases hconsistent.signal_cases with ⟨-, hsignal⟩ | ⟨woken, rest, -, hwoken, hsignal⟩
  · rw [hsignal]
    exact ⟨h.asking, h.free⟩
  · rw [hsignal]
    exact h.setPhase_same hconsistent.nodup hwoken rfl rfl

theorem leave (h : dispatch.Stages workers) (caller : Nat) :
    (dispatch.leave caller).Stages (Function.update workers caller .free) where
  asking := by
    intro worker reached hworker
    obtain ⟨hbefore, hne⟩ := List.mem_filter.mp hworker
    rw [Function.update_of_ne (of_decide_eq_true hne)]
    exact h.asking worker reached hbefore
  free := by
    intro worker hworker
    by_cases hsame : worker = caller
    · rw [hsame, Function.update_self]
    · rw [Function.update_of_ne hsame]
      refine h.free worker fun hbefore ↦ hworker ?_
      obtain ⟨entry, hentry, rfl⟩ := List.mem_map.mp hbefore
      exact List.mem_map_of_mem (List.mem_filter.mpr ⟨hentry, decide_eq_true hsame⟩)

/-- A worker that is free may ask for a key. -/
theorem arrive (h : dispatch.Stages workers) (hfree : workers caller = .free) :
    (dispatch.arrive caller).Stages workers where
  asking := by
    intro worker reached hworker
    rcases List.mem_append.mp hworker with hbefore | hnew
    · exact h.asking worker reached hbefore
    · cases List.mem_singleton.mp hnew
      exact hfree
  free := by
    intro worker hworker
    refine h.free worker fun hbefore ↦ hworker ?_
    rw [Dispatch.arrive, List.map_append]
    exact List.mem_append_left _ hbefore

/-- Whatever goes on while workers ask for keys, one of them takes a key, or neither the queue nor
any stage changes. -/
theorem progress (h : dispatch.Stages workers) (hconsistent : dispatch.Consistent)
    (hprogress : dispatch.Progress next) :
    (next.queue = dispatch.queue ∧ next.Stages workers) ∨
      ∃ worker key more, workers worker = .free ∧
        dispatch.queue.next? = some (key, next.queue, more) ∧
          next.Stages (Function.update workers worker (.working key)) := by
  cases hprogress with
  | sent owed howed hnext =>
    have howes : { dispatch with owed }.Stages workers := ⟨h.asking, h.free⟩
    rw [hnext]
    exact .inl ⟨queue_signal _, howes.signal (hconsistent.withOwed owed)⟩
  | handed caller key queue more hcaller hfound hnext =>
    have hstage : (if more then CallerPhase.signalling key else .served key).stage =
        .working key := by
      split_ifs <;> rfl
    have hcallers : { dispatch with queue }.callers = dispatch.callers := rfl
    have hset := h.setPhase hconsistent.nodup hcaller hcallers
      (if more then .signalling key else .served key)
    rw [hstage, ← hnext] at hset
    have hqueue : next.queue = queue := by rw [hnext, queue_setPhase]
    exact .inr ⟨caller, key, more, h.asking caller .looking hcaller, hqueue ▸ hfound, hset⟩
  | foundNone caller hcaller hempty hnext =>
    rw [hnext]
    exact .inl ⟨rfl, h.setPhase_same hconsistent.nodup hcaller rfl rfl⟩
  | resumed caller hcaller hpermit hnext =>
    rw [hnext]
    exact .inl ⟨rfl, h.setPhase_same hconsistent.nodup hcaller rfl rfl⟩
  | parked caller hcaller hpermit hnext =>
    rw [hnext]
    exact .inl ⟨rfl, h.setPhase_same hconsistent.nodup hcaller rfl rfl⟩
  | passedOn caller key hcaller hnext =>
    have hstill := hconsistent.mem_callers_signal hcaller (by simp)
    rw [hnext]
    exact .inl ⟨queue_signal _,
      (h.signal hconsistent).setPhase_same hconsistent.signal.nodup hstill rfl rfl⟩

end Stages

end Dispatch

/-! ## Runs without losses -/

/-- The system gets from one place to another, and no key is lost other than on a full channel. -/
def System.Leads (settings : PassSettings) (system after : System) : Prop :=
  ∃ events : List LossyEvent, (∀ index, .lose index ∉ events) ∧
    events.foldl (System.actLossy settings) system = after

namespace System.Leads

variable {settings : PassSettings} {system middle after : System}

theorem refl (settings : PassSettings) (system : System) : system.Leads settings system :=
  ⟨[], by simp, rfl⟩

theorem trans (hfirst : system.Leads settings middle) (hnext : middle.Leads settings after) :
    system.Leads settings after := by
  obtain ⟨before, hbefore, rfl⟩ := hfirst
  obtain ⟨events, hevents, rfl⟩ := hnext
  refine ⟨before ++ events, fun index hmem ↦ ?_, List.foldl_append⟩
  exact (List.mem_append.mp hmem).elim (hbefore index) (hevents index)

theorem event (settings : PassSettings) (system : System) (event : Event) :
    system.Leads settings (system.act settings event) :=
  ⟨[.event event], by simp, rfl⟩

theorem lag (settings : PassSettings) (system : System) :
    system.Leads settings (system.lag settings .empty) :=
  ⟨[.lag .none], by simp, rfl⟩

theorem tick (settings : PassSettings) (system : System) :
    system.Leads settings (system.resync settings .empty) :=
  ⟨[.tick .none], by simp, rfl⟩

end System.Leads

/-! ## After a pass -/

/-- The system with what follows a pass arranged. -/
def System.arranged (settings : PassSettings) (system : System) (key : String)
    (result : Except PassError Outcome) : System :=
  { system with
    queue := (settings.followUp system.queue key result).1
    delayed := match (settings.followUp system.queue key result).2 with
      | some millis => system.delayed.schedule (system.cluster.elapsed + millis) key
      | none => system.delayed }

/-- A worker that has made a pass arranges what follows and ends its work. -/
theorem System.finish_record (settings : PassSettings) (system : System) (worker : Nat)
    (key : String) (result : Except PassError Outcome) :
    ((system.setWorker worker (.passed key result)).record settings worker).finish worker =
      { (system.setWorker worker .free).arranged settings key result with
        queue := (((system.setWorker worker .free).arranged settings key result).queue.done
          key).1 } := by
  cases hlater : (settings.followUp system.queue key result).2 <;>
    simp only [finish, record, arranged, setWorker, hlater, Function.update_self,
      Function.update_idem]

/-! ## The control loop at a moment -/

/-- The key that an alarm adds. -/
def Alarm.add? : Nat × Alarm → Option (Nat × String)
  | (due, .add key) => some (due, key)
  | _ => none

/-- Neither a pass nor a listing has been waiting. -/
def Alarm.IsCalm : Alarm → Prop
  | .add _ | .tick => True
  | .work .. | .list .. => False

namespace ControlLoop

variable {settings : PassSettings} {pending : List (Nat × String)} {loop next : ControlLoop}
  {system : System}

/-- No calls are to fail, and the control loop and the system agree, where `pending` are adds that
have been taken off the agenda and not been made yet. -/
structure Mirrors (settings : PassSettings) (pending : List (Nat × String)) (loop : ControlLoop)
    (system : System) : Prop where
  settings : loop.settings = settings
  outages : loop.cluster.outages = .empty
  alarms : ∀ entry ∈ loop.agenda.entries, entry.2.IsCalm
  dispatch : loop.dispatch.Consistent
  cluster : system.cluster = loop.cluster
  queue : system.queue = loop.dispatch.queue
  workers : loop.dispatch.Stages system.workers
  delayed : system.delayed.entries.Perm (pending ++ loop.agenda.entries.filterMap Alarm.add?)

/-- The control loop is where the system can get. -/
def Reached (settings : PassSettings) (pending : List (Nat × String)) (loop : ControlLoop)
    (system : System) : Prop :=
  ∃ after, system.Leads settings after ∧ Mirrors settings pending loop after

theorem Reached.andThen {later : List (Nat × String)} (h : Reached settings pending loop system)
    (hnext : ∀ after, Mirrors settings pending loop after → Reached settings later next after) :
    Reached settings later next system := by
  obtain ⟨middle, hfirst, hmiddle⟩ := h
  obtain ⟨after, hlast, hafter⟩ := hnext middle hmiddle
  exact ⟨after, hfirst.trans hlast, hafter⟩

namespace Mirrors

theorem reached (h : Mirrors settings pending loop system) :
    Reached settings pending loop system :=
  ⟨system, .refl settings system, h⟩

theorem addKey (h : Mirrors settings pending loop system) (key : String) :
    Mirrors settings pending (loop.addKey key) (system.addKey key) where
  settings := h.settings
  outages := h.outages
  alarms := h.alarms
  dispatch := h.dispatch.step (.changed _ (h.dispatch.queue.add key)
    (h.dispatch.queue.extends_add key) rfl)
  cluster := h.cluster
  queue := congrArg (fun queue ↦ (queue.add key).1) h.queue
  workers := ⟨h.workers.asking, h.workers.free⟩
  delayed := h.delayed

theorem withCluster (h : Mirrors settings pending loop system) {cluster : Cluster}
    (houtages : cluster.outages = .empty) :
    Mirrors settings pending { loop with cluster } { system with cluster } :=
  ⟨h.settings, houtages, h.alarms, h.dispatch, rfl, h.queue, h.workers, h.delayed⟩

theorem moveClock (h : Mirrors settings pending loop system) (time : Nat) :
    Reached settings pending (loop.moveClock time) system := by
  refine ⟨_, .event settings system
    (.wait (time - loop.cluster.elapsed) (loop.moveClock time).cluster.now), ?_⟩
  refine ⟨h.settings, h.outages, h.alarms, h.dispatch, ?_, h.queue, h.workers, h.delayed⟩
  rw [System.act, System.wait, h.cluster]
  rfl

theorem schedule (h : Mirrors settings pending loop system) (due : Nat) (key : String) :
    Mirrors settings pending { loop with agenda := loop.agenda.schedule due (.add key) }
      { system with delayed := system.delayed.schedule due key } where
  settings := h.settings
  outages := h.outages
  alarms := by
    intro entry hentry
    rcases List.mem_append.mp hentry with hbefore | hnew
    · exact h.alarms entry hbefore
    · cases List.mem_singleton.mp hnew
      trivial
  dispatch := h.dispatch
  cluster := h.cluster
  queue := h.queue
  workers := h.workers
  delayed := by
    simp only [Agenda.schedule, List.filterMap_append, ← List.append_assoc]
    exact h.delayed.append_right _

/-! ## Listings -/

theorem scheduleTick (h : Mirrors settings pending loop system) (due : Nat) :
    Mirrors settings pending { loop with agenda := loop.agenda.schedule due .tick } system where
  settings := h.settings
  outages := h.outages
  alarms := by
    intro entry hentry
    rcases List.mem_append.mp hentry with hbefore | hnew
    · exact h.alarms entry hbefore
    · cases List.mem_singleton.mp hnew
      trivial
  dispatch := h.dispatch
  cluster := h.cluster
  queue := h.queue
  workers := h.workers
  delayed := by
    have hnone : [(due, Alarm.tick)].filterMap Alarm.add? = [] := rfl
    simpa [Agenda.schedule, List.filterMap_append, hnone] using h.delayed

theorem addAll (h : Mirrors settings pending loop system) (keys : List String) :
    Mirrors settings pending (keys.foldl ControlLoop.addKey loop)
      { system with queue := system.queue.addAll keys } := by
  induction keys generalizing loop system with
  | nil => exact h
  | cons key rest ih => exact ih (h.addKey key)

/-- Whoever has listed the keys goes on, which concerns neither the cluster nor the queue. -/
theorem finishList (h : Mirrors settings pending loop system) (lister : Lister)
    (result : Except StoreError (List String)) :
    Mirrors settings pending (loop.finishList lister result)
      (match result with
        | .ok keys => { system with queue := system.queue.addAll keys }
        | .error _ => system) := by
  have hadded : Mirrors settings pending
      (match result with
        | .ok keys => keys.foldl ControlLoop.addKey loop
        | .error _ => loop)
      (match result with
        | .ok keys => { system with queue := system.queue.addAll keys }
        | .error _ => system) := by
    cases result with
    | ok keys => exact h.addAll keys
    | error error => exact h
  cases lister with
  | forwarder =>
    exact ⟨hadded.settings, hadded.outages, hadded.alarms, hadded.dispatch, hadded.cluster,
      hadded.queue, hadded.workers, hadded.delayed⟩
  | ticker next => exact hadded.scheduleTick next

theorem list (h : Mirrors settings pending loop system) (lister : Lister) :
    Mirrors settings pending (loop.list lister loop.settings.listKeys)
        (system.resync settings .empty) ∧
      (loop.list lister loop.settings.listKeys).cluster.elapsed = loop.cluster.elapsed := by
  obtain ⟨result, cluster, hlisted, houtages, -, helapsed⟩ :=
    settings.endsAtOnce_ask .listWorkloadKeys loop.cluster h.outages
  have hran : loop.settings.listKeys.runUntilSleep Cluster.world loop.cluster =
      (.finished result, cluster) := by
    rw [h.settings]
    exact hlisted
  have hplanned : { loop.cluster with outages := .empty } = loop.cluster := by
    rw [← h.outages]
  have hlisting : system.listing settings .empty = (result, cluster) := by
    rw [System.listing, h.cluster, hplanned]
    exact Procedure.run_of_runUntilSleep hlisted
  have hdone := (h.withCluster houtages).finishList lister result
  have hstill : (({ loop with cluster }).finishList lister result).cluster = cluster := by
    rw [← hdone.cluster]
    cases result <;> rfl
  unfold ControlLoop.list System.resync
  rw [hran, hlisting]
  refine ⟨?_, ?_⟩
  · cases result <;> exact hdone
  · dsimp only
    rw [hstill, helapsed]

/-! ## Keys from the channel -/

/-- Whatever comes off the channel is dealt with. -/
theorem receive (h : Mirrors settings pending loop system) {received : EventChannel.Received}
    (hreceived : loop.received? = some (received, next)) :
    Reached settings pending (next.forward received) system := by
  unfold received? at hreceived
  split_ifs at hreceived
  obtain ⟨⟨_, channel⟩, hreceive, hnext⟩ := Option.map_eq_some_iff.mp hreceived
  cases hnext
  have houtages : { loop.cluster with channel := some channel }.outages = .empty := h.outages
  have hrest := h.withCluster houtages
  rw [← h.cluster] at hreceive
  cases received with
  | key key =>
    have hdeliver : system.act settings .deliver =
        { system with cluster := { loop.cluster with channel := some channel } }.addKey key := by
      rw [System.act, System.deliver, hreceive, h.cluster]
    exact ⟨_, .event settings system .deliver, hdeliver ▸ hrest.addKey key⟩
  | lagged missed =>
    have hlag : system.lag settings .empty =
        { system with cluster := { loop.cluster with channel := some channel } }.resync settings
          .empty := by
      rw [System.lag, hreceive, h.cluster]
    have hwaiting : Mirrors settings pending
        { loop with
          cluster := { loop.cluster with channel := some channel }, forwarding := false }
        { system with cluster := { loop.cluster with channel := some channel } } :=
      ⟨hrest.settings, hrest.outages, hrest.alarms, hrest.dispatch, hrest.cluster, hrest.queue,
        hrest.workers, hrest.delayed⟩
    exact ⟨_, .lag settings system, hlag ▸ (hwaiting.list .forwarder).1⟩

/-! ## Workers -/

theorem leave (h : Mirrors settings pending loop system) (worker : Nat) :
    Mirrors settings pending { loop with dispatch := loop.dispatch.leave worker }
      (system.setWorker worker .free) :=
  ⟨h.settings, h.outages, h.alarms, h.dispatch.leave worker, h.cluster, h.queue,
    h.workers.leave worker, h.delayed⟩

theorem withQueue (h : Mirrors settings pending loop system) {queue : WorkQueue}
    (hqueue : queue.Consistent) :
    Mirrors settings pending { loop with dispatch := { loop.dispatch with queue } }
      { system with queue } :=
  ⟨h.settings, h.outages, h.alarms, ⟨hqueue, h.dispatch.nodup, h.dispatch.nodup_parked,
    h.dispatch.mem_parked_iff, h.dispatch.parked_of_permit⟩, h.cluster, rfl,
    ⟨h.workers.asking, h.workers.free⟩, h.delayed⟩

theorem callers_recordResult (loop : ControlLoop) (key : String)
    (result : Except PassError Outcome) :
    (loop.recordResult key result).dispatch.callers = loop.dispatch.callers := by
  unfold ControlLoop.recordResult
  dsimp only
  split <;> rfl

/-- What the system arranges after a pass. -/
theorem recordResult (h : Mirrors settings pending loop system) (key : String)
    (result : Except PassError Outcome) :
    Mirrors settings pending (loop.recordResult key result)
      (system.arranged settings key result) := by
  obtain ⟨cluster, queue, delayed, workers⟩ := system
  obtain rfl : loop.settings = settings := h.settings
  obtain rfl : cluster = loop.cluster := h.cluster
  obtain rfl : queue = loop.dispatch.queue := h.queue
  have hfollow : (loop.settings.followUp loop.dispatch.queue key result).1.Consistent := by
    cases result with
    | ok outcome => exact h.dispatch.queue.forget key
    | error error => exact h.dispatch.queue.recordFailure key
  have hqueue := h.withQueue hfollow
  unfold ControlLoop.recordResult System.arranged
  dsimp only
  cases (loop.settings.followUp loop.dispatch.queue key result).2 with
  | none => exact hqueue
  | some millis => exact hqueue.schedule _ key

theorem done (h : Mirrors settings pending loop system) (key : String) :
    Mirrors settings pending { loop with dispatch := loop.dispatch.done key }
      { system with queue := (system.queue.done key).1 } where
  settings := h.settings
  outages := h.outages
  alarms := h.alarms
  dispatch := h.dispatch.step (.changed _ (h.dispatch.queue.done key)
    (h.dispatch.queue.extends_done key) rfl)
  cluster := h.cluster
  queue := congrArg (fun queue ↦ (queue.done key).1) h.queue
  workers := ⟨h.workers.asking, h.workers.free⟩
  delayed := h.delayed

theorem arrive (h : Mirrors settings pending loop system) {worker : Nat}
    (hfresh : worker ∉ loop.dispatch.callers.map Prod.fst) :
    Mirrors settings pending { loop with dispatch := loop.dispatch.arrive worker } system :=
  ⟨h.settings, h.outages, h.alarms, h.dispatch.arrive hfresh, h.cluster, h.queue,
    h.workers.arrive (h.workers.free worker hfresh), h.delayed⟩

/-- A worker that has been handed a key makes a pass, arranges what follows, and asks for the next
key. -/
theorem work {worker : Nat} {key : String} (h : Mirrors settings pending loop system)
    (hserved : (worker, .served key) ∈ loop.dispatch.callers) :
    Reached settings pending
      ({ loop with dispatch := loop.dispatch.leave worker }.work worker key
        (loop.settings.pass key)) system := by
  obtain rfl : loop.settings = settings := h.settings
  obtain ⟨result, cluster, hran, houtages, -, -⟩ :=
    loop.settings.endsAtOnce_pass key loop.cluster h.outages
  have hstage : system.workers worker = .working key :=
    h.workers.asking worker (.served key) hserved
  have hplanned : { loop.cluster with outages := .empty } = loop.cluster := by
    rw [← h.outages]
  have hpass : system.act loop.settings (.pass worker .none) =
      { system with cluster }.setWorker worker (.passed key result) := by
    have hrun := Procedure.run_of_runUntilSleep hran
    show system.pass loop.settings worker .empty = _
    rw [System.pass, hstage, h.cluster, hplanned]
    dsimp only
    rw [hrun]
  have hleads := (System.Leads.event loop.settings system (.pass worker .none)).trans
    ((System.Leads.event _ _ (.record worker)).trans (System.Leads.event _ _ (.finish worker)))
  have hended := (((h.withCluster houtages).leave worker).recordResult key result).done key
  have hgone : worker ∉ (loop.dispatch.leave worker).callers.map Prod.fst := by
    simp [Dispatch.leave]
  refine ⟨_, hleads, ?_⟩
  rw [hpass, System.act, System.act, System.finish_record]
  unfold ControlLoop.work
  rw [hran]
  refine hended.arrive ?_
  rw [show (Dispatch.done _ key).callers = _ from callers_recordResult _ key result]
  exact hgone

/-! ## Running to rest -/

theorem step (h : Mirrors settings pending loop system) (hstep : loop.step? = some next) :
    Reached settings pending next system := by
  unfold step? at hstep
  split at hstep
  case h_1 worker key hserved =>
    cases hstep
    obtain ⟨⟨_, phase⟩, hcaller, hphase⟩ := List.exists_of_findSome?_eq_some hserved
    cases phase with
    | served other =>
      cases hphase
      exact h.work hcaller
    | _ => cases hphase
  case h_2 =>
    split at hstep
    case h_1 received rest hreceived =>
      cases hstep
      exact h.receive hreceived
    case h_2 =>
      obtain ⟨dispatch, hdispatch, hnext⟩ := Option.map_eq_some_iff.mp hstep
      cases hnext
      have hprogress := Dispatch.progress_of_step? hdispatch
      have hconsistent := h.dispatch.progress hprogress
      rcases h.workers.progress h.dispatch hprogress with
        ⟨hqueue, hworkers⟩ | ⟨worker, key, more, hfree, hfound, hworkers⟩
      · exact ⟨system, .refl settings system, h.settings, h.outages, h.alarms, hconsistent,
          h.cluster, h.queue.trans hqueue.symm, hworkers, h.delayed⟩
      · have htake : system.act settings (.take worker) =
            { system with queue := dispatch.queue }.setWorker worker (.working key) := by
          rw [System.act, System.take, hfree, h.queue, hfound]
        exact ⟨_, .event settings system (.take worker), h.settings, h.outages, h.alarms,
          hconsistent, htake ▸ h.cluster, htake ▸ rfl, htake ▸ hworkers, htake ▸ h.delayed⟩

theorem runSteps (h : Mirrors settings pending loop system) (fuel : Nat) :
    Reached settings pending (ControlLoop.runSteps fuel loop) system := by
  induction fuel generalizing loop system with
  | zero => exact h.reached
  | succ fuel ih =>
    unfold ControlLoop.runSteps
    split
    case h_1 next hstep => exact (h.step hstep).andThen fun _ hnext ↦ ih hnext
    case h_2 => exact h.reached

/-! ## Alarms -/

/-- An alarm that has been taken off the agenda rings, and the time is the same. -/
theorem ring {due : Nat} {alarm : Alarm} (hcalm : alarm.IsCalm) (hdue : due ≤ loop.cluster.elapsed)
    (h : Mirrors settings ((Alarm.add? (due, alarm)).toList ++ pending) loop system) :
    Reached settings pending (ControlLoop.ring due loop alarm) system ∧
      (ControlLoop.ring due loop alarm).cluster.elapsed = loop.cluster.elapsed := by
  cases alarm with
  | add key =>
    have hmem : (due, key) ∈ system.delayed.entries := h.delayed.mem_iff.mpr List.mem_cons_self
    obtain ⟨index, hindex, hentry⟩ := List.mem_iff_getElem.mp hmem
    have hfire : system.act settings (.fire index) =
        { system with delayed := ⟨system.delayed.entries.eraseIdx index⟩ }.addKey key := by
      rw [System.act, System.fire, List.getElem?_eq_getElem hindex, hentry]
      dsimp only
      rw [h.cluster, if_pos hdue]
    have hleft := List.getElem_cons_eraseIdx_perm hindex
    rw [hentry] at hleft
    have hrest : Mirrors settings pending loop
        { system with delayed := ⟨system.delayed.entries.eraseIdx index⟩ } :=
      ⟨h.settings, h.outages, h.alarms, h.dispatch, h.cluster, h.queue, h.workers,
        (hleft.trans h.delayed).cons_inv⟩
    exact ⟨⟨_, .event settings system (.fire index), hfire ▸ hrest.addKey key⟩, rfl⟩
  | tick =>
    obtain ⟨hlisted, helapsed⟩ := h.list (.ticker (due + loop.interval))
    exact ⟨⟨_, .tick settings system, hlisted⟩, helapsed⟩
  | work worker key rest => exact hcalm.elim
  | list lister rest => exact hcalm.elim

theorem ringAll {due : Nat} {alarms : List Alarm} (hcalm : ∀ alarm ∈ alarms, alarm.IsCalm)
    (hdue : due ≤ loop.cluster.elapsed)
    (h : Mirrors settings (alarms.filterMap fun alarm ↦ Alarm.add? (due, alarm)) loop system) :
    Reached settings [] (alarms.foldl (ControlLoop.ring due) loop) system := by
  induction alarms generalizing loop system with
  | nil => exact h.reached
  | cons alarm rest ih =>
    have hfirst : Mirrors settings ((Alarm.add? (due, alarm)).toList ++
        rest.filterMap fun alarm ↦ Alarm.add? (due, alarm)) loop system := by
      cases hadd : Alarm.add? (due, alarm) <;> simpa [List.filterMap_cons, hadd] using h
    obtain ⟨hrung, helapsed⟩ := ring (hcalm alarm List.mem_cons_self) hdue hfirst
    have hrest : ∀ other ∈ rest, other.IsCalm :=
      fun other hmem ↦ hcalm other (List.mem_cons_of_mem _ hmem)
    exact hrung.andThen fun after hafter ↦ ih hrest (helapsed ▸ hdue) hafter

theorem fire (h : Mirrors settings [] loop system) (due : Nat) :
    Reached settings [] (loop.fire due) system := by
  unfold ControlLoop.fire Agenda.takeAt
  dsimp only
  have hsplit := List.filter_append_perm (fun entry : Nat × Alarm ↦ decide (entry.1 = due))
    loop.agenda.entries
  have hdue : (loop.agenda.entries.filter (·.1 = due)).filterMap Alarm.add? =
      ((loop.agenda.entries.filter (·.1 = due)).map Prod.snd).filterMap
        fun alarm ↦ Alarm.add? (due, alarm) := by
    rw [List.filterMap_map]
    apply List.filterMap_congr
    rintro ⟨time, alarm⟩ hentry
    cases of_decide_eq_true (List.mem_filter.mp hentry).2
    rfl
  have htaken : Mirrors settings
      (((loop.agenda.entries.filter (·.1 = due)).map Prod.snd).filterMap
        fun alarm ↦ Alarm.add? (due, alarm))
      { loop with agenda := ⟨loop.agenda.entries.filter (·.1 ≠ due)⟩ } system := by
    refine ⟨h.settings, h.outages, fun entry hentry ↦ h.alarms entry (List.mem_filter.mp hentry).1,
      h.dispatch, h.cluster, h.queue, h.workers, h.delayed.trans ?_⟩
    rw [← hdue, ← List.filterMap_append, List.nil_append]
    simpa using (hsplit.filterMap Alarm.add?).symm
  have hcalm : ∀ alarm ∈ (loop.agenda.entries.filter (·.1 = due)).map Prod.snd, alarm.IsCalm := by
    intro alarm hmem
    obtain ⟨entry, hentry, rfl⟩ := List.mem_map.mp hmem
    exact h.alarms entry (List.mem_filter.mp hentry).1
  refine (htaken.moveClock due).andThen fun _ hmoved ↦ ?_
  refine (hmoved.ringAll hcalm ?_).andThen fun _ hrung ↦ hrung.runSteps stepBound
  show due ≤ loop.cluster.elapsed + (due - loop.cluster.elapsed)
  omega

theorem moveTo (h : Mirrors settings [] loop system) (target fuel : Nat) :
    Reached settings [] (ControlLoop.moveTo target fuel loop) system := by
  induction fuel generalizing loop system with
  | zero => exact h.moveClock target
  | succ fuel ih =>
    unfold ControlLoop.moveTo
    split
    · split_ifs
      · exact (h.fire _).andThen fun _ hfired ↦ ih hfired
      · exact h.moveClock target
    · exact h.moveClock target

/-- Time passes, with all that happens meanwhile. -/
theorem advance (h : Mirrors settings [] loop system) (millis : Nat) :
    Reached settings [] (loop.advance millis) system :=
  (h.runSteps stepBound).andThen fun _ hsettled ↦ hsettled.moveTo _ _

end Mirrors

/-! ## From outside -/

/-- What reaches the control loop from outside. -/
inductive Input where
  | mutate (mutation : Mutation)
  | advance (millis : Nat)
  | setClock (now : Instant)

def accept (loop : ControlLoop) : Input → ControlLoop
  | .mutate mutation =>
    let (store, keys) := mutation.effect loop.cluster.store loop.cluster.now
    { loop with cluster := loop.cluster.publish store keys }
  | .advance millis => loop.advance millis
  | .setClock now => { loop with cluster := { loop.cluster with now } }

theorem Mirrors.accept (h : Mirrors settings [] loop system) (input : Input) :
    Reached settings [] (loop.accept input) system := by
  cases input with
  | mutate mutation =>
    have houtages : (loop.accept (.mutate mutation)).cluster.outages = .empty := h.outages
    have hmutate : system.act settings (.mutate mutation) =
        { system with cluster := (loop.accept (.mutate mutation)).cluster } := by
      rw [System.act, System.mutate, h.cluster]
      rfl
    exact ⟨_, .event settings system (.mutate mutation), hmutate ▸ h.withCluster houtages⟩
  | advance millis => exact h.advance millis
  | setClock now =>
    have houtages : (loop.accept (.setClock now)).cluster.outages = .empty := h.outages
    have hwait : system.act settings (.wait 0 now) =
        { system with cluster := (loop.accept (.setClock now)).cluster } := by
      rw [System.act, System.wait, h.cluster]
      rfl
    exact ⟨_, .event settings system (.wait 0 now), hwait ▸ h.withCluster houtages⟩

theorem Mirrors.acceptAll (h : Mirrors settings [] loop system) (inputs : List Input) :
    Reached settings [] (inputs.foldl ControlLoop.accept loop) system := by
  induction inputs generalizing loop system with
  | nil => exact h.reached
  | cons input rest ih => exact (h.accept input).andThen fun _ hnext ↦ ih hnext

theorem Mirrors.arriveAll {workers : List Nat} (h : Mirrors settings pending loop system)
    (hnodup : workers.Nodup)
    (hfresh : ∀ worker ∈ workers, worker ∉ loop.dispatch.callers.map Prod.fst) :
    Mirrors settings pending
      { loop with dispatch := workers.foldl Dispatch.arrive loop.dispatch } system := by
  induction workers generalizing loop with
  | nil => exact h
  | cons worker rest ih =>
    obtain ⟨hother, hrest⟩ := List.nodup_cons.mp hnodup
    refine ih (h.arrive (hfresh worker List.mem_cons_self)) hrest fun later hlater ↦ ?_
    rw [Dispatch.arrive, List.map_append, List.mem_append, not_or]
    refine ⟨hfresh later (List.mem_cons_of_mem _ hlater), fun hsame ↦ hother ?_⟩
    obtain rfl : later = worker := List.mem_singleton.mp hsame
    exact hlater

/-- The control loop begins where the system does. -/
theorem mirrors_running (settings : PassSettings) (workers : Nat) (now : Instant) :
    Mirrors settings [] (running settings workers now) (System.start now) := by
  have hidle : Mirrors settings []
      { idle settings now with
        cluster := { (idle settings now).cluster with channel := some .empty }
        forwarding := true }
      (System.start now) :=
    ⟨rfl, rfl, by simp [idle, Agenda.empty], Dispatch.consistent_empty, rfl, rfl,
      ⟨by simp [idle, Dispatch.empty], fun _ _ ↦ rfl⟩, .refl _⟩
  have hfresh : ∀ worker ∈ List.range (max workers 1),
      worker ∉ Dispatch.empty.callers.map Prod.fst := by
    simp [Dispatch.empty]
  have hworkers := hidle.arriveAll List.nodup_range hfresh
  unfold running
  dsimp only
  split_ifs
  · exact hworkers
  · exact hworkers.scheduleTick 0

/-- Whatever reaches a control loop with any number of workers while no calls fail, the control loop
is where a run of the system leads that loses no key other than on a full channel. -/
theorem exists_runLossy_of_running (settings : PassSettings) (workers : Nat) (now : Instant)
    (inputs : List Input) :
    ∃ events : List LossyEvent, (∀ index, .lose index ∉ events) ∧
      Mirrors settings [] (inputs.foldl ControlLoop.accept (running settings workers now))
        (System.runLossy settings now events) := by
  obtain ⟨after, ⟨events, hevents, rfl⟩, hmirrors⟩ :=
    (mirrors_running settings workers now).acceptAll inputs
  exact ⟨events, hevents, hmirrors⟩

end ControlLoop

end SliceControl
