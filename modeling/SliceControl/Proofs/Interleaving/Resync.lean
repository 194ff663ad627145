import SliceControl.Proofs.Interleaving.System

/-!
# Resynchronisation

Keys may get lost on the channel. To make up for it, the keys of all workloads are listed and added
to the queue, at every tick and whenever keys have been missed. The listing has the keys of the
workloads that there are, so it does not make up for the removal of a workload that still owns
slices: for these slices no pass is made any more, unless the key is in the queue for another
reason.
-/

namespace SliceControl

/-- What may happen when keys can get lost on the channel. -/
inductive LossyEvent where
  | event (event : Event)
  /-- One of the keys on the channel is lost. -/
  | lose (index : Nat)
  /-- The forwarder learns that keys have been missed. -/
  | lag (outages : HonestOutages)
  | tick (outages : HonestOutages)

namespace System

/-- The keys of all workloads are listed, during which calls fail as planned. -/
def listing (settings : PassSettings) (system : System) (outages : OutagePlan) :
    Except StoreError (List String) × Cluster :=
  settings.listKeys.run Cluster.world { system.cluster with outages }

/-- All keys are listed, and added to the queue unless the listing fails. -/
def resync (settings : PassSettings) (system : System) (outages : OutagePlan) : System :=
  match system.listing settings outages with
  | (.ok keys, cluster) => { system with cluster, queue := system.queue.addAll keys }
  | (.error _, cluster) => { system with cluster }

def lose (system : System) (index : Nat) : System :=
  { system with cluster.channel := system.cluster.channel.map fun channel ↦
      ⟨channel.waiting.eraseIdx index, channel.missed + 1⟩ }

def lag (settings : PassSettings) (system : System) (outages : OutagePlan) : System :=
  match system.cluster.channel.bind EventChannel.receive? with
  | some (.lagged _, rest) => { system with cluster.channel := some rest }.resync settings outages
  | _ => system

def actLossy (settings : PassSettings) (system : System) : LossyEvent → System
  | .event event => system.act settings event
  | .lose index => system.lose index
  | .lag outages => system.lag settings outages.val
  | .tick outages => system.resync settings outages.val

/-- Where a list of events leads that may include losses. -/
def runLossy (settings : PassSettings) (now : Instant) (events : List LossyEvent) : System :=
  events.foldl (actLossy settings) (start now)

/-- A key waits in the queue, is dirty or is in flight. -/
def Queues (system : System) (key : String) : Prop :=
  system.queue.Awaits key ∨ system.queue.inFlight.contains key = true

instance (system : System) (key : String) : Decidable (system.Queues key) :=
  inferInstanceAs (Decidable (_ ∨ _))

end System

namespace Sample

/-- The report that the slice of the sample workload is active. -/
def active : Condition := ⟨Condition.ready, .true, Condition.reasonActive, "", .ofNanos 0⟩

/-- The sample workload is registered, and its key is lost. -/
def lostRegistration : List LossyEvent :=
  [.event (.mutate (.upsertNode node)), .event (.mutate (.upsertWorkload workload)), .lose 0]

/-- The sample workload gets its slice, which becomes active, and there are passes until nothing is
left to be done. Then the workload is removed, and its key is lost. -/
def lostRemoval : List LossyEvent :=
  let round : List Event := [.take 0, .pass 0 .none, .record 0, .finish 0]
  let settling : List Event := events ++
    [.mutate (.setCondition "team-job-workers-0" active), .deliver] ++ round ++
    [.wait 300000 (.ofNanos 0), .fire 0] ++ round
  settling.map .event ++ [.event (.mutate (.removeWorkload "team/job")), .lose 0]

end Sample

namespace System

variable {settings : PassSettings} {system : System}

/-! ## The queue stays consistent -/

theorem consistent_queue_act (h : system.queue.Consistent) (event : Event) :
    (system.act settings event).queue.Consistent := by
  cases event with
  | mutate mutation => exact h
  | deliver =>
    change system.deliver.queue.Consistent
    unfold deliver
    split
    · exact h.add _
    · exact h
  | fire index =>
    change (system.fire index).queue.Consistent
    unfold fire
    split
    · split_ifs
      · exact h.add _
      · exact h
    · exact h
  | take worker =>
    change (system.take worker).queue.Consistent
    unfold take
    split
    case h_1 key queue more _ hnext => exact h.next? hnext
    case h_2 => exact h
  | pass worker outages =>
    change (system.pass settings worker outages.val).queue.Consistent
    unfold System.pass
    split
    · exact h
    · exact h
  | record worker =>
    change (system.record settings worker).queue.Consistent
    unfold record
    split
    case h_1 key result _ =>
      cases result with
      | ok outcome => exact h.forget key
      | error error => exact h.recordFailure key
    case h_2 => exact h
  | finish worker =>
    change (system.finish worker).queue.Consistent
    unfold finish
    split
    · exact h.done _
    · exact h
  | wait millis now => exact h

theorem consistent_queue_resync (h : system.queue.Consistent) (outages : OutagePlan) :
    (system.resync settings outages).queue.Consistent := by
  unfold resync
  split
  · exact h.addAll _
  · exact h

theorem consistent_queue_actLossy (h : system.queue.Consistent) (event : LossyEvent) :
    (system.actLossy settings event).queue.Consistent := by
  cases event with
  | event event => exact consistent_queue_act h event
  | lose index => exact h
  | lag outages =>
    change (system.lag settings outages.val).queue.Consistent
    unfold lag
    split
    case h_1 missed rest _ =>
      have hreceived : { system with cluster.channel := some rest }.queue.Consistent := h
      exact consistent_queue_resync hreceived _
    case h_2 => exact h
  | tick outages => exact consistent_queue_resync h _

theorem consistent_queue_runLossy (settings : PassSettings) (now : Instant)
    (events : List LossyEvent) : (runLossy settings now events).queue.Consistent := by
  have hfrom (system : System) (h : system.queue.Consistent) :
      (events.foldl (actLossy settings) system).queue.Consistent := by
    induction events generalizing system with
    | nil => exact h
    | cons event rest ih => exact ih _ (consistent_queue_actLossy h event)
  exact hfrom (start now) WorkQueue.consistent_empty

/-! ## What a resync adds -/

/-- What is listed are the keys of the workloads that there are. -/
theorem listing_eq {outages : OutagePlan} (houtages : outages.IsHonest) {keys : List String}
    (hlisted : (system.listing settings outages).1 = .ok keys) :
    keys = system.cluster.store.workloadKeys ∧
      (system.listing settings outages).2.store = system.cluster.store := by
  have hplanned : ({ system.cluster with outages } : Cluster).outages.IsHonest := houtages
  have hanswered := settings.answered_ask hplanned .listWorkloadKeys
  obtain ⟨hstore, hkeys⟩ := hanswered.read fun _ ↦ rfl
  exact ⟨hkeys keys hlisted, hstore⟩

theorem resync_of_listed {outages : OutagePlan} {keys : List String}
    (hlisted : (system.listing settings outages).1 = .ok keys) :
    system.resync settings outages = { system with
      cluster := (system.listing settings outages).2, queue := system.queue.addAll keys } := by
  unfold resync
  generalize system.listing settings outages = listed at hlisted ⊢
  obtain ⟨result, cluster⟩ := listed
  cases hlisted
  rfl

/-- After a resync, just the workloads that there are are in the queue besides what has been there
before. -/
theorem queues_resync_iff (hqueue : system.queue.Consistent) {outages : OutagePlan}
    (houtages : outages.IsHonest) {keys : List String}
    (hlisted : (system.listing settings outages).1 = .ok keys) {key : String} :
    (system.resync settings outages).Queues key ↔
      (system.cluster.store.workload? key).isSome = true ∨ system.Queues key := by
  obtain ⟨hkeys, -⟩ := listing_eq houtages hlisted
  have hmem : key ∈ keys ↔ (system.cluster.store.workload? key).isSome = true := by
    rw [hkeys]
    exact SortedMap.mem_keys_iff
  rw [resync_of_listed hlisted]
  unfold Queues
  rw [WorkQueue.awaits_addAll_iff hqueue, WorkQueue.inFlight_addAll, hmem, or_assoc]

/-- Without a workload, there is something to write just if a slice is still to be deleted. -/
theorem writes_ne_nil_iff_of_removed {store : Store} {key : String}
    (hremoved : store.workload? key = none) (context : PassContext) :
    (reconcile (store.reading key) context).writes ≠ [] ↔
      ∃ slice ∈ store.ownedSlices key, slice.isDeleting = false := by
  have hreleasing : (store.reading key).IsReleasing context.checkName := .inl hremoved
  have hnil := writes_eq_nil_iff_of_isReleasing hreleasing
  rw [ne_eq, hnil]
  simp [Store.reading, Store.snapshot]

/-- However keys have got lost, a resync puts every workload for which there is something to write
into the queue, just if every removed workload that owns a slice without deletion marker is in the
queue already. -/
theorem resync_heals_iff (settings : PassSettings) (now : Instant) (events : List LossyEvent)
    (outages : HonestOutages) {keys : List String}
    (hlisted : ((runLossy settings now events).listing settings outages.val).1 = .ok keys) :
    let system := runLossy settings now events
    let after := system.resync settings outages.val
    (∀ key, (reconcile (after.cluster.store.reading key)
        (settings.contextAt after.cluster.now)).writes ≠ [] → after.Queues key) ↔
      ∀ key, system.cluster.store.workload? key = none →
        (∃ slice ∈ system.cluster.store.ownedSlices key, slice.isDeleting = false) →
          system.Queues key := by
  intro system after
  have hqueue : system.queue.Consistent := consistent_queue_runLossy settings now events
  have hadded {key : String} : after.Queues key ↔
      (system.cluster.store.workload? key).isSome = true ∨ system.Queues key :=
    queues_resync_iff hqueue outages.property hlisted
  have hstore : after.cluster.store = system.cluster.store := by
    rw [show after = system.resync settings outages.val from rfl, resync_of_listed hlisted]
    exact (listing_eq outages.property hlisted).2
  rw [hstore]
  constructor
  · intro hheals key hremoved hslice
    have hwrites := (writes_ne_nil_iff_of_removed hremoved
      (settings.contextAt after.cluster.now)).mpr hslice
    rcases hadded.mp (hheals key hwrites) with hsome | hqueues
    · rw [hremoved] at hsome
      cases hsome
    · exact hqueues
  · intro hremovals key hwrites
    apply hadded.mpr
    cases hworkload : system.cluster.store.workload? key with
    | some workload => exact .inl rfl
    | none =>
      have hslice := (writes_ne_nil_iff_of_removed hworkload _).mp hwrites
      exact .inr (hremovals key hworkload hslice)

/-- A resync makes up for the lost registration of the sample workload. -/
theorem resync_heals_iff_sample :
    let system := runLossy Sample.settings (.ofNanos 0) Sample.lostRegistration
    let after := system.resync Sample.settings HonestOutages.none.val
    (system.listing Sample.settings HonestOutages.none.val).1 = .ok ["team/job"] ∧
      (∀ key, (reconcile (after.cluster.store.reading key)
        (Sample.settings.contextAt after.cluster.now)).writes ≠ [] → after.Queues key) := by
  intro system after
  have hlisted : (system.listing Sample.settings HonestOutages.none.val).1 = .ok ["team/job"] := by
    decide +kernel
  have howned : system.cluster.store.owned = .empty := by decide +kernel
  refine ⟨hlisted, (resync_heals_iff Sample.settings (.ofNanos 0) Sample.lostRegistration .none
    hlisted).mpr fun key _ hslice ↦ ?_⟩
  obtain ⟨slice, hmem, -⟩ := hslice
  have hnone : system.cluster.store.ownedSlices key = [] := by
    rw [Store.ownedSlices, Store.ownedNames, howned]
    rfl
  exact absurd (hnone ▸ hmem) List.not_mem_nil

/-- Nothing makes up for the lost removal of the sample workload: when the forwarder has learnt of
the loss and has listed all keys, there is still a slice to be deleted, and the key is nowhere. -/
theorem resync_misses_removal :
    let system := runLossy Sample.settings (.ofNanos 0) Sample.lostRemoval
    let after := system.lag Sample.settings HonestOutages.none.val
    (reconcile (after.cluster.store.reading "team/job")
      (Sample.settings.contextAt after.cluster.now)).writes = [.deleteSlice "team-job-workers-0"] ∧
      ¬ after.Queues "team/job" ∧ ¬ after.Tracks "team/job" := by
  intro system after
  have hafter : (after.cluster.channel = some .empty ∧ after.queue = .empty ∧
      after.delayed.entries = []) ∧
      (reconcile (after.cluster.store.reading "team/job")
        (Sample.settings.contextAt after.cluster.now)).writes =
          [.deleteSlice "team-job-workers-0"] := by
    decide +kernel
  obtain ⟨⟨hchannel, hqueue, hdelayed⟩, hwrites⟩ := hafter
  have hidle : ¬ after.Queues "team/job" := by
    unfold Queues
    rw [hqueue]
    decide
  refine ⟨hwrites, hidle, ?_⟩
  rintro ((⟨channel, hsome, hmem⟩ | hawaits | ⟨due, hmem⟩) | hflight)
  · cases hchannel.symm.trans hsome
    exact absurd hmem List.not_mem_nil
  · exact hidle (.inl hawaits)
  · rw [hdelayed] at hmem
    exact absurd hmem List.not_mem_nil
  · exact hidle (.inr hflight)

end System

end SliceControl
