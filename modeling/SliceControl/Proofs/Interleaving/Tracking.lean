import Mathlib.Data.List.Induction
import SliceControl.Proofs.Cluster.Channel
import SliceControl.Proofs.Interleaving.System
import SliceControl.Proofs.Pass.Settled

/-!
# No workload is forgotten

In every interleaving, a workload for which there is something to write is on the channel, in the
queue, in flight, or to be added later. A key in flight needs no more than the worker that works on
it. For all other keys there is nothing to write, or they wait; this is so when the work on a key
ends, since its pass has settled it or the worker has arranged for another one, and it stays so,
since a change from outside publishes every workload that it may give something to write.
-/

namespace SliceControl.System

variable {settings : PassSettings} {system next : System}

/-- There is nothing to write for a key, or it waits. -/
def Covers (settings : PassSettings) (system : System) (key : String) : Prop :=
  system.cluster.store.Settled settings key ∨ system.Waits key

/-- What holds however the steps are interleaved. -/
structure Sound (settings : PassSettings) (system : System) : Prop where
  store : system.cluster.store.Consistent
  queue : system.queue.Consistent
  listening : ∃ channel, system.cluster.channel = some channel
  held : ∀ worker key, (system.workers worker).key? = some key →
    system.queue.inFlight.contains key = true
  exclusive : ∀ worker other key, (system.workers worker).key? = some key →
    (system.workers other).key? = some key → worker = other
  covered : ∀ key, system.queue.inFlight.contains key = true ∨ system.Covers settings key
  left : ∀ worker key, (system.workers worker).leaves? = some key → system.Covers settings key

theorem sound_start (settings : PassSettings) (now : Instant) : (start now).Sound settings where
  store := Store.consistent_empty
  queue := WorkQueue.consistent_empty
  listening := ⟨.empty, rfl⟩
  held := by intro worker key hkey; cases hkey
  exclusive := by intro worker other key hkey; cases hkey
  covered := by
    intro key
    have hsettled : Store.empty.Settled settings key := fun now ↦ rfl
    exact .inr (.inl hsettled)
  left := by intro worker key hkey; cases hkey

/-! ## Events that leave the workers alone -/

/-- Such an event has only to keep every key covered. -/
theorem Sound.of_covers (h : system.Sound settings) (hstore : next.cluster.store.Consistent)
    (hqueue : next.queue.Consistent) (hlistening : ∃ channel, next.cluster.channel = some channel)
    (hworkers : next.workers = system.workers)
    (hinFlight : next.queue.inFlight = system.queue.inFlight)
    (hcovers : ∀ key, system.Covers settings key → next.Covers settings key) :
    next.Sound settings where
  store := hstore
  queue := hqueue
  listening := hlistening
  held := by
    rw [hworkers, hinFlight]
    exact h.held
  exclusive := by
    rw [hworkers]
    exact h.exclusive
  covered := by
    rw [hinFlight]
    exact fun key ↦ (h.covered key).imp_right (hcovers key)
  left := by
    rw [hworkers]
    exact fun worker key hleaves ↦ hcovers key (h.left worker key hleaves)

theorem hears_mutate {channel : EventChannel} (hchannel : system.cluster.channel = some channel)
    (mutation : Mutation) : (system.mutate mutation).cluster.Hears channel := by
  have hbefore : system.cluster.Hears channel := ⟨channel, hchannel, .refl channel⟩
  exact hbefore.publish _ _

theorem hears_of_run {α : Type} {channel : EventChannel}
    (hchannel : system.cluster.channel = some channel) {outages : OutagePlan}
    {procedure : StoreProcedure α} {result : α} {cluster : Cluster}
    (hran : procedure.run Cluster.world { system.cluster with outages } = (result, cluster)) :
    cluster.Hears channel := by
  have hbefore : Cluster.Hears { system.cluster with outages } channel :=
    ⟨channel, hchannel, .refl channel⟩
  have hafter := hbefore.run procedure
  rw [hran] at hafter
  exact hafter

/-- What is on the channel stays there while nothing is received and nothing is dropped. -/
theorem Waits.of_hears {key : String} (h : system.Waits key) (hqueue : next.queue = system.queue)
    (hdelayed : next.delayed = system.delayed) (hlossless : next.Lossless)
    (hhears : ∀ channel, system.cluster.channel = some channel → next.cluster.Hears channel) :
    next.Waits key := by
  rcases h with ⟨channel, hchannel, hkey⟩ | hrest
  · obtain ⟨later, hlater, hextends⟩ := hhears channel hchannel
    exact .inl ⟨later, hlater, hextends.waiting (hlossless later hlater) key hkey⟩
  · right
    rw [hqueue, hdelayed]
    exact hrest

theorem Sound.mutate (h : system.Sound settings) (mutation : Mutation)
    (hlossless : (system.mutate mutation).Lossless) : (system.mutate mutation).Sound settings := by
  obtain ⟨channel, hchannel⟩ := h.listening
  have hafter : (system.mutate mutation).cluster.channel =
      some ((mutation.effect system.cluster.store system.cluster.now).2.foldl .send channel) :=
    congrArg (Option.map _) hchannel
  refine h.of_covers (h.store.effect mutation _) h.queue ⟨_, hafter⟩ rfl rfl ?_
  intro key hcovers
  by_cases hkey : key ∈ (mutation.effect system.cluster.store system.cluster.now).2
  · have hnone := hlossless _ hafter
    exact .inr (.inl ⟨_, hafter, EventChannel.mem_foldl_send hnone hkey⟩)
  · rcases hcovers with hsettled | hwaits
    · left
      intro now
      have hsame := Store.reconcile_of_not_published h.store mutation system.cluster.now hkey
        (settings.contextAt now)
      calc (reconcile ((system.mutate mutation).cluster.store.reading key)
            (settings.contextAt now)).writes
          = (reconcile (system.cluster.store.reading key) (settings.contextAt now)).writes :=
            congrArg Outcome.writes hsame
        _ = [] := hsettled now
    · exact .inr (hwaits.of_hears rfl rfl hlossless fun _ hbefore ↦ hears_mutate hbefore mutation)

theorem Sound.wait (h : system.Sound settings) (millis : Nat) (now : Instant) :
    (system.wait millis now).Sound settings :=
  h.of_covers h.store h.queue h.listening rfl rfl fun _ hcovers ↦ hcovers

/-! ## Adding keys -/

theorem waits_addKey_self (h : system.queue.Consistent) (key : String) :
    (system.addKey key).Waits key :=
  .inr (.inl (WorkQueue.awaits_add_self h key))

theorem Waits.addKey {other : String} (h : system.Waits other) (key : String) :
    (system.addKey key).Waits other :=
  h.imp_right (Or.imp_left (WorkQueue.Awaits.add · key))

/-- A key may be taken from where it waits and be added to the queue. -/
theorem Sound.addKey (h : system.Sound settings) {taken : System} {key : String}
    (hstore : taken.cluster.store = system.cluster.store)
    (hlistening : ∃ channel, taken.cluster.channel = some channel)
    (hqueue : taken.queue = system.queue) (hworkers : taken.workers = system.workers)
    (hwaits : ∀ other, other ≠ key → system.Waits other → taken.Waits other) :
    (taken.addKey key).Sound settings := by
  have hconsistent : taken.queue.Consistent := hqueue ▸ h.queue
  have hsame : (taken.addKey key).cluster.store = system.cluster.store := hstore
  refine h.of_covers (hsame ▸ h.store) (hconsistent.add key) hlistening hworkers ?_ ?_
  · rw [← hqueue]
    exact WorkQueue.inFlight_add taken.queue key
  · intro other hcovers
    by_cases hother : other = key
    · rw [hother]
      exact .inr (waits_addKey_self hconsistent key)
    · rcases hcovers with hsettled | hwait
      · exact .inl (hsame ▸ hsettled)
      · exact .inr ((hwaits other hother hwait).addKey key)

theorem Sound.deliver (h : system.Sound settings) : system.deliver.Sound settings := by
  unfold System.deliver
  split
  case h_2 => exact h
  case h_1 key rest hreceived =>
    obtain ⟨channel, hchannel, hreceive⟩ := Option.bind_eq_some_iff.mp hreceived
    obtain ⟨-, -, hwaiting⟩ := EventChannel.receive?_eq_key_iff.mp hreceive
    refine h.addKey rfl ⟨rest, rfl⟩ rfl rfl ?_
    intro other hother hwaits
    apply hwaits.imp_left
    rintro ⟨before, hbefore, hmem⟩
    cases hchannel.symm.trans hbefore
    rw [hwaiting] at hmem
    exact ⟨rest, rfl, (List.mem_cons.mp hmem).resolve_left hother⟩

theorem Sound.fire (h : system.Sound settings) (index : Nat) :
    (system.fire index).Sound settings := by
  unfold System.fire
  split
  case h_2 => exact h
  case h_1 due key hentry =>
    split_ifs
    · refine h.addKey rfl h.listening rfl rfl ?_
      intro other hother hwaits
      refine hwaits.imp_right (Or.imp_right ?_)
      rintro ⟨time, hmem⟩
      obtain ⟨place, hplace⟩ := List.getElem?_of_mem hmem
      refine ⟨time, List.mem_eraseIdx_iff_getElem?.mpr ⟨place, ?_, hplace⟩⟩
      rintro rfl
      rw [hentry] at hplace
      exact hother (congrArg Prod.snd (Option.some.inj hplace)).symm
    · exact h

/-! ## What a worker does -/

/-- What a worker does concerns only the key that it works on. -/
theorem Sound.of_worker (h : system.Sound settings) {worker : Nat} {key : String}
    {stage : WorkerStage} (hstore : next.cluster.store.Consistent)
    (hqueue : next.queue.Consistent) (hlistening : ∃ channel, next.cluster.channel = some channel)
    (hworkers : next.workers = Function.update system.workers worker stage)
    (hstage : ∀ other, stage.key? = some other → other = key)
    (hothers : ∀ other, other ≠ worker → (system.workers other).key? ≠ some key)
    (hinFlight : ∀ other, other ≠ key →
      next.queue.inFlight.contains other = system.queue.inFlight.contains other)
    (hheld : stage.key? = some key → next.queue.inFlight.contains key = true)
    (hcovers : ∀ other, other ≠ key → system.Covers settings other → next.Covers settings other)
    (hcovered : next.queue.inFlight.contains key = true ∨ next.Covers settings key)
    (hleft : stage.leaves? = some key → next.Covers settings key) : next.Sound settings := by
  have hself : next.workers worker = stage := by rw [hworkers, Function.update_self]
  have hrest {other : Nat} (hne : other ≠ worker) :
      next.workers other = system.workers other := by
    rw [hworkers, Function.update_of_ne hne]
  -- The other workers work on other keys, as before.
  have hdistinct {other : Nat} {held : String} (hne : other ≠ worker)
      (hkey : (next.workers other).key? = some held) :
      (system.workers other).key? = some held ∧ held ≠ key := by
    rw [hrest hne] at hkey
    exact ⟨hkey, fun hsame ↦ hothers other hne (hsame ▸ hkey)⟩
  refine ⟨hstore, hqueue, hlistening, ?held, ?exclusive, ?covered, ?left⟩
  case held =>
    intro other held hkey
    by_cases hother : other = worker
    · rw [hother, hself] at hkey
      cases hstage held hkey
      exact hheld hkey
    · obtain ⟨hkey, hne⟩ := hdistinct hother hkey
      rw [hinFlight held hne]
      exact h.held other held hkey
  case exclusive =>
    intro first second held hfirst hsecond
    by_cases hone : first = worker
    · by_cases htwo : second = worker
      · exact hone.trans htwo.symm
      · rw [hone, hself] at hfirst
        exact absurd (hstage held hfirst) (hdistinct htwo hsecond).2
    · by_cases htwo : second = worker
      · rw [htwo, hself] at hsecond
        exact absurd (hstage held hsecond) (hdistinct hone hfirst).2
      · exact h.exclusive first second held (hdistinct hone hfirst).1 (hdistinct htwo hsecond).1
  case covered =>
    intro other
    by_cases hother : other = key
    · rw [hother]
      exact hcovered
    · rw [hinFlight other hother]
      exact (h.covered other).imp_right (hcovers other hother)
  case left =>
    intro other held hleaves
    by_cases hother : other = worker
    · rw [hother, hself] at hleaves
      cases hstage held (WorkerStage.key?_of_leaves? hleaves)
      exact hleft hleaves
    · obtain ⟨-, hne⟩ := hdistinct hother (WorkerStage.key?_of_leaves? hleaves)
      rw [hrest hother] at hleaves
      exact hcovers held hne (h.left other held hleaves)

/-- While a worker works on a key, no other worker does. -/
theorem Sound.not_held (h : system.Sound settings) {worker : Nat} {key : String}
    (hkey : (system.workers worker).key? = some key) (other : Nat) (hother : other ≠ worker) :
    (system.workers other).key? ≠ some key :=
  fun hheld ↦ hother (h.exclusive other worker key hheld hkey)

theorem Sound.take (h : system.Sound settings) (worker : Nat) :
    (system.take worker).Sound settings := by
  unfold System.take
  split
  case h_2 => exact h
  case h_1 key queue more hstage hnext =>
    have hidle := WorkQueue.inFlight_of_next? h.queue hnext
    have hinFlight := WorkQueue.inFlight_next? hnext
    have hself : queue.inFlight.contains key = true := by simp [hinFlight]
    refine h.of_worker h.store (h.queue.next? hnext) h.listening rfl ?_ ?_ ?_ (fun _ ↦ hself) ?_
      (.inl hself) ?_
    · intro other hother
      exact (Option.some.inj hother).symm
    · intro other _ hheld
      have hflight := h.held other key hheld
      rw [hidle] at hflight
      cases hflight
    · intro other hother
      calc queue.inFlight.contains other
          = (decide (key = other) || system.queue.inFlight.contains other) := hinFlight other
        _ = system.queue.inFlight.contains other := by simp [Ne.symm hother]
    · intro other hother hcovers
      exact hcovers.imp_right (Or.imp_right (Or.imp_left fun hawaits ↦ hawaits.next? hnext hother))
    · intro hleaves
      cases hleaves

/-- A pass changes nothing for the other keys, and it settles its own key if it succeeds and asks
for no further pass. -/
theorem Sound.passed (h : system.Sound settings) {worker : Nat} {key : String}
    (hkey : (system.workers worker).key? = some key) {outages : OutagePlan}
    (houtages : outages.IsHonest) {result : Except PassError Outcome} {cluster : Cluster}
    (hran : (settings.pass key).run Cluster.world { system.cluster with outages } =
      (result, cluster))
    (hlossless : ({ system with cluster }.setWorker worker (.passed key result)).Lossless) :
    ({ system with cluster }.setWorker worker (.passed key result)).Sound settings := by
  have hplanned : ({ system.cluster with outages } : Cluster).outages.IsHonest := houtages
  have hpass := settings.run_pass hplanned key
  rw [hran] at hpass
  obtain ⟨-, now, steps, hstore, hsublist, hdone⟩ := hpass
  dsimp only at hstore hsublist hdone
  have hconsistent : cluster.store.Consistent := by
    rw [hstore]
    exact h.store.carryAll steps
  have hflight := h.held worker key hkey
  obtain ⟨channel, hchannel⟩ := h.listening
  obtain ⟨later, hlater, -⟩ := hears_of_run hchannel hran
  refine h.of_worker hconsistent h.queue ⟨later, hlater⟩ rfl ?_ (h.not_held hkey) (fun _ _ ↦ rfl)
    (fun _ ↦ hflight) ?_ (.inl hflight) ?_
  · intro other hother
    exact (Option.some.inj hother).symm
  · rintro other hother (hsettled | hwaits)
    · have hsame : Store.SameOutside key system.cluster.store cluster.store := by
        rw [hstore]
        exact h.store.sameOutside_carryAll hsublist.subset
      have hreading := hsame.reading h.store hconsistent hother
      left
      intro later
      show (reconcile (cluster.store.reading other) (settings.contextAt later)).writes = []
      rw [hreading]
      exact hsettled later
    · exact .inr (hwaits.of_hears rfl rfl hlossless fun _ hbefore ↦ hears_of_run hbefore hran)
  · intro hleaves
    left
    show cluster.store.Settled settings key
    rw [hstore]
    obtain error | ⟨writes, delay | delay⟩ := result
    · cases hleaves
    · obtain ⟨houtcome, hwrites⟩ := hdone _ rfl
      rw [houtcome] at hwrites
      exact Store.settled_of_requeueAfter_eq_none h.store hwrites (by rw [← houtcome])
    · cases hleaves

theorem Sound.pass (h : system.Sound settings) (worker : Nat) {outages : OutagePlan}
    (houtages : outages.IsHonest) (hlossless : (system.pass settings worker outages).Lossless) :
    (system.pass settings worker outages).Sound settings := by
  unfold System.pass at hlossless ⊢
  split
  case h_2 => exact h
  case h_1 key hstage =>
    rw [hstage] at hlossless
    exact h.passed (by rw [hstage]; rfl) houtages rfl hlossless

/-- A worker that has arranged what follows leaves its key covered. -/
theorem Sound.arrange (h : system.Sound settings) {worker : Nat} {key : String}
    (hkey : (system.workers worker).key? = some key) (failures : SortedMap Nat)
    {delayed : Agenda String} (hdelayed : system.delayed.entries ⊆ delayed.entries)
    (hcovered : system.Covers settings key ∨ ∃ due, (due, key) ∈ delayed.entries) :
    ({ system with queue := { system.queue with failures }, delayed }.setWorker worker
      (.recorded key)).Sound settings := by
  have hflight := h.held worker key hkey
  have hcovers {other : String} (hother : system.Covers settings other) :
      ({ system with queue := { system.queue with failures }, delayed }.setWorker worker
        (.recorded key)).Covers settings other := by
    refine hother.imp_right (Or.imp_right (Or.imp_right ?_))
    rintro ⟨due, hmem⟩
    exact ⟨due, hdelayed hmem⟩
  refine h.of_worker h.store (h.queue.with_failures failures) h.listening rfl ?_ (h.not_held hkey)
    (fun _ _ ↦ rfl) (fun _ ↦ hflight) (fun _ _ ↦ hcovers) (.inl hflight) fun _ ↦ ?_
  · intro other hother
    exact (Option.some.inj hother).symm
  · rcases hcovered with hcovered | hadded
    · exact hcovers hcovered
    · exact .inr (.inr (.inr hadded))

theorem Sound.record (h : system.Sound settings) (worker : Nat) :
    (system.record settings worker).Sound settings := by
  unfold System.record
  split
  case h_2 => exact h
  case h_1 key result hstage =>
    have hkey : (system.workers worker).key? = some key := by rw [hstage]; rfl
    have hscheduled (due : Nat) :
        system.delayed.entries ⊆ (system.delayed.schedule due key).entries ∧
          (due, key) ∈ (system.delayed.schedule due key).entries :=
      ⟨List.subset_append_left _ _, by simp [Agenda.schedule]⟩
    obtain error | ⟨writes, delay | delay⟩ := result
    · exact h.arrange hkey _ (hscheduled _).1 (.inr ⟨_, (hscheduled _).2⟩)
    · have hcovers := h.left worker key (by rw [hstage]; rfl)
      exact h.arrange hkey _ (List.Subset.refl _) (.inl hcovers)
    · exact h.arrange hkey _ (hscheduled _).1 (.inr ⟨_, (hscheduled _).2⟩)

theorem Sound.finish (h : system.Sound settings) (worker : Nat) :
    (system.finish worker).Sound settings := by
  unfold System.finish
  split
  case h_2 => exact h
  case h_1 key hstage =>
    have hkey : (system.workers worker).key? = some key := by rw [hstage]; rfl
    have hcovers {other : String} (hother : system.Covers settings other) :
        ({ system with queue := (system.queue.done key).1 }.setWorker worker .free).Covers settings
          other :=
      hother.imp_right (Or.imp_right (Or.imp_left fun hawaits ↦ hawaits.done h.queue key))
    refine h.of_worker h.store (h.queue.done key) h.listening rfl ?_ (h.not_held hkey) ?_ ?_
      (fun _ _ ↦ hcovers) ?_ ?_
    · intro other hother
      cases hother
    · intro other hother
      calc (system.queue.done key).1.inFlight.contains other
          = (!decide (key = other) && system.queue.inFlight.contains other) :=
            WorkQueue.inFlight_done system.queue key other
        _ = system.queue.inFlight.contains other := by simp [Ne.symm hother]
    · intro hheld
      cases hheld
    · exact .inr (hcovers (h.left worker key (by rw [hstage]; rfl)))
    · intro hleaves
      cases hleaves

/-! ## Runs -/

theorem Sound.act (h : system.Sound settings) (event : Event)
    (hlossless : (system.act settings event).Lossless) :
    (system.act settings event).Sound settings := by
  cases event with
  | mutate mutation => exact h.mutate mutation hlossless
  | deliver => exact h.deliver
  | fire index => exact h.fire index
  | take worker => exact h.take worker
  | pass worker outages => exact h.pass worker outages.property hlossless
  | record worker => exact h.record worker
  | finish worker => exact h.finish worker
  | wait millis now => exact h.wait millis now

/-- What the channel has dropped stays dropped. -/
theorem Lossless.of_hears (hlossless : next.Lossless)
    (hhears : ∀ channel, system.cluster.channel = some channel → next.cluster.Hears channel) :
    system.Lossless := by
  intro channel hchannel
  obtain ⟨later, hlater, hextends⟩ := hhears channel hchannel
  have hle := hextends.missed_le
  have hnone := hlossless later hlater
  omega

/-- A channel that has dropped no key has not done so before. -/
theorem lossless_of_act {event : Event} (hlossless : (system.act settings event).Lossless) :
    system.Lossless := by
  cases event with
  | mutate mutation => exact hlossless.of_hears fun _ hchannel ↦ hears_mutate hchannel mutation
  | deliver =>
    intro channel hchannel
    change system.deliver.Lossless at hlossless
    unfold deliver at hlossless
    split at hlossless
    case h_2 => exact hlossless channel hchannel
    case h_1 key rest hreceived =>
      obtain ⟨before, hbefore, hreceive⟩ := Option.bind_eq_some_iff.mp hreceived
      cases hchannel.symm.trans hbefore
      exact (EventChannel.receive?_eq_key_iff.mp hreceive).1
  | fire index => simpa only [act, Lossless, cluster_fire] using hlossless
  | take worker => simpa only [act, Lossless, cluster_take] using hlossless
  | pass worker outages =>
    change (system.pass settings worker outages.val).Lossless at hlossless
    unfold System.pass at hlossless
    split at hlossless
    · exact hlossless.of_hears fun _ hchannel ↦ hears_of_run hchannel rfl
    · exact hlossless
  | record worker => simpa only [act, Lossless, cluster_record] using hlossless
  | finish worker => simpa only [act, Lossless, cluster_finish] using hlossless
  | wait millis now => exact hlossless

/-- Every run in which the channel drops no key is sound. -/
theorem sound_run (settings : PassSettings) (now : Instant) (events : List Event)
    (hlossless : (run settings now events).Lossless) :
    (run settings now events).Sound settings := by
  induction events using List.reverseRecOn with
  | nil => exact sound_start settings now
  | append_singleton events event ih =>
    unfold run at hlossless ih ⊢
    rw [List.foldl_concat] at hlossless ⊢
    exact (ih (lossless_of_act hlossless)).act event hlossless

/-- As long as the channel drops no key, every workload for which there is something to write is on
the channel, waits in the queue or is dirty, is in flight, or is to be added later. -/
theorem tracks_of_writes (settings : PassSettings) (now : Instant) (events : List Event)
    (hlossless : (run settings now events).Lossless) {key : String}
    (hwrites : (reconcile ((run settings now events).cluster.store.reading key)
      (settings.contextAt (run settings now events).cluster.now)).writes ≠ []) :
    (run settings now events).Tracks key := by
  have hsound := sound_run settings now events hlossless
  rcases hsound.covered key with hflight | hsettled | hwaits
  · exact .inr hflight
  · exact absurd (hsettled _) hwrites
  · exact .inl hwaits

/-- When the sample workload is removed, its slice is to be deleted. -/
theorem tracks_of_writes_sample :
    let system := run Sample.settings (.ofNanos 0)
      (Sample.events ++ [.mutate (.removeWorkload "team/job")])
    (reconcile (system.cluster.store.reading "team/job")
      (Sample.settings.contextAt system.cluster.now)).writes ≠ [] ∧ system.Tracks "team/job" := by
  intro system
  have hwrites : (reconcile (system.cluster.store.reading "team/job")
      (Sample.settings.contextAt system.cluster.now)).writes ≠ [] := by decide +kernel
  have hchannel : system.cluster.channel = some ⟨["team/job"], 0⟩ := by decide +kernel
  have hlossless : system.Lossless := by
    intro channel hsome
    cases hchannel.symm.trans hsome
    rfl
  exact ⟨hwrites, tracks_of_writes Sample.settings (.ofNanos 0) _ hlossless hwrites⟩

end SliceControl.System
