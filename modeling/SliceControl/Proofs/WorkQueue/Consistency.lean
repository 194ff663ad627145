import Mathlib.Data.List.Nodup
import SliceControl.WorkQueue

/-!
# A consistent work queue

A key waits at most once, it does not wait while it is being worked on, and only a key that is being
worked on is dirty. Every operation keeps it so, and none of them loses a key that waits or is
dirty, unless it hands the key out.
-/

namespace SliceControl.WorkQueue

/-- What holds of the waiting keys, those in flight and the dirty ones. -/
structure Consistent (queue : WorkQueue) : Prop where
  nodup : queue.pending.Nodup
  queued_iff : ∀ key, queue.queued.contains key = true ↔ key ∈ queue.pending
  not_inFlight : ∀ key ∈ queue.pending, queue.inFlight.contains key = false
  inFlight_of_dirty : ∀ key, queue.dirty.contains key = true → queue.inFlight.contains key = true

/-- A key waits to be handed out, or will do so once the work on it is done. -/
def Awaits (queue : WorkQueue) (key : String) : Prop :=
  key ∈ queue.pending ∨ queue.dirty.contains key = true

instance (queue : WorkQueue) (key : String) : Decidable (queue.Awaits key) :=
  inferInstanceAs (Decidable (_ ∨ _))

theorem consistent_empty : empty.Consistent where
  nodup := List.nodup_nil
  queued_iff := by intro key; simp [empty]
  not_inFlight := by intro key hkey; exact absurd hkey List.not_mem_nil
  inFlight_of_dirty := by intro key hkey; exact absurd hkey (by simp [empty])

variable {queue : WorkQueue}

/-! ## Adding -/

theorem Consistent.enqueue (h : queue.Consistent) {key : String}
    (hidle : queue.inFlight.contains key = false) : (queue.enqueue key).1.Consistent := by
  unfold WorkQueue.enqueue
  split_ifs with hqueued
  · exact h
  have hkey : key ∉ queue.pending := fun hmem ↦ hqueued ((h.queued_iff key).mpr hmem)
  refine ⟨?_, ?_, ?_, h.inFlight_of_dirty⟩
  · exact h.nodup.append (List.nodup_singleton key) (List.disjoint_singleton.mpr hkey)
  · intro other
    have hiff := h.queued_iff other
    simp only [NameSet.contains_add, Bool.or_eq_true, decide_eq_true_eq, List.mem_append,
      List.mem_singleton, hiff]
    exact or_comm.trans (or_congr_right eq_comm)
  · intro other hother
    rcases List.mem_append.mp hother with hother | hother
    · exact h.not_inFlight other hother
    · rw [List.mem_singleton.mp hother]
      exact hidle

theorem Consistent.add (h : queue.Consistent) (key : String) : (queue.add key).1.Consistent := by
  unfold WorkQueue.add
  split_ifs with hflight
  · refine ⟨h.nodup, h.queued_iff, h.not_inFlight, fun other hother ↦ ?_⟩
    simp only [NameSet.contains_add, Bool.or_eq_true, decide_eq_true_eq] at hother
    rcases hother with rfl | hother
    · exact hflight
    · exact h.inFlight_of_dirty other hother
  · exact h.enqueue (by simpa using hflight)

theorem mem_pending_enqueue (h : queue.Consistent) (key : String) :
    key ∈ (queue.enqueue key).1.pending := by
  unfold enqueue
  split_ifs with hqueued
  · exact (h.queued_iff key).mp hqueued
  · simp

theorem awaits_enqueue_self (h : queue.Consistent) (key : String) :
    (queue.enqueue key).1.Awaits key := .inl (mem_pending_enqueue h key)

theorem Awaits.enqueue {other : String} (h : queue.Awaits other) (key : String) :
    (queue.enqueue key).1.Awaits other := by
  unfold WorkQueue.enqueue
  split_ifs
  · exact h
  · exact h.imp_left (List.mem_append_left _)

/-- An added key waits, or it is dirty. -/
theorem awaits_add_self (h : queue.Consistent) (key : String) : (queue.add key).1.Awaits key := by
  unfold add
  split_ifs
  · exact .inr (by simp)
  · exact awaits_enqueue_self h key

theorem Awaits.add {other : String} (h : queue.Awaits other) (key : String) :
    (queue.add key).1.Awaits other := by
  unfold WorkQueue.add
  split_ifs
  · exact h.imp_right fun hdirty ↦ by simp [hdirty]
  · exact h.enqueue key

theorem inFlight_enqueue (queue : WorkQueue) (key : String) :
    (queue.enqueue key).1.inFlight = queue.inFlight := by
  unfold enqueue
  split_ifs <;> rfl

theorem inFlight_add (queue : WorkQueue) (key : String) :
    (queue.add key).1.inFlight = queue.inFlight := by
  unfold add
  split_ifs
  · rfl
  · exact inFlight_enqueue queue key

theorem dirty_enqueue (queue : WorkQueue) (key : String) :
    (queue.enqueue key).1.dirty = queue.dirty := by
  unfold enqueue
  split_ifs <;> rfl

theorem dirty_add {other : String} (h : queue.dirty.contains other = true) (key : String) :
    (queue.add key).1.dirty.contains other = true := by
  unfold add
  split_ifs
  · simp [h]
  · rw [dirty_enqueue, h]

theorem awaits_of_awaits_enqueue {key other : String} (h : (queue.enqueue key).1.Awaits other) :
    other = key ∨ queue.Awaits other := by
  unfold enqueue at h
  split_ifs at h
  · exact .inr h
  · rcases h with hpending | hdirty
    · rcases List.mem_append.mp hpending with hpending | hself
      · exact .inr (.inl hpending)
      · exact .inl (List.mem_singleton.mp hself)
    · exact .inr (.inr hdirty)

/-- Adding a key concerns no other key. -/
theorem awaits_add_iff (h : queue.Consistent) {key other : String} :
    (queue.add key).1.Awaits other ↔ other = key ∨ queue.Awaits other := by
  constructor
  · intro hafter
    unfold add at hafter
    split_ifs at hafter
    · rcases hafter with hpending | hdirty
      · exact .inr (.inl hpending)
      · simp only [NameSet.contains_add, Bool.or_eq_true, decide_eq_true_eq] at hdirty
        exact hdirty.imp Eq.symm .inr
    · exact awaits_of_awaits_enqueue hafter
  · rintro (rfl | hbefore)
    · exact awaits_add_self h other
    · exact hbefore.add key

/-- Adds keys one after the other. -/
def addAll (queue : WorkQueue) (keys : List String) : WorkQueue :=
  keys.foldl (fun queue key ↦ (queue.add key).1) queue

theorem Consistent.addAll (h : queue.Consistent) (keys : List String) :
    (queue.addAll keys).Consistent := by
  induction keys generalizing queue with
  | nil => exact h
  | cons key rest ih => exact ih (h.add key)

theorem inFlight_addAll (queue : WorkQueue) (keys : List String) :
    (queue.addAll keys).inFlight = queue.inFlight := by
  induction keys generalizing queue with
  | nil => rfl
  | cons key rest ih =>
    calc ((queue.add key).1.addAll rest).inFlight
        = (queue.add key).1.inFlight := ih _
      _ = queue.inFlight := inFlight_add queue key

/-- Just the added keys wait or are dirty besides those that have done so before. -/
theorem awaits_addAll_iff (h : queue.Consistent) {keys : List String} {other : String} :
    (queue.addAll keys).Awaits other ↔ other ∈ keys ∨ queue.Awaits other := by
  induction keys generalizing queue with
  | nil => simp [addAll]
  | cons key rest ih =>
    have hrest : ((queue.add key).1.addAll rest).Awaits other ↔
        other ∈ rest ∨ (queue.add key).1.Awaits other := ih (h.add key)
    rw [show queue.addAll (key :: rest) = (queue.add key).1.addAll rest from rfl, hrest,
      awaits_add_iff h, List.mem_cons, or_left_comm, or_assoc]

/-! ## Handing out -/

section Next

variable {key : String} {next : WorkQueue} {more : Bool}

/-- The key that is handed out was the first to wait. -/
theorem next?_eq_some_iff : queue.next? = some (key, next, more) ↔
    ∃ rest, queue.pending = key :: rest ∧ more = !rest.isEmpty ∧
      next = { queue with
        pending := rest
        queued := queue.queued.erase key
        inFlight := queue.inFlight.add key } := by
  unfold next?
  cases queue.pending with
  | nil => simp
  | cons first rest =>
    simp only [Option.some.injEq, Prod.mk.injEq, List.cons.injEq]
    constructor
    · rintro ⟨rfl, rfl, rfl⟩
      exact ⟨rest, ⟨rfl, rfl⟩, rfl, rfl⟩
    · rintro ⟨others, ⟨rfl, rfl⟩, rfl, rfl⟩
      exact ⟨rfl, rfl, rfl⟩

theorem next?_eq_none_iff : queue.next? = none ↔ queue.pending = [] := by
  unfold next?
  cases queue.pending <;> simp

theorem Consistent.next? (h : queue.Consistent) (hnext : queue.next? = some (key, next, more)) :
    next.Consistent := by
  obtain ⟨rest, hpending, -, rfl⟩ := next?_eq_some_iff.mp hnext
  have hnodup := h.nodup
  rw [hpending] at hnodup
  obtain ⟨hkey, hrest⟩ := List.nodup_cons.mp hnodup
  refine ⟨hrest, fun other ↦ ?_, fun other hother ↦ ?_, fun other hother ↦ ?_⟩
  · have hiff := h.queued_iff other
    rw [hpending, List.mem_cons] at hiff
    simp only [SortedMap.contains_erase, Bool.and_eq_true, Bool.not_eq_true',
      decide_eq_false_iff_not, hiff]
    constructor
    · rintro ⟨hne, rfl | hother⟩
      · exact absurd rfl hne
      · exact hother
    · intro hother
      exact ⟨fun hsame ↦ hkey (hsame ▸ hother), .inr hother⟩
  · have hidle := h.not_inFlight other (hpending ▸ List.mem_cons_of_mem _ hother)
    have hne : key ≠ other := fun hsame ↦ hkey (hsame ▸ hother)
    simp [hidle, hne]
  · simp [h.inFlight_of_dirty other hother]

/-- The key that is handed out was not being worked on. -/
theorem inFlight_of_next? (h : queue.Consistent) (hnext : queue.next? = some (key, next, more)) :
    queue.inFlight.contains key = false := by
  obtain ⟨rest, hpending, -, -⟩ := next?_eq_some_iff.mp hnext
  exact h.not_inFlight key (hpending ▸ List.mem_cons_self)

theorem inFlight_next? (hnext : queue.next? = some (key, next, more)) (other : String) :
    next.inFlight.contains other = (decide (key = other) || queue.inFlight.contains other) := by
  obtain ⟨rest, -, -, rfl⟩ := next?_eq_some_iff.mp hnext
  exact NameSet.contains_add queue.inFlight key other

/-- The other keys go on waiting. -/
theorem Awaits.next? {other : String} (h : queue.Awaits other)
    (hnext : queue.next? = some (key, next, more)) (hne : other ≠ key) : next.Awaits other := by
  obtain ⟨rest, hpending, -, rfl⟩ := next?_eq_some_iff.mp hnext
  apply h.imp_left
  intro hmem
  rw [hpending] at hmem
  exact (List.mem_cons.mp hmem).resolve_left hne

/-- A key that is handed out no longer waits, and only that one. -/
theorem awaits_next?_iff (h : queue.Consistent) (hnext : queue.next? = some (key, next, more))
    {other : String} : next.Awaits other ↔ queue.Awaits other ∧ other ≠ key := by
  constructor
  · intro hother
    have hidle := inFlight_of_next? h hnext
    obtain ⟨rest, hpending, -, rfl⟩ := next?_eq_some_iff.mp hnext
    have hnodup := h.nodup
    rw [hpending] at hnodup
    rcases hother with hmem | hdirty
    · refine ⟨.inl (hpending ▸ List.mem_cons_of_mem _ hmem), ?_⟩
      rintro rfl
      exact (List.nodup_cons.mp hnodup).1 hmem
    · refine ⟨.inr hdirty, ?_⟩
      rintro rfl
      rw [h.inFlight_of_dirty other hdirty] at hidle
      exact absurd hidle (by decide)
  · rintro ⟨hother, hne⟩
    exact hother.next? hnext hne

theorem dirty_next? (hnext : queue.next? = some (key, next, more)) : next.dirty = queue.dirty := by
  obtain ⟨rest, -, -, rfl⟩ := next?_eq_some_iff.mp hnext
  rfl

end Next

/-! ## Ending the work -/

/-- A key may be taken out of flight together with its mark as dirty. -/
theorem Consistent.release (h : queue.Consistent) (key : String) :
    { queue with
      inFlight := queue.inFlight.erase key, dirty := queue.dirty.erase key }.Consistent := by
  refine ⟨h.nodup, h.queued_iff, fun other hother ↦ ?_, fun other hother ↦ ?_⟩
  · simp [h.not_inFlight other hother]
  · simp only [SortedMap.contains_erase, Bool.and_eq_true, Bool.not_eq_true',
      decide_eq_false_iff_not] at hother ⊢
    exact ⟨hother.1, h.inFlight_of_dirty other hother.2⟩

theorem Consistent.done (h : queue.Consistent) (key : String) : (queue.done key).1.Consistent := by
  unfold WorkQueue.done
  dsimp only
  split_ifs with hdirty
  · exact (h.release key).enqueue (by simp)
  · refine ⟨h.nodup, h.queued_iff, (h.release key).not_inFlight, fun other hother ↦ ?_⟩
    have hne : key ≠ other := fun hsame ↦ hdirty (hsame ▸ hother)
    simp [h.inFlight_of_dirty other hother, hne]

theorem inFlight_done (queue : WorkQueue) (key other : String) :
    (queue.done key).1.inFlight.contains other =
      (!decide (key = other) && queue.inFlight.contains other) := by
  unfold done
  dsimp only
  split_ifs
  · rw [inFlight_enqueue]
    exact SortedMap.contains_erase queue.inFlight key other
  · exact SortedMap.contains_erase queue.inFlight key other

/-- A dirty key waits again once the work on it is done. -/
theorem Awaits.done {other : String} (h : queue.Consistent) (hother : queue.Awaits other)
    (key : String) : (queue.done key).1.Awaits other := by
  unfold WorkQueue.done
  dsimp only
  split_ifs with hdirty
  · by_cases hsame : other = key
    · rw [hsame]
      exact awaits_enqueue_self (h.release key) key
    · refine Awaits.enqueue ?_ key
      apply hother.imp_right
      intro hother
      simp [hother, Ne.symm hsame]
  · exact hother

/-- Ending the work on a key makes no key wait that was not waiting or dirty. -/
theorem awaits_done_iff (h : queue.Consistent) {key other : String} :
    (queue.done key).1.Awaits other ↔ queue.Awaits other := by
  constructor
  · intro hother
    unfold done at hother
    dsimp only at hother
    split_ifs at hother with hdirty
    · rcases awaits_of_awaits_enqueue hother with rfl | hpending | hother
      · exact .inr hdirty
      · exact .inl hpending
      · simp only [SortedMap.contains_erase, Bool.and_eq_true] at hother
        exact .inr hother.2
    · exact hother
  · intro hother
    exact hother.done h key

theorem mem_pending_done (h : queue.Consistent) {key : String}
    (hdirty : queue.dirty.contains key = true) : key ∈ (queue.done key).1.pending := by
  unfold done
  dsimp only
  rw [if_pos hdirty]
  exact mem_pending_enqueue (h.release key) key

theorem dirty_done {key other : String} (h : queue.dirty.contains other = true)
    (hne : other ≠ key) : (queue.done key).1.dirty.contains other = true := by
  unfold done
  dsimp only
  split_ifs
  · rw [dirty_enqueue]
    simp [h, Ne.symm hne]
  · exact h

/-! ## Failures -/

/-- The failures have no bearing on the keys. -/
theorem Consistent.with_failures (h : queue.Consistent) (failures : SortedMap Nat) :
    { queue with failures }.Consistent :=
  ⟨h.nodup, h.queued_iff, h.not_inFlight, h.inFlight_of_dirty⟩

theorem Consistent.recordFailure (h : queue.Consistent) (key : String) :
    (queue.recordFailure key).2.Consistent := h.with_failures _

theorem Consistent.forget (h : queue.Consistent) (key : String) : (queue.forget key).Consistent :=
  h.with_failures _

end SliceControl.WorkQueue
