import SliceControl.Proofs.WorkQueue.History
import SliceControl.WorkQueue.Dispatch

/-!
# Callers that park

Callers that find no key park until a signal wakes them. However they come and go, and in whatever
order signals reach them, the queue behind them goes through a history of operations: parking and
signals have no effect on it, and a caller that takes a key makes one operation.
-/

namespace SliceControl

open WorkQueue

namespace Dispatch

variable {dispatch : Dispatch} {history : History}

/-! ## What leaves the queue alone -/

theorem queue_signal (dispatch : Dispatch) : dispatch.signal.queue = dispatch.queue := by
  unfold signal
  split <;> rfl

theorem queue_sendOwed (dispatch : Dispatch) : dispatch.sendOwed.queue = dispatch.queue := by
  unfold sendOwed
  split
  · rfl
  · exact queue_signal _

/-! ## Steps and operations -/

/-- What may happen to a queue with callers. -/
inductive Event where
  | arrive (caller : Nat)
  | leave (caller : Nat)
  | add (key : String)
  | done (caller : Nat) (key : String)
  /-- A caller that is not at rest goes on. -/
  | advance (caller : Nat) (phase : CallerPhase)
  | sendOwed

def perform (dispatch : Dispatch) : Event → Dispatch
  | .arrive caller => dispatch.arrive caller
  | .leave caller => dispatch.leave caller
  | .add key => dispatch.add key
  | .done _ key => dispatch.done key
  | .advance caller phase => dispatch.advance caller phase
  | .sendOwed => dispatch.sendOwed

/-- Where a list of events leads. -/
def performAll (dispatch : Dispatch) (events : List Event) : Dispatch :=
  events.foldl perform dispatch

theorem queue_advance_looking (dispatch : Dispatch) (caller : Nat)
    (hqueue : history.queue = dispatch.queue) :
    (dispatch.advance caller .looking).queue = (history.next caller).queue := by
  unfold advance History.next
  rw [hqueue]
  cases dispatch.queue.next? with
  | none => exact hqueue.symm
  | some found => rfl

/-- An event changes the queue by one operation, or not at all. -/
theorem queue_perform (event : Event) (hqueue : history.queue = dispatch.queue) :
    ∃ operations, (history.run operations).queue = (dispatch.perform event).queue := by
  cases event with
  | arrive caller => exact ⟨[], hqueue⟩
  | leave caller => exact ⟨[], hqueue⟩
  | add key => exact ⟨[.add key], congrArg (fun queue ↦ (queue.add key).1) hqueue⟩
  | done caller key => exact ⟨[.done caller key], congrArg (fun queue ↦ (queue.done key).1) hqueue⟩
  | sendOwed => exact ⟨[], hqueue.trans (queue_sendOwed dispatch).symm⟩
  | advance caller phase =>
    cases phase with
    | looking => exact ⟨[.next caller], (queue_advance_looking dispatch caller hqueue).symm⟩
    | parking =>
      refine ⟨[], hqueue.trans ?_⟩
      simp only [perform, advance]
      split_ifs <;> rfl
    | parked => exact ⟨[], hqueue⟩
    | signalling key => exact ⟨[], hqueue.trans (queue_signal dispatch).symm⟩
    | served key => exact ⟨[], hqueue⟩

/-- Whatever happens to a queue with callers, its keys go through a history of operations. -/
theorem queue_performAll (events : List Event) (hqueue : history.queue = dispatch.queue) :
    ∃ operations, (history.run operations).queue = (dispatch.performAll events).queue := by
  induction events generalizing dispatch history with
  | nil => exact ⟨[], hqueue⟩
  | cons event rest ih =>
    obtain ⟨first, hfirst⟩ := queue_perform event hqueue
    obtain ⟨others, hothers⟩ := ih hfirst
    refine ⟨first ++ others, ?_⟩
    rw [History.run, List.foldl_append]
    exact hothers

/-- The queue behind the callers stays consistent. -/
theorem consistent_queue_performAll (events : List Event) :
    (empty.performAll events).queue.Consistent := by
  have hstart : History.start.queue = empty.queue := rfl
  obtain ⟨operations, hqueue⟩ := queue_performAll events hstart
  rw [← hqueue]
  exact History.consistent_run consistent_empty operations

end Dispatch

end SliceControl
