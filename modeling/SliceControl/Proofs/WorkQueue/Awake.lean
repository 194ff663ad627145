import SliceControl.Proofs.WorkQueue.Order
import SliceControl.Proofs.WorkQueue.Waking
import SliceControl.WorkQueue.Timed

/-!
# No caller sleeps next to work

Any number of callers ask for keys while keys are added, at once or after a delay, and the work on
them ends. Their steps are interleaved in any order, and what cannot happen in a state changes
nothing. Once every operation has completed or is parked, no caller is parked while a key waits, and
the keys have been handed out in the order in which they were put in line.
-/

namespace SliceControl.TimedQueue

open Dispatch (AtRest joining handing)

/-- What may happen next. -/
inductive Move where
  | event (event : Dispatch.Event)
  | addAfter (key : String) (millis : Nat)
  /-- Time passes. -/
  | wait (millis : Nat)
  /-- One of the delayed adds is made, if it is due. -/
  | makeDue (index : Nat)

def makeDue (timed : TimedQueue) (index : Nat) : TimedQueue :=
  match timed.agenda.entries[index]? with
  | some (due, key) =>
    if due ≤ timed.elapsed then
      { timed with
        dispatch := timed.dispatch.add key
        agenda := ⟨timed.agenda.entries.eraseIdx index⟩ }
    else timed
  | none => timed

def move (timed : TimedQueue) : Move → TimedQueue
  | .event event =>
    if timed.dispatch.Admits event then { timed with dispatch := timed.dispatch.perform event }
    else timed
  | .addAfter key millis =>
    { timed with agenda := timed.agenda.schedule (timed.elapsed + millis) key }
  | .wait millis => { timed with elapsed := timed.elapsed + millis }
  | .makeDue index => timed.makeDue index

/-- Where a list of moves leads. -/
def run (timed : TimedQueue) (moves : List Move) : TimedQueue := moves.foldl move timed

/-- The keys that are put in line during a run, in the order in which this happens. -/
def joined (timed : TimedQueue) : List Move → List String
  | [] => []
  | move :: rest =>
    joining timed.dispatch (timed.move move).dispatch ++ (timed.move move).joined rest

/-- The keys that are handed out during a run, in the order in which this happens, each with its
caller. -/
def handed (timed : TimedQueue) : List Move → List (Nat × String)
  | [] => []
  | move :: rest =>
    handing timed.dispatch (timed.move move).dispatch ++ (timed.move move).handed rest

variable {timed : TimedQueue}

/-! ## What every move keeps -/

/-- What holds of the callers at any time. -/
structure Sound (timed : TimedQueue) : Prop where
  consistent : timed.dispatch.Consistent
  notices : timed.dispatch.Notices

theorem sound_empty : empty.Sound := ⟨Dispatch.consistent_empty, .empty rfl⟩

theorem Sound.step_move (h : timed.Sound) (move : Move) :
    timed.dispatch.Step (timed.move move).dispatch := by
  cases move with
  | event event =>
    unfold TimedQueue.move
    dsimp only
    split_ifs with hadmits
    · exact Dispatch.step_perform h.consistent.queue hadmits
    · exact .still rfl
  | addAfter key millis => exact .still rfl
  | wait millis => exact .still rfl
  | makeDue index =>
    show timed.dispatch.Step (timed.makeDue index).dispatch
    unfold makeDue
    split
    · split_ifs
      · exact Dispatch.step_perform h.consistent.queue
          (show timed.dispatch.Admits (.add _) from trivial)
      · exact .still rfl
    · exact .still rfl

theorem Sound.move (h : timed.Sound) (move : Move) : (timed.move move).Sound :=
  ⟨h.consistent.step (h.step_move move), h.notices.step h.consistent (h.step_move move)⟩

theorem Sound.run (h : timed.Sound) (moves : List Move) : (timed.run moves).Sound := by
  induction moves generalizing timed with
  | nil => exact h
  | cons move rest ih => exact ih (h.move move)

/-- The line at first, together with the keys that join it during a run, is what is handed out and
the line at the end. -/
theorem Sound.pending_append_joined (h : timed.Sound) (moves : List Move) :
    timed.dispatch.queue.pending ++ timed.joined moves =
      (timed.handed moves).map Prod.snd ++ (timed.run moves).dispatch.queue.pending := by
  induction moves generalizing timed with
  | nil => simp [joined, handed, TimedQueue.run]
  | cons move rest ih =>
    have hstep : timed.dispatch.KeepsOrder (timed.move move).dispatch :=
      h.consistent.keepsOrder (h.step_move move)
    have hrest := ih (h.move move)
    unfold Dispatch.KeepsOrder at hstep
    calc timed.dispatch.queue.pending ++ timed.joined (move :: rest)
        = (timed.dispatch.queue.pending ++ joining timed.dispatch (timed.move move).dispatch) ++
            (timed.move move).joined rest := (List.append_assoc _ _ _).symm
      _ = (handing timed.dispatch (timed.move move).dispatch).map Prod.snd ++
            ((timed.move move).dispatch.queue.pending ++ (timed.move move).joined rest) := by
          rw [hstep, List.append_assoc]
      _ = (timed.handed (move :: rest)).map Prod.snd ++
            (timed.run (move :: rest)).dispatch.queue.pending := by
          rw [hrest, ← List.append_assoc, ← List.map_append]
          rfl

/-- Letting the callers settle is a run of its own. -/
theorem exists_run_eq_settle (timed : TimedQueue) :
    ∃ moves, timed.run moves = { timed with dispatch := timed.dispatch.settle } := by
  unfold Dispatch.settle
  generalize timed.dispatch.stepBound = fuel
  induction fuel generalizing timed with
  | zero => exact ⟨[], rfl⟩
  | succ fuel ih =>
    unfold Dispatch.runSteps
    cases hstep : timed.dispatch.step? with
    | none => exact ⟨[], rfl⟩
    | some next =>
      obtain ⟨event, hadmits, rfl⟩ := Dispatch.exists_admits_of_step? hstep
      let after : TimedQueue := { timed with dispatch := timed.dispatch.perform event }
      have hmove : timed.move (.event event) = after := if_pos hadmits
      obtain ⟨moves, hmoves⟩ := ih after
      refine ⟨.event event :: moves, ?_⟩
      rw [run, List.foldl_cons, hmove]
      exact hmoves

/-- However the steps of callers, adds, ends of work and delayed adds are interleaved: once every
operation has completed or is parked, no caller is parked while a key waits; and this comes about
by the steps of what is under way alone. The keys that were handed out, followed by those that wait,
stand in the order in which they were put in line. -/
theorem awake_and_ordered_run (moves : List Move) :
    ((empty.run moves).dispatch.AtRest →
      ∀ key ∈ (empty.run moves).dispatch.queue.pending, ∀ caller,
        (caller, .parked) ∉ (empty.run moves).dispatch.callers) ∧
    ((empty.run moves).dispatch.settle.AtRest ∧
      ∃ later, (empty.run (moves ++ later)).dispatch = (empty.run moves).dispatch.settle) ∧
    (empty.handed moves).map Prod.snd ++ (empty.run moves).dispatch.queue.pending =
      empty.joined moves := by
  have hsound := sound_empty.run moves
  refine ⟨?_, ⟨hsound.consistent.atRest_settle, ?_⟩, ?_⟩
  · intro hrest key hkey caller
    exact hsound.notices.not_parked hsound.consistent hrest hkey caller
  · obtain ⟨later, hlater⟩ := exists_run_eq_settle (empty.run moves)
    refine ⟨later, ?_⟩
    rw [run, List.foldl_append]
    exact congrArg dispatch hlater
  · exact (sound_empty.pending_append_joined moves).symm

namespace Sample

/-- Two keys are put in line while two callers are about to park, and the two signals come down to
one permit. The caller that takes the permit wakes the other one; a delayed key comes in late. -/
def moves : List Move :=
  [.event (.arrive 0), .event (.arrive 1), .event (.advance 0 .looking),
    .event (.advance 1 .looking), .addAfter "late" 5, .event (.add "first"),
    .event (.add "second"), .event .sendOwed, .event .sendOwed, .event (.advance 1 .parking),
    .event (.advance 0 .parking), .wait 5, .event (.advance 1 .looking),
    .event (.advance 1 (.signalling "first")), .event (.advance 0 .looking), .makeDue 0,
    .event .sendOwed, .event (.done 1 "first"), .event (.leave 1)]

end Sample

theorem awake_and_ordered_run_sample :
    let dispatch := (empty.run Sample.moves).dispatch
    dispatch.queue.pending = ["late"] ∧ dispatch.AtRest ∧
      (∀ caller, (caller, .parked) ∉ dispatch.callers) ∧
      empty.handed Sample.moves = [(1, "first"), (0, "second")] ∧
      empty.joined Sample.moves = ["first", "second", "late"] := by
  intro dispatch
  have hpending : dispatch.queue.pending = ["late"] := by decide +kernel
  have hrest : dispatch.AtRest := by decide +kernel
  have hhanded : empty.handed Sample.moves = [(1, "first"), (0, "second")] := by decide +kernel
  obtain ⟨hawake, -, horder⟩ := awake_and_ordered_run Sample.moves
  have hlate : "late" ∈ dispatch.queue.pending := by
    rw [hpending]
    exact List.mem_singleton.mpr rfl
  refine ⟨hpending, hrest, hawake hrest "late" hlate, hhanded, ?_⟩
  calc empty.joined Sample.moves
      = (empty.handed Sample.moves).map Prod.snd ++ dispatch.queue.pending := horder.symm
    _ = ["first", "second", "late"] := by
        rw [hhanded, hpending]
        rfl

/-! ## Settling after each change -/

/-- What holds while nothing is under way. -/
structure Settled (timed : TimedQueue) : Prop extends Sound timed where
  atRest : timed.dispatch.AtRest

theorem Sound.act (h : timed.Sound) {change : Dispatch → Dispatch}
    (hstep : timed.dispatch.Step (change timed.dispatch)) : (timed.act change).Settled := by
  let changed : TimedQueue := { timed with dispatch := change timed.dispatch }
  have hchanged : changed.Sound :=
    ⟨h.consistent.step hstep, h.notices.step h.consistent hstep⟩
  obtain ⟨moves, hmoves⟩ := exists_run_eq_settle changed
  have hsettled : (timed.act change).Sound := by
    have hrun := hchanged.run moves
    rw [hmoves] at hrun
    exact hrun
  exact ⟨hsettled, hchanged.consistent.atRest_settle⟩

theorem Settled.add (h : timed.Settled) (key : String) : (timed.act (·.add key)).Settled :=
  h.act (Dispatch.step_perform h.consistent.queue
    (show timed.dispatch.Admits (.add key) from trivial))

theorem Settled.fire (h : timed.Settled) (due : Nat) : (timed.fire due).Settled := by
  have hadds : ∀ (keys : List String) (start : TimedQueue), start.Settled →
      (keys.foldl (fun timed key ↦ timed.act (·.add key)) start).Settled := by
    intro keys
    induction keys with
    | nil => exact fun _ hstart ↦ hstart
    | cons key rest ih => exact fun start hstart ↦ ih _ (hstart.add key)
  exact hadds _ _ ⟨⟨h.consistent, h.notices⟩, h.atRest⟩

theorem Settled.moveTo (h : timed.Settled) (target fuel : Nat) :
    (moveTo target fuel timed).Settled := by
  induction fuel generalizing timed with
  | zero => exact ⟨⟨h.consistent, h.notices⟩, h.atRest⟩
  | succ fuel ih =>
    unfold TimedQueue.moveTo
    split
    · split_ifs
      · exact ih (h.fire _)
      · exact ⟨⟨h.consistent, h.notices⟩, h.atRest⟩
    · exact ⟨⟨h.consistent, h.notices⟩, h.atRest⟩

theorem Settled.advance (h : timed.Settled) (millis : Nat) : (timed.advance millis).Settled :=
  h.moveTo _ _

theorem Settled.addAfter (h : timed.Settled) (key : String) (millis : Nat) :
    (timed.addAfter key millis).Settled := by
  have hscheduled : Settled { timed with
      agenda := timed.agenda.schedule (timed.elapsed + millis) key } :=
    ⟨⟨h.consistent, h.notices⟩, h.atRest⟩
  exact hscheduled.advance 0

/-- Delayed adds and the passing of time leave no caller asleep next to work. -/
theorem Settled.not_parked (h : timed.Settled) {key : String}
    (hkey : key ∈ timed.dispatch.queue.pending) (caller : Nat) :
    (caller, .parked) ∉ timed.dispatch.callers :=
  h.notices.not_parked h.consistent h.atRest hkey caller

end SliceControl.TimedQueue
