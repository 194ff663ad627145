import Mathlib.Data.List.Induction
import SliceControl.Agenda
import SliceControl.Proofs.WorkQueue.Consistency

/-!
# Histories of the work queue

Anything may be done with a work queue in any order: keys are added, at once or after a delay, any
number of workers ask for keys and end the work on them, and failures are counted. The queue is
locked during each of these operations, so that they come one after the other, and a worker that
finds no key asks again later. A history records the adds, the keys that are handed out and the
ends of work, the oldest first.
-/

namespace SliceControl.WorkQueue

/-- What may be done with a work queue. -/
inductive Operation where
  | add (key : String)
  | addAfter (key : String) (millis : Nat)
  /-- Time passes. -/
  | wait (millis : Nat)
  /-- One of the delayed adds is made, if it is due. -/
  | fire (index : Nat)
  /-- A worker asks for a key. -/
  | next (worker : Nat)
  | done (worker : Nat) (key : String)
  | recordFailure (key : String)
  | forget (key : String)

/-- What is recorded of an operation. -/
inductive Mark where
  | added (key : String)
  | handed (worker : Nat) (key : String)
  | ended (worker : Nat) (key : String)
  deriving DecidableEq

namespace Mark

/-- The key that was handed out. -/
def handed? : Mark → Option String
  | handed _ key => some key
  | _ => none

/-- The key on which the work was ended. -/
def ended? : Mark → Option String
  | ended _ key => some key
  | _ => none

theorem handed?_eq_some_iff {mark : Mark} {key : String} :
    mark.handed? = some key ↔ ∃ worker, mark = .handed worker key := by
  cases mark <;> simp [handed?]

theorem ended?_eq_some_iff {mark : Mark} {key : String} :
    mark.ended? = some key ↔ ∃ worker, mark = .ended worker key := by
  cases mark <;> simp [ended?]

end Mark

/-! ## Records -/

/-- Some mark `start` has been recorded, and none since then that stops it. -/
def Since (marks : List Mark) (start : Mark) (stop : Mark → Prop) : Prop :=
  ∃ before after, marks = before ++ start :: after ∧ ∀ mark ∈ after, ¬stop mark

/-- In a record that has grown by a mark, an entry is that mark or stood there before. -/
theorem concat_eq_append_cons_iff {marks before after : List Mark} {mark entry : Mark} :
    marks ++ [mark] = before ++ entry :: after ↔
      (before = marks ∧ entry = mark ∧ after = []) ∨
        ∃ rest, after = rest ++ [mark] ∧ marks = before ++ entry :: rest := by
  constructor
  · intro hmarks
    rcases List.eq_nil_or_concat' after with rfl | ⟨rest, last, rfl⟩
    · have hparts := List.append_inj' hmarks rfl
      exact .inl ⟨hparts.1.symm, (List.singleton_inj.mp hparts.2).symm, rfl⟩
    · have hsplit : marks ++ [mark] = (before ++ entry :: rest) ++ [last] := by
        rw [hmarks]
        simp
      have hparts := List.append_inj' hsplit rfl
      rw [List.singleton_inj.mp hparts.2]
      exact .inr ⟨rest, rfl, hparts.1⟩
  · rintro (⟨rfl, rfl, rfl⟩ | ⟨rest, rfl, rfl⟩)
    · rfl
    · simp

theorem since_concat_iff {marks : List Mark} {mark start : Mark} {stop : Mark → Prop} :
    Since (marks ++ [mark]) start stop ↔ mark = start ∨ Since marks start stop ∧ ¬stop mark := by
  constructor
  · rintro ⟨before, after, hmarks, hafter⟩
    rcases concat_eq_append_cons_iff.mp hmarks with ⟨-, rfl, -⟩ | ⟨rest, rfl, hrest⟩
    · exact .inl rfl
    · have hkept : ∀ other ∈ rest, ¬stop other := fun other hother ↦
        hafter other (List.mem_append_left _ hother)
      exact .inr ⟨⟨before, rest, hrest, hkept⟩, hafter mark (by simp)⟩
  · rintro (rfl | ⟨⟨before, after, rfl, hafter⟩, hmark⟩)
    · exact ⟨marks, [], rfl, by simp⟩
    · refine ⟨before, after ++ [mark], by simp, ?_⟩
      intro other hother
      rcases List.mem_append.mp hother with hother | hother
      · exact hafter other hother
      · rw [List.mem_singleton.mp hother]
        exact hmark

theorem not_since_nil {start : Mark} {stop : Mark → Prop} : ¬Since [] start stop := by
  rintro ⟨before, after, hmarks, -⟩
  simp at hmarks

/-! ## Histories -/

/-- A queue with its delayed adds, the time, and the record of what has happened to it. -/
structure History where
  queue : WorkQueue
  delayed : Agenda String
  elapsed : Nat
  marks : List Mark

namespace History

def start : History := ⟨.empty, .empty, 0, []⟩

/-- Keeps a changed queue and records why. -/
def note (history : History) (queue : WorkQueue) (mark : Mark) : History :=
  { history with queue, marks := history.marks ++ [mark] }

def add (history : History) (key : String) : History :=
  history.note (history.queue.add key).1 (.added key)

def fire (history : History) (index : Nat) : History :=
  match history.delayed.entries[index]? with
  | some (due, key) =>
    if due ≤ history.elapsed then
      { history with delayed := ⟨history.delayed.entries.eraseIdx index⟩ }.add key
    else history
  | none => history

def next (history : History) (worker : Nat) : History :=
  match history.queue.next? with
  | some (key, queue, _) => history.note queue (.handed worker key)
  | none => history

def perform (history : History) : Operation → History
  | .add key => history.add key
  | .addAfter key millis =>
    { history with delayed := history.delayed.schedule (history.elapsed + millis) key }
  | .wait millis => { history with elapsed := history.elapsed + millis }
  | .fire index => history.fire index
  | .next worker => history.next worker
  | .done worker key => history.note (history.queue.done key).1 (.ended worker key)
  | .recordFailure key => { history with queue := (history.queue.recordFailure key).2 }
  | .forget key => { history with queue := history.queue.forget key }

/-- Where a list of operations leads. -/
def run (history : History) (operations : List Operation) : History :=
  operations.foldl perform history

/-! ## What an operation can do -/

/-- An operation adds a key, hands one out, ends the work on one, or concerns no key. -/
inductive Moves (history next : History) : Prop where
  | still (failures : SortedMap Nat) (hqueue : next.queue = { history.queue with failures })
      (hmarks : next.marks = history.marks)
  | added (key : String) (hqueue : next.queue = (history.queue.add key).1)
      (hmarks : next.marks = history.marks ++ [.added key])
  | handed (worker : Nat) (key : String) (more : Bool)
      (hnext : history.queue.next? = some (key, next.queue, more))
      (hmarks : next.marks = history.marks ++ [.handed worker key])
  | ended (worker : Nat) (key : String) (hqueue : next.queue = (history.queue.done key).1)
      (hmarks : next.marks = history.marks ++ [.ended worker key])

variable {history : History}

theorem moves_perform (history : History) (operation : Operation) :
    history.Moves (history.perform operation) := by
  cases operation with
  | add key => exact .added key rfl rfl
  | addAfter key millis => exact .still history.queue.failures rfl rfl
  | wait millis => exact .still history.queue.failures rfl rfl
  | fire index =>
    show history.Moves (history.fire index)
    unfold fire
    split
    · split_ifs
      · exact .added _ rfl rfl
      · exact .still history.queue.failures rfl rfl
    · exact .still history.queue.failures rfl rfl
  | next worker =>
    show history.Moves (history.next worker)
    unfold next
    split
    case h_1 key queue more hnext => exact .handed worker key more hnext rfl
    case h_2 => exact .still history.queue.failures rfl rfl
  | done worker key => exact .ended worker key rfl rfl
  | recordFailure key => exact .still _ rfl rfl
  | forget key => exact .still _ rfl rfl

/-- What every single operation keeps in force holds after a run. -/
theorem run_preserves {motive : History → Prop}
    (hstep : ∀ history next, motive history → history.Moves next → motive next)
    (h : motive history) (operations : List Operation) : motive (history.run operations) := by
  induction operations generalizing history with
  | nil => exact h
  | cons operation rest ih => exact ih (hstep _ _ h (moves_perform history operation))

theorem Moves.consistent {next : History} (hmoves : history.Moves next)
    (h : history.queue.Consistent) : next.queue.Consistent := by
  cases hmoves with
  | still failures hqueue hmarks =>
    rw [hqueue]
    exact h.with_failures failures
  | added key hqueue hmarks =>
    rw [hqueue]
    exact h.add key
  | handed worker key more hnext hmarks => exact h.next? hnext
  | ended worker key hqueue hmarks =>
    rw [hqueue]
    exact h.done key

theorem consistent_run (h : history.queue.Consistent) (operations : List Operation) :
    (history.run operations).queue.Consistent :=
  run_preserves (fun _ _ hbefore hmoves ↦ hmoves.consistent hbefore) h operations

end History

namespace Sample

/-- A key is added again while a first worker works on it, and goes to a second worker after. -/
def operations : List Operation :=
  [.add "team/job", .next 0, .addAfter "team/job" 5, .wait 5, .fire 0, .next 1, .done 0 "team/job",
    .next 1]

/-- What is recorded of the sample operations. -/
def marks : List Mark :=
  [.added "team/job", .handed 0 "team/job", .added "team/job", .ended 0 "team/job",
    .handed 1 "team/job"]

theorem marks_run : (History.start.run operations).marks = marks := by decide +kernel

end Sample

end SliceControl.WorkQueue
