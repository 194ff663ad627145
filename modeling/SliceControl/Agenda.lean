/-!
# Agendas

Things that are to happen at given times, in milliseconds. What falls due first happens first, and
of two things at one time the one that was entered first.
-/

namespace SliceControl

/-- Things to happen, each with its time, in the order in which they were entered. -/
structure Agenda (α : Type) where
  entries : List (Nat × α)

namespace Agenda

variable {α : Type}

def empty : Agenda α := ⟨[]⟩

/-- Enters a thing to happen at a time. -/
def schedule (agenda : Agenda α) (due : Nat) (thing : α) : Agenda α :=
  ⟨agenda.entries ++ [(due, thing)]⟩

/-- The earliest time of a list of entries. -/
def earliestOf : List (Nat × α) → Option Nat
  | [] => none
  | (due, _) :: rest =>
    match earliestOf rest with
    | some other => some (min due other)
    | none => some due

/-- The time of what happens next. -/
def earliest? (agenda : Agenda α) : Option Nat := earliestOf agenda.entries

/-- What happens at a time, and what is left. -/
def takeAt (agenda : Agenda α) (due : Nat) : List α × Agenda α :=
  ((agenda.entries.filter (·.1 = due)).map Prod.snd, ⟨agenda.entries.filter (·.1 ≠ due)⟩)

end Agenda

end SliceControl
