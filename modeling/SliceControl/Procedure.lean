import SliceControl.Time

/-!
# Procedures

A procedure is a computation that makes requests, waits, and asks for the time, written down as data
so that it can be carried out at once, or suspended while it waits and resumed later.
-/

namespace SliceControl

/-- A computation that makes requests, where `Reply request` is what a request is answered with. -/
inductive Procedure (Request : Type) (Reply : Request → Type) (α : Type) where
  | done (result : α)
  | call (request : Request) (next : Reply request → Procedure Request Reply α)
  | sleep (millis : Nat) (next : Procedure Request Reply α)
  | clock (next : Instant → Procedure Request Reply α)

/-- Whatever answers requests, lets time pass and tells the time. -/
structure World (Request : Type) (Reply : Request → Type) (σ : Type) where
  serve : (request : Request) → σ → Reply request × σ
  elapse : Nat → σ → σ
  now : σ → Instant

namespace Procedure

variable {Request : Type} {Reply : Request → Type} {α β σ : Type}

/-- Goes on with the result of a procedure. -/
def bind (procedure : Procedure Request Reply α) (next : α → Procedure Request Reply β) :
    Procedure Request Reply β :=
  match procedure with
  | done result => next result
  | call request rest => .call request fun reply => (rest reply).bind next
  | sleep millis rest => .sleep millis (rest.bind next)
  | clock rest => .clock fun instant => (rest instant).bind next

instance : Monad (Procedure Request Reply) where
  pure := .done
  bind := bind

/-- Makes one request. -/
def request (request : Request) : Procedure Request Reply (Reply request) := .call request .done

/-- Asks for the time. -/
def time : Procedure Request Reply Instant := .clock .done

/-- Carries out a procedure to its end. -/
def run (world : World Request Reply σ) : Procedure Request Reply α → σ → α × σ
  | done result, state => (result, state)
  | call request next, state =>
    let (reply, state) := world.serve request state
    (next reply).run world state
  | sleep millis next, state => next.run world (world.elapse millis state)
  | clock next, state => (next (world.now state)).run world state

/-- Where a procedure stands when it cannot go on at once. -/
inductive Stage (Request : Type) (Reply : Request → Type) (α : Type) where
  | finished (result : α)
  | asleep (millis : Nat) (rest : Procedure Request Reply α)

/-- Carries out a procedure until it ends or waits. -/
def runUntilSleep (world : World Request Reply σ) :
    Procedure Request Reply α → σ → Stage Request Reply α × σ
  | done result, state => (.finished result, state)
  | call request next, state =>
    let (reply, state) := world.serve request state
    (next reply).runUntilSleep world state
  | sleep millis next, state => (.asleep millis next, state)
  | clock next, state => (next (world.now state)).runUntilSleep world state

end Procedure

end SliceControl
