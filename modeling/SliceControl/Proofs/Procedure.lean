import SliceControl.Procedure

/-!
# Running procedures

A run goes through the requests of a procedure in order, so whatever every request that the
procedure may make keeps in force is in force after the run.
-/

namespace SliceControl.Procedure

variable {Request : Type} {Reply : Request → Type} {α β σ : Type}

theorem run_bind (world : World Request Reply σ) (procedure : Procedure Request Reply α)
    (next : α → Procedure Request Reply β) (state : σ) :
    (procedure >>= next).run world state =
      (next (procedure.run world state).1).run world (procedure.run world state).2 := by
  show (procedure.bind next).run world state = _
  induction procedure generalizing state with
  | done result => rfl
  | call request rest ih => exact ih _ _
  | sleep millis rest ih => exact ih _
  | clock rest ih => exact ih _ _

theorem run_call (world : World Request Reply σ) (request : Request)
    (next : Reply request → Procedure Request Reply α) (state : σ) :
    (call request next).run world state =
      (next (world.serve request state).1).run world (world.serve request state).2 := rfl

/-- A procedure that ends before it has to wait goes on with what follows it. -/
theorem runUntilSleep_bind {world : World Request Reply σ} {procedure : Procedure Request Reply α}
    (next : α → Procedure Request Reply β) {state after : σ} {result : α}
    (h : procedure.runUntilSleep world state = (.finished result, after)) :
    (procedure >>= next).runUntilSleep world state = (next result).runUntilSleep world after := by
  show (procedure.bind next).runUntilSleep world state = _
  induction procedure generalizing state with
  | done value =>
    cases h
    rfl
  | call request rest ih => exact ih _ h
  | sleep millis rest ih => cases h
  | clock rest ih => exact ih _ h

/-- A procedure that ends before it has to wait comes to the same as when it is run. -/
theorem run_of_runUntilSleep {world : World Request Reply σ} {procedure : Procedure Request Reply α}
    {state after : σ} {result : α}
    (h : procedure.runUntilSleep world state = (.finished result, after)) :
    procedure.run world state = (result, after) := by
  induction procedure generalizing state with
  | done value =>
    cases h
    rfl
  | call request next ih => exact ih _ h
  | sleep millis next ih => cases h
  | clock next ih => exact ih _ h

/-! ## What a procedure asks for -/

/-- Whatever the replies are, the procedure makes no other requests than those allowed. -/
def Asks (allowed : Request → Prop) : Procedure Request Reply α → Prop
  | done _ => True
  | call request next => allowed request ∧ ∀ reply, (next reply).Asks allowed
  | sleep _ next => next.Asks allowed
  | clock next => ∀ now, (next now).Asks allowed

theorem asks_bind {allowed : Request → Prop} {procedure : Procedure Request Reply α}
    {next : α → Procedure Request Reply β} (hfirst : procedure.Asks allowed)
    (hnext : ∀ result, (next result).Asks allowed) : (procedure >>= next).Asks allowed := by
  show (procedure.bind next).Asks allowed
  induction procedure with
  | done result => exact hnext result
  | call request rest ih => exact ⟨hfirst.1, fun reply ↦ ih reply (hfirst.2 reply)⟩
  | sleep millis rest ih => exact ih hfirst
  | clock rest ih => exact fun now ↦ ih now (hfirst now)

theorem asks_anything (procedure : Procedure Request Reply α) :
    procedure.Asks fun _ ↦ True := by
  induction procedure with
  | done result => trivial
  | call request rest ih => exact ⟨trivial, ih⟩
  | sleep millis rest ih => exact ih
  | clock rest ih => exact ih

/-- What every allowed request and every wait keeps in force holds after a run. -/
theorem run_preserves_of_asks {world : World Request Reply σ} (motive : σ → Prop)
    {allowed : Request → Prop}
    (hserve : ∀ request state, allowed request → motive state →
      motive (world.serve request state).2)
    (helapse : ∀ millis state, motive state → motive (world.elapse millis state))
    {procedure : Procedure Request Reply α} (hasks : procedure.Asks allowed) {state : σ}
    (h : motive state) : motive (procedure.run world state).2 := by
  induction procedure generalizing state with
  | done result => exact h
  | call request next ih => exact ih _ (hasks.2 _) (hserve request state hasks.1 h)
  | sleep millis next ih => exact ih hasks (helapse millis state h)
  | clock next ih => exact ih _ (hasks _) h

/-- What every request and every wait keeps in force holds after a run. -/
theorem run_preserves {world : World Request Reply σ} (motive : σ → Prop)
    (hserve : ∀ request state, motive state → motive (world.serve request state).2)
    (helapse : ∀ millis state, motive state → motive (world.elapse millis state))
    (procedure : Procedure Request Reply α) {state : σ} (h : motive state) :
    motive (procedure.run world state).2 :=
  run_preserves_of_asks motive (fun request state _ ↦ hserve request state) helapse
    procedure.asks_anything h

end SliceControl.Procedure
