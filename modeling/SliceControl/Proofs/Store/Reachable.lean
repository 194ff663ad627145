import SliceControl.Proofs.Store.Mutation

/-!
# Stores that can be reached

An empty store changes by requests of clients, by requests of passes, and by slices that are
applied. Whatever has happened to it, it is consistent.
-/

namespace SliceControl

/-- An operation on the store: a change from outside, a request of a pass, or the application of a
slice. -/
inductive Operation where
  | mutate (mutation : Mutation)
  | serve (request : StoreRequest)
  | applySlice (slice : Slice)

/-- The store that an operation leaves, whether it succeeds or fails. -/
def Operation.perform (operation : Operation) (store : Store) (now : Instant) : Store :=
  match operation with
  | .mutate mutation => (mutation.effect store now).1
  | .serve request => (store.serve now request).store
  | .applySlice slice => (store.applySlice slice now).store

namespace Store

/-- The store after a run of operations, each at its own moment. -/
def performAll (store : Store) (run : List (Operation × Instant)) : Store :=
  run.foldl (fun store step ↦ step.1.perform store step.2) store

theorem performAll_append (store : Store) (first second : List (Operation × Instant)) :
    store.performAll (first ++ second) = (store.performAll first).performAll second :=
  List.foldl_append

/-- What becomes of an empty store. -/
inductive Reachable : Store → Prop where
  | empty : Reachable .empty
  | mutate {store : Store} (h : Reachable store) (mutation : Mutation) (now : Instant) :
      Reachable (mutation.effect store now).1
  | serve {store : Store} (h : Reachable store) (request : StoreRequest) (now : Instant) :
      Reachable (store.serve now request).store
  | applySlice {store : Store} (h : Reachable store) (slice : Slice) (now : Instant) :
      Reachable (store.applySlice slice now).store

/-- The store after changes from outside, each at its own moment. -/
def mutateAll (store : Store) (changes : List (Mutation × Instant)) : Store :=
  changes.foldl (fun store change ↦ (change.1.effect store change.2).1) store

variable {store : Store} {key : String}

theorem Consistent.serve (h : store.Consistent) (request : StoreRequest) (now : Instant) :
    (store.serve now request).store.Consistent := by
  cases request with
  | createSlice slice => exact h.insertSlice slice now
  | deleteSlice name => exact h.removeSlice name
  | updateCheck key check => exact h.updateCheck key check
  | _ => exact h

theorem Consistent.applySlice (h : store.Consistent) (slice : Slice) (now : Instant) :
    (store.applySlice slice now).store.Consistent := by
  unfold Store.applySlice
  split
  · split_ifs
    · exact h
    · exact h
  · exact h.insertSlice slice now

namespace Reachable

theorem consistent (h : store.Reachable) : store.Consistent := by
  induction h with
  | empty => exact consistent_empty
  | mutate _ mutation now ih => exact ih.effect mutation now
  | serve _ request now ih => exact ih.serve request now
  | applySlice _ slice now ih => exact ih.applySlice slice now

theorem mutateAll (h : store.Reachable) (changes : List (Mutation × Instant)) :
    (store.mutateAll changes).Reachable := by
  induction changes generalizing store with
  | nil => exact h
  | cons change rest ih => exact ih (h.mutate change.1 change.2)

theorem carryAll (h : store.Reachable) (steps : List (Write × Instant)) :
    (store.carryAll key steps).Reachable := by
  induction steps generalizing store with
  | nil => exact h
  | cons step rest ih => exact ih (h.serve (step.1.request key) step.2)

theorem perform (h : store.Reachable) (operation : Operation) (now : Instant) :
    (operation.perform store now).Reachable := by
  cases operation with
  | mutate mutation => exact h.mutate mutation now
  | serve request => exact h.serve request now
  | applySlice slice => exact h.applySlice slice now

theorem performAll (h : store.Reachable) (run : List (Operation × Instant)) :
    (store.performAll run).Reachable := by
  induction run generalizing store with
  | nil => exact h
  | cons step rest ih => exact ih (h.perform step.1 step.2)

end Reachable

/-- A store can be reached just if some run of operations on the empty store ends with it. -/
theorem reachable_iff : store.Reachable ↔ ∃ run, Store.empty.performAll run = store := by
  constructor
  · have hstep {before : Store} (operation : Operation) (now : Instant)
        (h : ∃ run, Store.empty.performAll run = before) :
        ∃ run, Store.empty.performAll run = operation.perform before now := by
      obtain ⟨run, rfl⟩ := h
      exact ⟨run ++ [(operation, now)], performAll_append _ run _⟩
    intro h
    induction h with
    | empty => exact ⟨[], rfl⟩
    | mutate _ mutation now ih => exact hstep (.mutate mutation) now ih
    | serve _ request now ih => exact hstep (.serve request) now ih
    | applySlice _ slice now ih => exact hstep (.applySlice slice) now ih
  · rintro ⟨run, rfl⟩
    exact Reachable.empty.performAll run

end Store

end SliceControl
