import SliceControl.Proofs.WorkQueue.History

/-!
# Adds and hand-outs

Many adds of a key may share one hand-out, but none is forgotten: as long as the key has not been
handed out since, it waits or it is dirty. A dirty key is in flight, and it waits again as soon as
the work on it is ended. Conversely each hand-out of a key uses up an add, and so does a key that
waits or is dirty.
-/

namespace SliceControl.WorkQueue

/-- How often a key was added. -/
def adds (marks : List Mark) (key : String) : Nat := marks.count (.added key)

/-- How often a key was handed out. -/
def handOuts (marks : List Mark) (key : String) : Nat := marks.countP (·.handed? = some key)

theorem adds_concat (marks : List Mark) (mark : Mark) (key : String) :
    adds (marks ++ [mark]) key = adds marks key + if mark = .added key then 1 else 0 := by
  simp [adds, List.count_singleton]

theorem handOuts_concat (marks : List Mark) (mark : Mark) (key : String) :
    handOuts (marks ++ [mark]) key =
      handOuts marks key + if mark.handed? = some key then 1 else 0 := by
  simp [handOuts, List.countP_singleton]

namespace History

variable {history next : History} {key : String}

/-! ## Every add is kept -/

/-- A key that was added and has not been handed out since waits or is dirty. -/
def Covers (history : History) (key : String) : Prop :=
  Since history.marks (.added key) (·.handed? = some key) → history.queue.Awaits key

theorem Covers.step (h : history.Covers key) (hconsistent : history.queue.Consistent)
    (hmoves : history.Moves next) : next.Covers key := by
  intro hsince
  cases hmoves with
  | still failures hqueue hmarks =>
    rw [hqueue]
    exact h (hmarks ▸ hsince)
  | added other hqueue hmarks =>
    rw [hqueue]
    apply (awaits_add_iff hconsistent).mpr
    rw [hmarks, since_concat_iff] at hsince
    rcases hsince with hmark | ⟨hsince, -⟩
    · exact .inl (Mark.added.inj hmark).symm
    · exact .inr (h hsince)
  | handed worker other more hnext hmarks =>
    rw [hmarks, since_concat_iff] at hsince
    rcases hsince with hmark | ⟨hsince, hother⟩
    · cases hmark
    · apply (awaits_next?_iff hconsistent hnext).mpr
      refine ⟨h hsince, fun hsame ↦ hother ?_⟩
      rw [hsame]
      rfl
  | ended worker other hqueue hmarks =>
    rw [hqueue]
    apply (awaits_done_iff hconsistent).mpr
    rw [hmarks, since_concat_iff] at hsince
    rcases hsince with hmark | ⟨hsince, -⟩
    · cases hmark
    · exact h hsince

/-! ## No hand-out comes from nowhere -/

/-- The hand-outs of a key, and one more if it waits or is dirty, do not exceed its adds. -/
def Counted (history : History) (key : String) : Prop :=
  handOuts history.marks key + (if history.queue.Awaits key then 1 else 0) ≤
    adds history.marks key

theorem Counted.step (h : history.Counted key) (hconsistent : history.queue.Consistent)
    (hmoves : history.Moves next) : next.Counted key := by
  unfold Counted at h ⊢
  cases hmoves with
  | still failures hqueue hmarks =>
    rw [hqueue, hmarks]
    exact h
  | added other hqueue hmarks =>
    rw [hqueue, hmarks, adds_concat, handOuts_concat]
    simp only [awaits_add_iff hconsistent, Mark.handed?, Mark.added.injEq, reduceCtorEq, if_false]
    by_cases hsame : other = key
    · rw [if_pos (.inl hsame.symm), if_pos hsame]
      omega
    · simp only [Ne.symm hsame, hsame, false_or, if_false]
      omega
  | handed worker other more hnext hmarks =>
    rw [hmarks, adds_concat, handOuts_concat]
    simp only [awaits_next?_iff hconsistent hnext, Mark.handed?, Option.some.injEq, reduceCtorEq,
      if_false]
    by_cases hsame : other = key
    · -- The key waited before it was handed out.
      have hawaits : history.queue.Awaits key := by
        obtain ⟨rest, hpending, -, -⟩ := next?_eq_some_iff.mp hnext
        exact .inl (by simp [hpending, hsame])
      rw [if_pos hawaits] at h
      simp only [hsame, ne_eq, not_true_eq_false, and_false, if_false, if_true]
      omega
    · simp only [Ne.symm hsame, hsame, ne_eq, not_false_eq_true, and_true, if_false]
      omega
  | ended worker other hqueue hmarks =>
    rw [hqueue, hmarks, adds_concat, handOuts_concat]
    simp only [awaits_done_iff hconsistent, Mark.handed?, reduceCtorEq, if_false]
    omega

/-! ## Dirty keys -/

/-- A key is in flight and has been added again meanwhile. -/
def IsDirty (history : History) (key : String) : Prop :=
  history.queue.inFlight.contains key = true ∧ history.queue.dirty.contains key = true

/-- Only the end of the work on a key takes its mark as dirty away. -/
theorem IsDirty.step (h : history.IsDirty key) (hmoves : history.Moves next)
    (hended : ∀ worker, next.marks ≠ history.marks ++ [.ended worker key]) : next.IsDirty key := by
  obtain ⟨hflight, hdirty⟩ := h
  cases hmoves with
  | still failures hqueue hmarks =>
    rw [IsDirty, hqueue]
    exact ⟨hflight, hdirty⟩
  | added other hqueue hmarks =>
    rw [IsDirty, hqueue, inFlight_add]
    exact ⟨hflight, dirty_add hdirty other⟩
  | handed worker other more hnext hmarks =>
    rw [IsDirty, inFlight_next? hnext, dirty_next? hnext]
    exact ⟨by simp [hflight], hdirty⟩
  | ended worker other hqueue hmarks =>
    have hne : key ≠ other := by
      rintro rfl
      exact hended worker hmarks
    rw [IsDirty, hqueue, inFlight_done]
    exact ⟨by simp [hflight, Ne.symm hne], dirty_done hdirty hne⟩

theorem eq_done_of_marks_perform {operation : Operation} {worker : Nat}
    (h : (history.perform operation).marks = history.marks ++ [.ended worker key]) :
    operation = .done worker key := by
  cases operation with
  | fire index =>
    simp only [perform, fire] at h
    split at h
    · split_ifs at h <;> simp [add, note] at h
    · simp at h
  | next other =>
    simp only [perform, History.next] at h
    split at h <;> simp [note] at h
  | done other ended => simpa [perform, note] using h
  | _ => simp [perform, add, note] at h

/-- A dirty key stays dirty until the work on it is ended, and then it waits. -/
theorem IsDirty.mem_pending (h : history.IsDirty key) (hconsistent : history.queue.Consistent)
    {later : List Operation} (hlater : ∀ worker, .done worker key ∉ later) (worker : Nat) :
    key ∈ ((history.run later).perform (.done worker key)).queue.pending := by
  induction later generalizing history with
  | nil => exact mem_pending_done hconsistent h.2
  | cons operation rest ih =>
    have hmoves := moves_perform history operation
    have hkept : (history.perform operation).IsDirty key := by
      apply h.step hmoves
      intro other hended
      apply hlater other
      rw [eq_done_of_marks_perform hended]
      exact List.mem_cons_self
    exact ih hkept (hmoves.consistent hconsistent)
      fun other hother ↦ hlater other (List.mem_cons_of_mem _ hother)

/-! ## Runs -/

theorem covers_and_counted_after (operations : List Operation) (key : String) :
    (start.run operations).Covers key ∧ (start.run operations).Counted key := by
  have hstart : start.queue.Consistent ∧ start.Covers key ∧ start.Counted key :=
    ⟨consistent_empty, fun hsince ↦ absurd hsince not_since_nil,
      by simp [Counted, handOuts, Awaits, start, empty]⟩
  have hstep : ∀ history next : History,
      history.queue.Consistent ∧ history.Covers key ∧ history.Counted key →
        history.Moves next → next.queue.Consistent ∧ next.Covers key ∧ next.Counted key := by
    rintro history next ⟨hconsistent, hcovers, hcounted⟩ hmoves
    exact ⟨hmoves.consistent hconsistent, hcovers.step hconsistent hmoves,
      hcounted.step hconsistent hmoves⟩
  exact (run_preserves hstep hstart operations).2

/-- Whatever is done with an empty queue, a key that was added has been handed out since, or it
waits, or it is dirty and waits as soon as the work on it is ended; and a key is handed out at most
as often as it was added. -/
theorem accounted_run (operations : List Operation) (key : String) :
    let history := start.run operations
    (∀ before after, history.marks = before ++ .added key :: after →
      (∃ worker, .handed worker key ∈ after) ∨ key ∈ history.queue.pending ∨
        (history.IsDirty key ∧
          ∀ later : List Operation, (∀ worker, .done worker key ∉ later) →
            ∀ worker, key ∈ ((history.run later).perform (.done worker key)).queue.pending)) ∧
      handOuts history.marks key ≤ adds history.marks key := by
  intro history
  obtain ⟨hcovers, hcounted⟩ := covers_and_counted_after operations key
  have hconsistent : history.queue.Consistent := consistent_run consistent_empty operations
  constructor
  · intro before after hmarks
    by_cases hhanded : ∃ worker, .handed worker key ∈ after
    · exact .inl hhanded
    · right
      have hsince : Since history.marks (.added key) (·.handed? = some key) := by
        refine ⟨before, after, hmarks, fun mark hmem hhand ↦ hhanded ?_⟩
        obtain ⟨worker, rfl⟩ := Mark.handed?_eq_some_iff.mp hhand
        exact ⟨worker, hmem⟩
      rcases hcovers hsince with hpending | hdirty
      · exact .inl hpending
      · have hboth : history.IsDirty key := ⟨hconsistent.inFlight_of_dirty key hdirty, hdirty⟩
        exact .inr ⟨hboth, fun later hlater worker ↦ hboth.mem_pending hconsistent hlater worker⟩
  · calc handOuts history.marks key
        ≤ handOuts history.marks key + (if history.queue.Awaits key then 1 else 0) :=
          Nat.le_add_right _ _
      _ ≤ adds history.marks key := hcounted

/-- After the first sample operations the key is dirty, and it will wait when the first worker is
done. -/
theorem accounted_run_sample :
    let history := start.run (Sample.operations.take 5)
    history.IsDirty "team/job" ∧
      "team/job" ∈ (history.perform (.done 0 "team/job")).queue.pending ∧
      handOuts history.marks "team/job" ≤ adds history.marks "team/job" := by
  intro history
  obtain ⟨hkept, hcount⟩ := accounted_run (Sample.operations.take 5) "team/job"
  have hmarks : history.marks =
      [.added "team/job", .handed 0 "team/job"] ++ .added "team/job" :: [] := by decide +kernel
  have hpending : "team/job" ∉ history.queue.pending := by decide +kernel
  rcases hkept _ _ hmarks with ⟨worker, hhanded⟩ | hwaits | ⟨hdirty, hwaits⟩
  · exact absurd hhanded List.not_mem_nil
  · exact absurd hwaits hpending
  · exact ⟨hdirty, hwaits [] (fun _ ↦ List.not_mem_nil) 0, hcount⟩

end History

end SliceControl.WorkQueue
