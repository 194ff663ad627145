import SliceControl.Proofs.WorkQueue.History

/-!
# No key is worked on twice at once

A key is in flight from the moment it is handed out until somebody ends the work on it, whoever that
is, and a key in flight is not handed out. So each two hand-outs of a key have an end of the work
between them, and when workers only end the work on what they hold, a key has one holder at most.
-/

namespace SliceControl.WorkQueue

/-- A worker was handed a key and has not ended the work on it since. -/
def Holds (marks : List Mark) (worker : Nat) (key : String) : Prop :=
  Since marks (.handed worker key) (· = .ended worker key)

/-- A key was handed out to some worker, and nobody has ended the work on it since. -/
def InWork (marks : List Mark) (key : String) : Prop :=
  ∃ worker, Since marks (.handed worker key) (·.ended? = some key)

/-- Between two hand-outs of a key the work on it is ended. -/
def Separated (marks : List Mark) : Prop :=
  ∀ before between after first second key,
    marks = before ++ .handed first key :: (between ++ .handed second key :: after) →
      ∃ worker, .ended worker key ∈ between

/-- Workers end the work only on keys that they hold. -/
def Orderly (marks : List Mark) : Prop :=
  ∀ before after worker key, marks = before ++ .ended worker key :: after →
    Holds before worker key

section Records

variable {marks : List Mark} {mark : Mark} {worker : Nat} {key : String}

/-! ## One more mark -/

theorem holds_concat_iff : Holds (marks ++ [mark]) worker key ↔
    mark = .handed worker key ∨ Holds marks worker key ∧ mark ≠ .ended worker key :=
  since_concat_iff

theorem not_holds_nil : ¬Holds [] worker key := not_since_nil

theorem inWork_concat_iff : InWork (marks ++ [mark]) key ↔
    mark.handed? = some key ∨ InWork marks key ∧ mark.ended? ≠ some key := by
  calc InWork (marks ++ [mark]) key
      ↔ ∃ worker, mark = .handed worker key ∨
          Since marks (.handed worker key) (·.ended? = some key) ∧ mark.ended? ≠ some key :=
        exists_congr fun _ ↦ since_concat_iff
    _ ↔ (∃ worker, mark = .handed worker key) ∨ InWork marks key ∧ mark.ended? ≠ some key := by
        rw [exists_or, exists_and_right, InWork]
    _ ↔ mark.handed? = some key ∨ InWork marks key ∧ mark.ended? ≠ some key := by
        rw [Mark.handed?_eq_some_iff]

theorem not_inWork_nil : ¬InWork [] key := by
  rintro ⟨worker, hsince⟩
  exact not_since_nil hsince

theorem orderly_nil : Orderly [] := by
  intro before after worker key hmarks
  simp at hmarks

theorem orderly_concat_iff : Orderly (marks ++ [mark]) ↔
    Orderly marks ∧ ∀ worker key, mark = .ended worker key → Holds marks worker key := by
  constructor
  · intro horderly
    constructor
    · rintro before after worker key rfl
      apply horderly before (after ++ [mark]) worker key
      simp
    · rintro worker key rfl
      exact horderly marks [] worker key rfl
  · rintro ⟨horderly, hlast⟩ before after worker key hmarks
    rcases concat_eq_append_cons_iff.mp hmarks with ⟨rfl, hmark, -⟩ | ⟨rest, -, hrest⟩
    · exact hlast worker key hmark.symm
    · exact horderly before rest worker key hrest

theorem separated_nil : Separated [] := by
  intro before between after first second key hmarks
  simp at hmarks

/-- A record stays separated as long as what is handed out is not in work. -/
theorem separated_concat_iff : Separated (marks ++ [mark]) ↔
    Separated marks ∧ ∀ worker key, mark = .handed worker key → ¬InWork marks key := by
  constructor
  · intro hseparated
    constructor
    · rintro before between after first second key rfl
      apply hseparated before between (after ++ [mark]) first second key
      simp
    · rintro second key rfl ⟨first, before, between, rfl, hbetween⟩
      obtain ⟨worker, hended⟩ := hseparated before between [] first second key (by simp)
      exact hbetween _ hended rfl
  · rintro ⟨hseparated, hlast⟩ before between after first second key hmarks
    have hsplit : marks ++ [mark] =
        (before ++ .handed first key :: between) ++ .handed second key :: after := by
      simp [hmarks]
    rcases concat_eq_append_cons_iff.mp hsplit with ⟨hbefore, hmark, -⟩ | ⟨rest, -, hrest⟩
    · by_contra hnone
      apply hlast second key hmark.symm
      refine ⟨first, before, between, hbefore.symm, fun other hother hended ↦ hnone ?_⟩
      obtain ⟨worker, rfl⟩ := Mark.ended?_eq_some_iff.mp hended
      exact ⟨worker, hother⟩
    · apply hseparated before between rest first second key
      simp [hrest]

/-! ## Holders -/

/-- Only the holder of a key may end the work on it, so that the key is in work while it is held,
and nobody else holds it. -/
theorem inWork_and_unique_of_holds (hseparated : Separated marks) (horderly : Orderly marks) :
    (∀ worker key, Holds marks worker key → InWork marks key) ∧
      ∀ key first second, Holds marks first key → Holds marks second key → first = second := by
  induction marks using List.reverseRecOn with
  | nil => exact ⟨fun _ _ hholds ↦ absurd hholds not_holds_nil,
      fun _ _ _ hholds _ ↦ absurd hholds not_holds_nil⟩
  | append_singleton marks mark ih =>
    obtain ⟨hseparated, hhanded⟩ := separated_concat_iff.mp hseparated
    obtain ⟨horderly, hended⟩ := orderly_concat_iff.mp horderly
    obtain ⟨hwork, hunique⟩ := ih hseparated horderly
    -- A key that has just been handed out had no holder.
    have hfresh : ∀ worker other key, mark = .handed worker key → ¬Holds marks other key :=
      fun worker other key hmark hholds ↦ hhanded worker key hmark (hwork other key hholds)
    constructor
    · intro worker key hholds
      rcases holds_concat_iff.mp hholds with rfl | ⟨hheld, hkept⟩
      · exact inWork_concat_iff.mpr (.inl rfl)
      · apply inWork_concat_iff.mpr
        refine .inr ⟨hwork worker key hheld, fun hother ↦ hkept ?_⟩
        obtain ⟨other, hmark⟩ := Mark.ended?_eq_some_iff.mp hother
        rw [hmark, hunique key worker other hheld (hended other key hmark)]
    · intro key first second hfirst hsecond
      rcases holds_concat_iff.mp hfirst with hmark | ⟨hfirst, -⟩ <;>
        rcases holds_concat_iff.mp hsecond with hother | ⟨hsecond, -⟩
      · rw [hmark] at hother
        exact (Mark.handed.inj hother).1
      · exact absurd hsecond (hfresh first second key hmark)
      · exact absurd hfirst (hfresh second first key hother)
      · exact hunique key first second hfirst hsecond

end Records

/-! ## Runs -/

namespace History

/-- What a history has to keep so that no key is handed out while it is in work. -/
structure Exclusive (history : History) : Prop where
  consistent : history.queue.Consistent
  inFlight_iff : ∀ key, history.queue.inFlight.contains key = true ↔ InWork history.marks key
  separated : Separated history.marks

theorem exclusive_start : start.Exclusive where
  consistent := consistent_empty
  inFlight_iff := by
    intro key
    simp [start, empty, not_inWork_nil]
  separated := separated_nil

theorem Exclusive.step {history next : History} (h : history.Exclusive)
    (hmoves : history.Moves next) : next.Exclusive := by
  have hconsistent : next.queue.Consistent := hmoves.consistent h.consistent
  cases hmoves with
  | still failures hqueue hmarks =>
    refine ⟨hconsistent, ?_, ?_⟩
    · rw [hqueue, hmarks]
      exact h.inFlight_iff
    · rw [hmarks]
      exact h.separated
  | added key hqueue hmarks =>
    refine ⟨hconsistent, fun other ↦ ?_, ?_⟩
    · rw [hqueue, hmarks, inFlight_add, inWork_concat_iff]
      simpa [Mark.handed?, Mark.ended?] using h.inFlight_iff other
    · rw [hmarks]
      exact separated_concat_iff.mpr ⟨h.separated, by simp⟩
  | handed worker key more hnext hmarks =>
    refine ⟨hconsistent, fun other ↦ ?_, ?_⟩
    · rw [inFlight_next? hnext, hmarks, inWork_concat_iff]
      simpa [Mark.handed?, Mark.ended?] using or_congr_right (h.inFlight_iff other)
    · rw [hmarks]
      refine separated_concat_iff.mpr ⟨h.separated, ?_⟩
      rintro _ _ ⟨⟩ hwork
      have hidle := inFlight_of_next? h.consistent hnext
      rw [(h.inFlight_iff key).mpr hwork] at hidle
      exact absurd hidle (by decide)
  | ended worker key hqueue hmarks =>
    refine ⟨hconsistent, fun other ↦ ?_, ?_⟩
    · rw [hqueue, inFlight_done, hmarks, inWork_concat_iff]
      simpa [Mark.handed?, Mark.ended?, and_comm] using
        and_congr_right fun _ ↦ h.inFlight_iff other
    · rw [hmarks]
      exact separated_concat_iff.mpr ⟨h.separated, by simp⟩

theorem exclusive_after (operations : List Operation) : (start.run operations).Exclusive :=
  run_preserves (fun _ _ hbefore hmoves ↦ hbefore.step hmoves) exclusive_start operations

/-- Whatever is done with an empty queue, it stays consistent, the work on a key is ended between
any two hand-outs of the key, and no two workers hold a key at once if they only end the work on
what they hold. -/
theorem exclusive_run (operations : List Operation) :
    (start.run operations).queue.Consistent ∧ Separated (start.run operations).marks ∧
      (Orderly (start.run operations).marks →
        ∀ key first second, Holds (start.run operations).marks first key →
          Holds (start.run operations).marks second key → first = second) := by
  have hexclusive := exclusive_after operations
  refine ⟨hexclusive.consistent, hexclusive.separated, fun horderly ↦ ?_⟩
  exact (inWork_and_unique_of_holds hexclusive.separated horderly).2

/-- After the sample operations the second worker holds the key, so the first one does not. -/
theorem exclusive_run_sample :
    let history := start.run Sample.operations
    Orderly history.marks ∧ Holds history.marks 1 "team/job" ∧
      ¬Holds history.marks 0 "team/job" := by
  intro history
  have hmarks : history.marks =
      [] ++ [.added "team/job"] ++ [.handed 0 "team/job"] ++ [.added "team/job"] ++
        [.ended 0 "team/job"] ++ [.handed 1 "team/job"] := Sample.marks_run
  have horderly : Orderly history.marks := by
    rw [hmarks]
    simp only [orderly_concat_iff, holds_concat_iff]
    simp [orderly_nil]
  have hsecond : Holds history.marks 1 "team/job" := by
    rw [hmarks]
    exact holds_concat_iff.mpr (.inl rfl)
  refine ⟨horderly, hsecond, fun hfirst ↦ ?_⟩
  have hsame := (exclusive_run Sample.operations).2.2 horderly "team/job" 0 1 hfirst hsecond
  exact absurd hsame (by decide)

end History

end SliceControl.WorkQueue
