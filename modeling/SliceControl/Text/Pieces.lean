/-!
# Pieces of a text

A text is cut at every separator; there is one piece more than there are separators.
-/

namespace SliceControl.Text

/-- The pieces between the separators. -/
def pieces (separator : Char) : List Char → List (List Char)
  | [] => [[]]
  | character :: rest =>
    match pieces separator rest with
    | first :: more =>
      if character = separator then [] :: first :: more else (character :: first) :: more
    | [] => [[character]]

theorem length_pieces (separator : Char) (characters : List Char) :
    (pieces separator characters).length = characters.count separator + 1 := by
  induction characters with
  | nil => rfl
  | cons character rest ih =>
    rw [pieces]
    cases hpieces : pieces separator rest with
    | nil => simp [hpieces] at ih
    | cons first more =>
      rw [hpieces] at ih
      by_cases h : character = separator <;> simp_all

theorem pieces_ne_nil (separator : Char) (characters : List Char) :
    pieces separator characters ≠ [] := by
  intro none
  have count := length_pieces separator characters
  rw [none] at count
  cases count

theorem pieces_cons_self (separator : Char) (rest : List Char) :
    pieces separator (separator :: rest) = [] :: pieces separator rest := by
  rw [pieces]
  cases h : pieces separator rest with
  | nil => exact absurd h (pieces_ne_nil separator rest)
  | cons first more => simp

theorem pieces_cons_of_ne {separator character : Char} (other : character ≠ separator)
    {rest first : List Char} {more : List (List Char)} (h : pieces separator rest = first :: more) :
    pieces separator (character :: rest) = (character :: first) :: more := by
  simp [pieces, h, other]

/-- A text without separators is one piece. -/
theorem pieces_of_not_mem {separator : Char} {characters : List Char}
    (free : separator ∉ characters) : pieces separator characters = [characters] := by
  induction characters with
  | nil => rfl
  | cons character rest ih =>
    rw [List.mem_cons, not_or] at free
    exact pieces_cons_of_ne (Ne.symm free.1) (ih free.2)

/-- The first piece ends at the first separator. -/
theorem pieces_append_cons {separator : Char} {first : List Char} (free : separator ∉ first)
    (rest : List Char) :
    pieces separator (first ++ separator :: rest) = first :: pieces separator rest := by
  induction first with
  | nil => exact pieces_cons_self separator rest
  | cons character others ih =>
    rw [List.mem_cons, not_or] at free
    exact pieces_cons_of_ne (Ne.symm free.1) (ih free.2)

/-- A text consists of its pieces, with separators between them. -/
theorem intercalate_pieces (separator : Char) (characters : List Char) :
    [separator].intercalate (pieces separator characters) = characters := by
  induction characters with
  | nil => rfl
  | cons character rest ih =>
    obtain ⟨first, more, h⟩ := List.exists_cons_of_ne_nil (pieces_ne_nil separator rest)
    by_cases same : character = separator
    · subst same
      rw [pieces_cons_self, h]
      rw [h] at ih
      rw [← ih]
      rfl
    · rw [pieces_cons_of_ne same h, ← ih, h]
      cases more <;> rfl

end SliceControl.Text
