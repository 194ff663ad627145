import Mathlib.Data.List.Induction
import SliceControl.Proofs.Topology.Shape

/-!
# Spellings of shapes

A shape is spelled as three numerals joined by the letter `x`. Numerals are runs of ASCII digits,
perhaps with leading zeros; a sign or a digit of another script is none. A text is read just if it
spells a part of a cube or a block of whole cubes, and what is written reads back.
-/

namespace SliceControl

open Text

/-! ## Numerals -/

/-- A numeral stands for a number: it is a digit, or a numeral with one more digit at its end. -/
inductive Text.Numeral.Denotes : List Char → Nat → Prop
  | digit {last : Char} (hlast : '0' ≤ last ∧ last ≤ '9') :
      Denotes [last] (last.toNat - '0'.toNat)
  | append {run : List Char} {number : Nat} (hrun : Denotes run number) {last : Char}
      (hlast : '0' ≤ last ∧ last ≤ '9') :
      Denotes (run ++ [last]) (10 * number + (last.toNat - '0'.toNat))

namespace Text.Numeral

variable {characters : List Char} {number : Nat}

theorem isDigit_iff {character : Char} :
    character.isDigit = true ↔ '0' ≤ character ∧ character ≤ '9' := by
  simp [Char.isDigit, Char.le_def]

theorem value_singleton (last : Char) : value [last] = last.toNat - '0'.toNat := Nat.zero_add _

theorem value_append_singleton (run : List Char) (last : Char) :
    value (run ++ [last]) = 10 * value run + (last.toNat - '0'.toNat) := by
  rw [value, Nat.ofDigitChars_append]
  rfl

theorem isRun_append_singleton_iff {run : List Char} {last : Char} :
    isRun (run ++ [last]) = true ↔ (run = [] ∨ isRun run = true) ∧ last.isDigit = true := by
  cases run <;> simp [isRun, and_assoc]

/-- Just the runs of digits are numerals, and they stand for their values. -/
theorem denotes_iff : Denotes characters number ↔
    isRun characters = true ∧ value characters = number := by
  constructor
  · intro h
    induction h with
    | digit hlast => exact ⟨by simpa [isRun] using isDigit_iff.mpr hlast, value_singleton _⟩
    | append hrun hlast ih =>
      rw [value_append_singleton, ih.2]
      exact ⟨isRun_append_singleton_iff.mpr ⟨.inr ih.1, isDigit_iff.mpr hlast⟩, rfl⟩
  · rintro ⟨hrun, rfl⟩
    induction characters using List.reverseRecOn with
    | nil => cases hrun
    | append_singleton run last ih =>
      obtain ⟨hbefore, hlast⟩ := isRun_append_singleton_iff.mp hrun
      rcases hbefore with rfl | hbefore
      · rw [List.nil_append, value_singleton]
        exact .digit (isDigit_iff.mp hlast)
      · rw [value_append_singleton]
        exact .append (ih hbefore) (isDigit_iff.mp hlast)

theorem denotes_digits (number : Nat) : Denotes (digits number) number :=
  denotes_iff.mpr ⟨isRun_digits number, value_digits number⟩

/-- No letter occurs in a numeral. -/
theorem Denotes.not_mem_x (h : Denotes characters number) : 'x' ∉ characters := by
  induction h with
  | digit hlast =>
    intro hx
    rw [← List.mem_singleton.mp hx] at hlast
    exact absurd hlast (by decide)
  | append hrun hlast ih =>
    intro hx
    rcases List.mem_append.mp hx with hx | hx
    · exact ih hx
    · rw [← List.mem_singleton.mp hx] at hlast
      exact absurd hlast (by decide)

end Text.Numeral

/-! ## Dimensions -/

/-- A text spells dimensions if it consists of numerals for them, each of 32 bits, with the letter
`x` between them. -/
inductive Dims.IsSpelledBy (dims : Dims) (text : String) : Prop
  | joined {first second third : List Char}
      (htext : text.toList = first ++ 'x' :: (second ++ 'x' :: third))
      (hx : Numeral.Denotes first dims.x ∧ dims.x ≤ Numeral.max32)
      (hy : Numeral.Denotes second dims.y ∧ dims.y ≤ Numeral.max32)
      (hz : Numeral.Denotes third dims.z ∧ dims.z ≤ Numeral.max32)

namespace Topology

variable {text : String} {dims : Dims} {topology : Topology}

theorem readDimension_eq_ok_iff {index : Nat} {token : List Char} {dimension : Nat} :
    readDimension index token = .ok dimension ↔
      Numeral.Denotes token dimension ∧ dimension ≤ Numeral.max32 := by
  rw [Numeral.denotes_iff, ← Numeral.read?_eq_some_iff]
  unfold readDimension
  cases Numeral.read? token with
  | none => simp
  | some number =>
    dsimp only
    split_ifs with hfits
    · simp only [Except.ok.injEq, Option.some.injEq]
      constructor
      · rintro rfl
        exact ⟨rfl, hfits⟩
      · exact And.left
    · simp only [Option.some.injEq, false_iff, not_and]
      rintro rfl
      exact hfits

theorem readDims_eq_ok_iff : readDims text = .ok dims ↔ dims.IsSpelledBy text := by
  unfold readDims
  constructor
  · intro h
    split at h
    · next first second third hpieces =>
      obtain ⟨x, hx, h⟩ := bind_eq_ok_iff.mp h
      obtain ⟨y, hy, h⟩ := bind_eq_ok_iff.mp h
      obtain ⟨z, hz, h⟩ := bind_eq_ok_iff.mp h
      cases h
      have htext : first ++ 'x' :: (second ++ 'x' :: third) = text.toList := by
        rw [← intercalate_pieces 'x' text.toList, hpieces]
        simp [List.intercalate]
      exact .joined htext.symm (readDimension_eq_ok_iff.mp hx) (readDimension_eq_ok_iff.mp hy)
        (readDimension_eq_ok_iff.mp hz)
    · cases h
  · rintro ⟨htext, hx, hy, hz⟩
    rw [htext, pieces_append_cons hx.1.not_mem_x, pieces_append_cons hy.1.not_mem_x,
      pieces_of_not_mem hz.1.not_mem_x]
    dsimp only
    rw [readDimension_eq_ok_iff.mpr hx, readDimension_eq_ok_iff.mpr hy,
      readDimension_eq_ok_iff.mpr hz]
    rfl

/-- A part of a cube is no block of whole cubes, so that the dimensions determine the class. -/
theorem not_isBlock_of_mem (h : dims ∈ subsliceShapes) : ¬dims.IsBlock := by
  intro hblock
  have hparts : ∀ dims ∈ subsliceShapes, ¬cubeEdge ∣ dims.x := by decide
  exact hparts dims h hblock.multiple.1

theorem ofDims_eq_ok_iff :
    ofDims dims = .ok topology ↔ topology.dims = dims ∧ topology.IsValid := by
  constructor
  · intro h
    refine ⟨?_, isValid_of_ofDims h⟩
    unfold ofDims at h
    split_ifs at h
    · cases h
      rfl
    · split at h <;> cases h
      rfl
  · rintro ⟨rfl, h⟩
    obtain ⟨dims, sizeClass⟩ := topology
    unfold ofDims
    cases sizeClass with
    | subslice => exact if_pos h
    | superslice =>
      have hblock : dims.IsBlock := h
      rw [if_neg fun hpart ↦ not_isBlock_of_mem hpart hblock, blockFault?_eq_none_iff.mpr hblock]

/-- Just the spellings of shapes that can be provided are read. -/
theorem parse_eq_ok_iff :
    parse text = .ok topology ↔ topology.dims.IsSpelledBy text ∧ topology.IsValid := by
  have hread : parse text = .ok topology ↔ (readDims text >>= ofDims) = .ok topology := by
    unfold parse
    cases readDims text >>= ofDims <;> simp
  rw [hread, bind_eq_ok_iff]
  constructor
  · rintro ⟨dims, hdims, h⟩
    obtain ⟨rfl, hvalid⟩ := ofDims_eq_ok_iff.mp h
    exact ⟨readDims_eq_ok_iff.mp hdims, hvalid⟩
  · rintro ⟨hspelled, hvalid⟩
    exact ⟨_, readDims_eq_ok_iff.mpr hspelled, ofDims_eq_ok_iff.mpr ⟨rfl, hvalid⟩⟩

theorem classify_class_eq_none_iff :
    (classify text).2.1 = none ↔ ∃ error, parse text = .error error := by
  unfold classify
  cases parse text <;> simp

/-- The form in which a shape is written is one of its spellings. -/
theorem isSpelledBy_write (h : topology.IsValid) : topology.dims.IsSpelledBy topology.write := by
  obtain ⟨hx, hy, hz⟩ := dims_le h
  have hmax : 24 ≤ Numeral.max32 := by decide
  have htext : topology.write.toList = Numeral.digits topology.dims.x ++
      'x' :: (Numeral.digits topology.dims.y ++ 'x' :: Numeral.digits topology.dims.z) := by
    simp [write, Dims.write]
  exact .joined htext ⟨Numeral.denotes_digits _, by omega⟩
    ⟨Numeral.denotes_digits _, by omega⟩ ⟨Numeral.denotes_digits _, by omega⟩

/-- A text is read just if three numerals of 32 bits, joined by the letter `x`, spell a part of a
cube or a block of whole cubes in it; the dimensions are those numbers, and the class is the
matching one. Otherwise the text has no class. What has been read is read back from its written
form, it occupies at least one unit, and its chips are the chips of its units, in 32 bits. -/
theorem parse_reads_spellings (text : String) :
    (∀ topology, parse text = .ok topology ↔
      topology.dims.IsSpelledBy text ∧ topology.IsValid) ∧
    ((classify text).2.1 = none ↔ ∃ error, parse text = .error error) ∧
    ∀ topology, parse text = .ok topology →
      parse topology.write = .ok topology ∧ 1 ≤ topology.cubes ∧
        topology.chips = topology.cubes * topology.unitChips ∧ topology.FitsWords := by
  refine ⟨fun topology ↦ parse_eq_ok_iff, classify_class_eq_none_iff, fun topology h ↦ ?_⟩
  have hvalid : topology.IsValid := isValid_of_parse h
  exact ⟨parse_eq_ok_iff.mpr ⟨isSpelledBy_write hvalid, hvalid⟩, cubes_pos hvalid,
    (cubes_mul_unitChips hvalid).symm, hvalid.fitsWords⟩

/-- Leading zeros are read and not written again. -/
theorem parse_reads_spellings_sample :
    let topology : Topology := ⟨⟨4, 8, 16⟩, .superslice⟩
    parse "004x8x0016" = .ok topology ∧ topology.write = "4x8x16" ∧
      parse topology.write = .ok topology ∧
      topology.chips = topology.cubes * topology.unitChips := by
  intro topology
  have hparse : parse "004x8x0016" = .ok topology := by decide +kernel
  obtain ⟨hback, -, hchips, -⟩ := (parse_reads_spellings "004x8x0016").2.2 topology hparse
  exact ⟨hparse, by decide +kernel, hback, hchips⟩

end Topology

end SliceControl
