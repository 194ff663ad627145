import Mathlib.Data.List.TakeWhile
import Mathlib.Data.Option.Basic
import Mathlib.Tactic.SplitIfs
import SliceControl.Json.Token

/-!
# Written tokens read back

The scanner reads back the tokens that are written one after the other, as long as a word, a number
or a text is followed by a bracket, a comma or a colon: that is where the scanner ends a number or a
word. Binary64 numbers are left out, since the reader rounds more than once and may miss the number
whose shortest decimal it is given.
-/

namespace SliceControl

open Text

/-! ## Numerals -/

/-- The digits of a number begin with zero only if it is zero. -/
theorem Text.Numeral.eq_zero_of_head?_digits {number : Nat}
    (h : (digits number).head? = some '0') : number = 0 := by
  induction number using Nat.strongRecOn with
  | ind number ih =>
    unfold digits at h ih
    rw [Nat.toDigits_eq_if (by decide)] at h
    split_ifs at h with hless
    · have hchars : ∀ digit < 10, digit.digitChar = '0' → digit = 0 := by decide
      exact hchars number hless (Option.some.inj h)
    · rw [List.head?_append, Option.or_of_isSome (by simp [Nat.toDigits_ne_nil])] at h
      have hzero := ih (number / 10) (by omega) h
      omega

namespace Json

/-- The digits of a number, with or without a sign, make up a number without fraction and
exponent. -/
theorem numberParts?_digits (number : Nat) :
    numberParts? (Numeral.digits number) = some ⟨false, Numeral.digits number, none, none⟩ ∧
      numberParts? ('-' :: Numeral.digits number) =
        some ⟨true, Numeral.digits number, none, none⟩ := by
  have hlead : Numeral.digits number ≠ [] ∧ ((Numeral.digits number).length = 1 ∨
      (Numeral.digits number).head? ≠ some '0') := by
    refine ⟨Nat.toDigits_ne_nil, ?_⟩
    by_cases hzero : number = 0
    · exact .inl (by rw [hzero]; rfl)
    · exact .inr fun hhead ↦ hzero (Numeral.eq_zero_of_head?_digits hhead)
  have hunsigned : '-' ∉ Numeral.digits number :=
    fun hmem ↦ absurd (Numeral.isDigit_of_mem_digits hmem) (by decide)
  have htake : (Numeral.digits number).takeWhile Char.isDigit = Numeral.digits number :=
    List.takeWhile_eq_self_iff.mpr fun _ hmem ↦ Numeral.isDigit_of_mem_digits hmem
  have hpass {condition : Prop} [Decidable condition] (h : condition) :
      (guard condition : Option Unit) = some () := if_pos h
  generalize Numeral.digits number = run at hlead hunsigned htake
  constructor
  · obtain ⟨first, rest, rfl⟩ := List.exists_cons_of_ne_nil hlead.1
    have hfirst : first ≠ '-' := fun hsign ↦ hunsigned (hsign ▸ List.mem_cons_self)
    have hguard : rest = [] ∨ first ≠ '0' := by simpa using hlead
    simp [numberParts?, hpass, htake, hfirst, hguard]
  · simp [numberParts?, hpass, htake, hlead]

theorem numberToken?_writeWhole (value : Whole) :
    numberToken? (writeWhole value) = some (.whole value) := by
  have hbounds : Whole.ofInt? value.value = some value := by
    unfold Whole.ofInt?
    rw [dif_pos ⟨value.lower, value.upper⟩]
  unfold writeWhole
  split_ifs with hneg
  · have hvalue : -(value.value.natAbs : Int) = value.value := by omega
    have hnonzero : value.value.natAbs ≠ 0 := by omega
    rw [numberToken?, (numberParts?_digits _).2, Option.bind_eq_bind, Option.bind_some]
    simp only [Numeral.value_digits, if_true, hvalue, hbounds, hnonzero, decide_false,
      Bool.and_false, Bool.false_eq_true, if_false, Option.pure_def]
  · have hvalue : (value.value.toNat : Int) = value.value := by omega
    rw [numberToken?, (numberParts?_digits _).1, Option.bind_eq_bind, Option.bind_some]
    simp only [Numeral.value_digits, Bool.false_eq_true, if_false, hvalue, hbounds,
      Bool.false_and, Option.pure_def]

/-! ## Scanning one token -/

/-- Brackets, commas and colons end whatever stands before them. -/
def Token.isDelimiter : Token → Bool
  | openArray | closeArray | openObject | closeObject | comma | colon => true
  | _ => false

def Token.isReal : Token → Bool
  | real _ => true
  | _ => false

/-- A delimiter is one character, with which neither a word nor a number goes on. -/
theorem Token.exists_of_isDelimiter {token : Token} (h : token.isDelimiter = true) :
    ∃ character, token.write = [character] ∧ character.isLower = false ∧
      isNumberChar character = false ∧
        ∀ tokens, Scan.start tokens character = some ⟨token :: tokens, .none⟩ := by
  cases token <;>
    first | exact ⟨_, rfl, by decide, by decide, fun _ ↦ rfl⟩ | cases h

/-- A delimiter is read after any token. -/
theorem foldlM_step_delimiter {token : Token} (htoken : token.isDelimiter = true) {scan : Scan}
    {done : List Token} (h : scan.finish = some done) :
    token.write.foldlM Scan.step scan = some ⟨token :: done.reverse, .none⟩ := by
  obtain ⟨character, hwrite, hword, hnumber, hstart⟩ := token.exists_of_isDelimiter htoken
  obtain ⟨tokens, pending⟩ := scan
  have hstep : Scan.step ⟨tokens, pending⟩ character = some ⟨token :: done.reverse, .none⟩ := by
    cases pending with
    | none =>
      cases h
      rw [List.reverse_reverse]
      exact hstart tokens
    | word read =>
      obtain ⟨word, hread, rfl⟩ := Option.map_eq_some_iff.mp h
      rw [List.reverse_reverse]
      simp [Scan.step, hword, hread, hstart]
    | number read =>
      obtain ⟨number, hread, rfl⟩ := Option.map_eq_some_iff.mp h
      rw [List.reverse_reverse]
      simp [Scan.step, hnumber, hread, hstart]
    | _ => cases h
  rw [hwrite, List.foldlM_cons, hstep]
  rfl

theorem hexDigit?_lowerHex : ∀ digit < 16, hexDigit? (lowerHex digit) = some digit := by decide

/-- A character of a text reads back, whether it is escaped or not. -/
theorem foldlM_step_writeChar (tokens : List Token) (read : List Char) (character : Char) :
    (writeChar character).foldlM Scan.step ⟨tokens, .string read⟩ =
      some ⟨tokens, .string (character :: read)⟩ := by
  unfold writeChar
  split_ifs with hquote hbackslash hnewline hreturn htab hbackspace hfeed hcontrol
  · subst hquote; rfl
  · subst hbackslash; rfl
  · subst hnewline; rfl
  · subst hreturn; rfl
  · subst htab; rfl
  · subst hbackspace; rfl
  · subst hfeed; rfl
  · have hhigh := hexDigit?_lowerHex (character.toNat / 16) (by omega)
    have hlow := hexDigit?_lowerHex (character.toNat % 16) (by omega)
    have hcode : 16 * (character.toNat / 16) + character.toNat % 16 = character.toNat := by omega
    have hzero : hexDigit? '0' = some 0 := rfl
    simp [Scan.step, hzero, hhigh, hlow, hcode, finishUnicode]
    rw [if_neg (by omega), if_neg (by omega)]
  · simp [Scan.step, hquote, hbackslash, hcontrol]

theorem foldlM_step_writeString (tokens : List Token) (text : String) :
    (writeString text).foldlM Scan.step ⟨tokens, .none⟩ =
      some ⟨.string text :: tokens, .none⟩ := by
  have hchars (characters read : List Char) :
      (characters.flatMap writeChar).foldlM Scan.step ⟨tokens, .string read⟩ =
        some ⟨tokens, .string (characters.reverse ++ read)⟩ := by
    induction characters generalizing read with
    | nil => rfl
    | cons character rest ih =>
      rw [List.flatMap_cons, List.foldlM_append, foldlM_step_writeChar]
      simp [ih]
  have hopen : Scan.step ⟨tokens, .none⟩ '"' = some ⟨tokens, .string []⟩ := rfl
  unfold writeString
  rw [List.cons_append, List.foldlM_cons, hopen]
  simp only [Option.bind_eq_bind, Option.bind_some]
  rw [List.foldlM_append, hchars]
  simp [Scan.step]

theorem start_of_isDigit {character : Char} (h : character.isDigit = true) (tokens : List Token) :
    Scan.start tokens character = some ⟨tokens, .number [character]⟩ := by
  have hne {other : Char} (hother : other.isDigit = false) : character ≠ other := by
    rintro rfl
    rw [hother] at h
    cases h
  have hblank : isJsonBlank character = false := by
    unfold isJsonBlank
    rw [decide_eq_false (hne rfl), decide_eq_false (hne rfl), decide_eq_false (hne rfl),
      decide_eq_false (hne rfl)]
    rfl
  have hpunctuation : punctuation? character = none := by
    unfold punctuation?
    rw [if_neg (hne rfl), if_neg (hne rfl), if_neg (hne rfl), if_neg (hne rfl), if_neg (hne rfl),
      if_neg (hne rfl)]
  have hquote : character ≠ '"' := hne rfl
  simp [Scan.start, hblank, hquote, hpunctuation, h]

/-- The characters of a whole number are read as one number. -/
theorem foldlM_step_writeWhole (tokens : List Token) (value : Whole) :
    (writeWhole value).foldlM Scan.step ⟨tokens, .none⟩ =
      some ⟨tokens, .number (writeWhole value).reverse⟩ := by
  have hrun (characters read : List Char) (hrun : ∀ c ∈ characters, c.isDigit = true) :
      characters.foldlM Scan.step ⟨tokens, .number read⟩ =
        some ⟨tokens, .number (characters.reverse ++ read)⟩ := by
    induction characters generalizing read with
    | nil => rfl
    | cons character rest ih =>
      have hnumber : isNumberChar character = true := by
        simp [isNumberChar, hrun character List.mem_cons_self]
      have hrest := ih (character :: read) fun c hmem ↦ hrun c (List.mem_cons_of_mem _ hmem)
      rw [List.foldlM_cons]
      simp [Scan.step, hnumber, hrest]
  unfold writeWhole
  split_ifs with hneg
  · have hstart : Scan.step ⟨tokens, .none⟩ '-' = some ⟨tokens, .number ['-']⟩ := rfl
    rw [List.foldlM_cons, hstart]
    simp [hrun _ ['-'] fun _ hmem ↦ Numeral.isDigit_of_mem_digits hmem]
  · have hdigits (c : Char) (hmem : c ∈ Numeral.digits value.value.toNat) : c.isDigit = true :=
      Numeral.isDigit_of_mem_digits hmem
    obtain ⟨first, rest, hfirst⟩ : ∃ first rest, Numeral.digits value.value.toNat = first :: rest :=
      List.exists_cons_of_ne_nil Nat.toDigits_ne_nil
    rw [hfirst] at hdigits ⊢
    rw [List.foldlM_cons, Scan.step, start_of_isDigit (hdigits first List.mem_cons_self)]
    simp [hrun rest [first] fun c hmem ↦ hdigits c (List.mem_cons_of_mem _ hmem)]

/-- Any other token is read from where one may begin. -/
theorem foldlM_step_write {token : Token} (hreal : token.isReal = false)
    (htoken : token.isDelimiter = false) (tokens : List Token) :
    ∃ scan, token.write.foldlM Scan.step ⟨tokens, .none⟩ = some scan ∧
      scan.finish = some (tokens.reverse ++ [token]) := by
  cases token with
  | null => exact ⟨_, rfl, by simp [Scan.finish, wordToken?]⟩
  | bool value => cases value <;> exact ⟨_, rfl, by simp [Scan.finish, wordToken?]⟩
  | whole value =>
    refine ⟨_, foldlM_step_writeWhole tokens value, ?_⟩
    simp [Scan.finish, numberToken?_writeWhole]
  | real value => cases hreal
  | string text => exact ⟨_, foldlM_step_writeString tokens text, by simp [Scan.finish]⟩
  | _ => cases htoken

/-! ## Scanning a text -/

/-- A delimiter comes first, or nothing does. -/
def Delimited (tokens : List Token) : Prop :=
  ∀ token, tokens.head? = some token → token.isDelimiter = true

/-- No binary64 number occurs, and whatever is not a delimiter is followed by one. -/
def Scannable : List Token → Prop
  | [] => True
  | token :: rest =>
    token.isReal = false ∧ (token.isDelimiter = true ∨ Delimited rest) ∧ Scannable rest

theorem tokenize_write_of_scannable {written : List Token} (h : Scannable written) {scan : Scan}
    {done : List Token} (hdone : scan.finish = some done)
    (hready : scan.pending = .none ∨ Delimited written) :
    ((written.flatMap Token.write).foldlM Scan.step scan).bind Scan.finish =
      some (done ++ written) := by
  induction written generalizing scan done with
  | nil => simpa using hdone
  | cons token rest ih =>
    obtain ⟨hreal, hfollowed, hrest⟩ := h
    rw [List.flatMap_cons, List.foldlM_append]
    cases htoken : token.isDelimiter with
    | true =>
      rw [foldlM_step_delimiter htoken hdone]
      have hnext : Scan.finish ⟨token :: done.reverse, .none⟩ = some (done ++ [token]) := by
        simp [Scan.finish]
      simpa using ih hrest hnext (.inl rfl)
    | false =>
      have hclean : scan.pending = .none := by
        refine hready.resolve_right fun hdelimited ↦ ?_
        rw [hdelimited token rfl] at htoken
        cases htoken
      obtain ⟨tokens, pending⟩ := scan
      cases hclean
      cases hdone
      obtain ⟨next, hnext, hfinish⟩ := foldlM_step_write hreal htoken tokens
      rw [hnext]
      have hdelimited : Delimited rest := hfollowed.resolve_left (by simp [htoken])
      simpa using ih hrest hfinish (.inr hdelimited)

/-- What is written token by token reads back as these tokens. -/
theorem tokenize?_flatMap_write {written : List Token} (h : Scannable written) :
    tokenize? (written.flatMap Token.write) = some written := by
  have hempty : Scan.finish ⟨[], .none⟩ = some [] := rfl
  exact tokenize_write_of_scannable h hempty (.inl rfl)

end Json

end SliceControl
