import Mathlib.Data.List.DropRight
import SliceControl.Slice.Name

/-!
# Names tell replicas apart

A plain name can be taken apart again, since no part of it has a hyphen. A hashed name keeps of its
key what stands before the digest and the digest itself, so that two replicas share a name just if
both names are hashed and agree in these two. Names of different kinds never meet: a plain one ends
in a digit and a hashed one in a letter.

A digest has eight letters, and nothing rules out that two keys have the same one. There are
replicas of a single job that share a name.
-/

namespace SliceControl

open Text

/-! ## Texts that are cut and digested -/

/-- A text that is cut at its first separator determines both sides. -/
theorem Text.append_cons_inj {separator : Char} {left right rest tail : List Char}
    (hleft : separator ∉ left) (hright : separator ∉ right) :
    left ++ separator :: rest = right ++ separator :: tail ↔ left = right ∧ rest = tail := by
  induction left generalizing right with
  | nil =>
    cases right with
    | nil => simp
    | cons head others =>
      have hne : separator ≠ head := fun hsame ↦ hright (hsame ▸ List.mem_cons_self)
      simp [hne]
  | cons first left ih =>
    cases right with
    | nil =>
      have hne : first ≠ separator := fun hsame ↦ hleft (hsame ▸ List.mem_cons_self)
      simp [hne]
    | cons head others =>
      have hrest := ih (fun hmem ↦ hleft (List.mem_cons_of_mem _ hmem))
        (fun hmem ↦ hright (List.mem_cons_of_mem _ hmem))
      simp only [List.cons_append, List.cons.injEq, hrest, and_assoc]

namespace Text.Sha256

theorem length_bigEndian (count number : Nat) : (bigEndian count number).length = count := by
  induction count with
  | zero => rfl
  | succ count ih => rw [bigEndian, List.length_cons, ih]

theorem length_digest (message : List UInt8) : (digest message).length = 32 := by
  simp [digest, length_bigEndian]

end Text.Sha256

namespace SliceKey

variable {key other : SliceKey} {separator character : Char}

/-! ## Keys -/

/-- No part of the key contains the separator. -/
structure Avoids (key : SliceKey) (separator : Char) : Prop where
  namespaceName : separator ∉ key.namespaceName.toList
  job : separator ∉ key.job.toList
  group : separator ∉ key.group.toList

/-- The parts of a key can be read off the text that joins them. -/
theorem join_inj (h : key.Avoids separator) (hother : other.Avoids separator) :
    key.join separator = other.join separator ↔ key = other := by
  obtain ⟨space, job, group, index⟩ := key
  obtain ⟨otherSpace, otherJob, otherGroup, otherIndex⟩ := other
  simp only [join, List.append_assoc, List.cons_append, SliceKey.mk.injEq]
  rw [append_cons_inj h.namespaceName hother.namespaceName, append_cons_inj h.job hother.job,
    append_cons_inj h.group hother.group, Numeral.digits_inj]
  simp only [String.toList_inj]

theorem write_inj (h : key.Avoids '/') (hother : other.Avoids '/') :
    key.write = other.write ↔ key = other := by
  rw [write, write, String.ofList_inj, join_inj h hother]

/-! ## Characters -/

/-- Lower-case letters, digits and hyphens. -/
def IsNameChar (character : Char) : Prop := isPlainChar character = true ∨ character = '-'

theorem isPlainChar_iff :
    isPlainChar character = true ↔ character.isLower = true ∨ character.isDigit = true := by
  rw [isPlainChar, Bool.or_eq_true]

theorem not_isPlainChar_hyphen : ¬isPlainChar '-' = true := by decide

/-- A class of characters that is a range of code points. -/
theorem between_iff {low high : UInt32} :
    (decide (low ≤ character.val) && decide (character.val ≤ high)) = true ↔
      low.toNat ≤ character.toNat ∧ character.toNat ≤ high.toNat := by
  rw [Bool.and_eq_true, decide_eq_true_iff, decide_eq_true_iff]
  exact Iff.rfl

theorem isUpper_iff : character.isUpper = true ↔ 65 ≤ character.toNat ∧ character.toNat ≤ 90 :=
  decide_eq_true_iff

theorem isLower_iff : character.isLower = true ↔ 97 ≤ character.toNat ∧ character.toNat ≤ 122 :=
  between_iff

theorem isDigit_iff : character.isDigit = true ↔ 48 ≤ character.toNat ∧ character.toNat ≤ 57 :=
  between_iff

theorem isAlphanum_iff : character.isAlphanum = true ↔
    character.isUpper = true ∨ character.isLower = true ∨ character.isDigit = true := by
  show (character.isUpper || character.isLower || character.isDigit) = true ↔ _
  rw [Bool.or_eq_true, Bool.or_eq_true, or_assoc]

theorem toNat_lt_of_isAlphanum (h : character.isAlphanum = true) : character.toNat < 123 := by
  rw [isAlphanum_iff, isUpper_iff, isLower_iff, isDigit_iff] at h
  omega

/-- Letters and digits stay letters and digits. -/
theorem isPlainChar_sanitizeChar (h : character.isAlphanum = true) :
    isPlainChar (sanitizeChar character) = true := by
  have hcodes : ∀ code < 123, (Char.ofNat code).isAlphanum = true →
      isPlainChar (sanitizeChar (Char.ofNat code)) = true := by decide
  have hcode := hcodes character.toNat (toNat_lt_of_isAlphanum h)
  rw [Char.ofNat_toNat] at hcode
  exact hcode h

theorem isNameChar_sanitizeChar (character : Char) : IsNameChar (sanitizeChar character) := by
  by_cases h : character.isAlphanum = true
  · exact .inl (isPlainChar_sanitizeChar h)
  · exact .inr (by rw [sanitizeChar, if_neg h])

theorem isAlphanum_of_isPlainChar (h : isPlainChar character = true) :
    character.isAlphanum = true :=
  isAlphanum_iff.mpr (.inr (isPlainChar_iff.mp h))

/-- A character of a name takes one byte. -/
theorem IsNameChar.utf8Size (h : IsNameChar character) : character.utf8Size = 1 := by
  have hcode : character.toNat ≤ 127 := by
    rcases h with hplain | rfl
    · have hlt := toNat_lt_of_isAlphanum (isAlphanum_of_isPlainChar hplain)
      omega
    · decide
  rwa [Char.utf8Size_eq_one_iff, UInt32.le_iff_toNat_le]

theorem utf8ByteSize_of_isNameChar {characters : List Char}
    (h : ∀ character ∈ characters, IsNameChar character) :
    (String.ofList characters).utf8ByteSize = characters.length := by
  induction characters with
  | nil => rfl
  | cons head rest ih =>
    obtain ⟨hhead, hrest⟩ := List.forall_mem_cons.mp h
    rw [String.ofList_cons, String.utf8ByteSize_append, String.utf8ByteSize_singleton,
      hhead.utf8Size, ih hrest, List.length_cons, Nat.add_comm]

/-! ## Stem and digest -/

theorem isLower_letter (byte : UInt8) : (letter byte).isLower = true := by
  have hletters : ∀ place < 26, (Char.ofNat (97 + place)).isLower = true := by decide
  exact hletters _ (Nat.mod_lt byte.toNat (by decide))

theorem length_digest (key : SliceKey) : key.digest.length = digestLength := by
  rw [digest, List.length_map, List.length_take, Sha256.length_digest]
  rfl

theorem isLower_of_mem_digest (h : character ∈ key.digest) : character.isLower = true := by
  obtain ⟨byte, -, rfl⟩ := List.mem_map.mp h
  exact isLower_letter byte

theorem trimHyphens_eq (characters : List Char) :
    trimHyphens characters = characters.rdropWhile (· = '-') := rfl

theorem stem_prefix (key : SliceKey) :
    key.stem <+: ((key.join '-').map sanitizeChar).take maxStem := by
  rw [stem, trimHyphens_eq]
  exact List.rdropWhile_prefix _ _

theorem length_stem_le (key : SliceKey) : key.stem.length ≤ maxStem :=
  key.stem_prefix.length_le.trans (List.length_take_le _ _)

theorem isNameChar_of_mem_stem (h : character ∈ key.stem) : IsNameChar character := by
  have hmem := List.mem_of_mem_take (key.stem_prefix.subset h)
  obtain ⟨original, -, rfl⟩ := List.mem_map.mp hmem
  exact isNameChar_sanitizeChar original

theorem head?_join {first : Char} (hfirst : key.namespaceName.toList.head? = some first) :
    (key.join separator).head? = some first := by
  simp [join, List.append_assoc, List.head?_append, hfirst]

/-- The stem of a key that begins with a letter or a digit begins with it as well. -/
theorem head?_stem {first : Char} (hfirst : key.namespaceName.toList.head? = some first)
    (hletter : first.isAlphanum = true) : key.stem.head? = some (sanitizeChar first) := by
  have hcut : (((key.join '-').map sanitizeChar).take maxStem).head? =
      some (sanitizeChar first) := by
    rw [List.head?_take, if_neg (by decide), List.head?_map, head?_join hfirst, Option.map_some]
  obtain ⟨rest, hrest⟩ := key.stem_prefix
  -- Only hyphens are trimmed, so that something is left.
  have hstem : key.stem ≠ [] := by
    intro hempty
    rw [stem, trimHyphens_eq, List.rdropWhile_eq_nil_iff] at hempty
    have hhyphen : sanitizeChar first = '-' := by
      simpa using hempty _ (List.mem_of_head? hcut)
    exact not_isPlainChar_hyphen (hhyphen ▸ isPlainChar_sanitizeChar hletter)
  rwa [← hrest, List.head?_append_of_ne_nil _ hstem] at hcut

/-! ## Plain and hashed names -/

theorem isPlain_iff :
    key.isPlain = true ↔ isPlainPart key.namespaceName = true ∧ isPlainPart key.job = true ∧
      isPlainPart key.group = true ∧ (key.join '-').length ≤ maxLength := by
  simp only [isPlain, Bool.and_eq_true, decide_eq_true_eq, and_assoc]

theorem isPlainChar_of_mem_part {part : String} (h : isPlainPart part = true)
    (hmem : character ∈ part.toList) : isPlainChar character = true := by
  rw [isPlainPart, Bool.and_eq_true] at h
  exact List.all_eq_true.mp h.2 character hmem

theorem avoids_of_isPlain (h : key.isPlain = true) : key.Avoids '-' := by
  obtain ⟨hspace, hjob, hgroup, -⟩ := isPlain_iff.mp h
  exact ⟨fun hmem ↦ not_isPlainChar_hyphen (isPlainChar_of_mem_part hspace hmem),
    fun hmem ↦ not_isPlainChar_hyphen (isPlainChar_of_mem_part hjob hmem),
    fun hmem ↦ not_isPlainChar_hyphen (isPlainChar_of_mem_part hgroup hmem)⟩

theorem isNameChar_of_mem_join (h : key.isPlain = true) (hmem : character ∈ key.join '-') :
    IsNameChar character := by
  obtain ⟨hspace, hjob, hgroup, -⟩ := isPlain_iff.mp h
  simp only [join, List.append_assoc, List.cons_append, List.mem_append, List.mem_cons] at hmem
  rcases hmem with hpart | rfl | hpart | rfl | hpart | rfl | hdigit
  · exact .inl (isPlainChar_of_mem_part hspace hpart)
  · exact .inr rfl
  · exact .inl (isPlainChar_of_mem_part hjob hpart)
  · exact .inr rfl
  · exact .inl (isPlainChar_of_mem_part hgroup hpart)
  · exact .inr rfl
  · exact .inl (isPlainChar_iff.mpr (.inr (Numeral.isDigit_of_mem_digits hdigit)))

/-- The two forms of a name. -/
theorem toList_sliceName (key : SliceKey) :
    key.sliceName.toList =
      if key.isPlain = true then key.join '-' else key.stem ++ '-' :: key.digest := by
  rw [sliceName]
  split_ifs <;> rw [String.toList_ofList]

theorem isNameChar_of_mem_sliceName (h : character ∈ key.sliceName.toList) :
    IsNameChar character := by
  rw [toList_sliceName] at h
  split_ifs at h with hplain
  · exact isNameChar_of_mem_join hplain h
  · rcases List.mem_append.mp h with hstem | hend
    · exact isNameChar_of_mem_stem hstem
    · rcases List.mem_cons.mp hend with rfl | hdigest
      · exact .inr rfl
      · exact .inl (isPlainChar_iff.mpr (.inl (isLower_of_mem_digest hdigest)))

/-- A name has no more bytes than a resource may have in its name. -/
theorem utf8ByteSize_sliceName_le (key : SliceKey) : key.sliceName.utf8ByteSize ≤ maxLength := by
  have hchars : ∀ character ∈ key.sliceName.toList, IsNameChar character :=
    fun _ ↦ isNameChar_of_mem_sliceName
  have hbytes := utf8ByteSize_of_isNameChar hchars
  rw [String.ofList_toList] at hbytes
  rw [hbytes, toList_sliceName]
  split_ifs with hplain
  · exact (isPlain_iff.mp hplain).2.2.2
  · have hstem := key.length_stem_le
    rw [List.length_append, List.length_cons, length_digest]
    simp only [maxStem, maxLength, digestLength] at hstem ⊢
    omega

/-- A name begins with a letter or a digit if its key does. -/
theorem head?_sliceName {first : Char} (hfirst : key.namespaceName.toList.head? = some first)
    (hletter : first.isAlphanum = true) :
    ∃ initial, key.sliceName.toList.head? = some initial ∧ isPlainChar initial = true := by
  rw [toList_sliceName]
  split_ifs with hplain
  · obtain ⟨hspace, -⟩ := isPlain_iff.mp hplain
    exact ⟨first, head?_join hfirst, isPlainChar_of_mem_part hspace (List.mem_of_head? hfirst)⟩
  · refine ⟨sanitizeChar first, ?_, isPlainChar_sanitizeChar hletter⟩
    rw [List.head?_append, head?_stem hfirst hletter, Option.some_or]

theorem exists_getLast?_append (front : List Char) {back : List Char} (hback : back ≠ []) :
    ∃ last ∈ back, (front ++ back).getLast? = some last := by
  refine ⟨back.getLast hback, List.getLast_mem hback, ?_⟩
  rw [List.getLast?_append_of_ne_nil front hback, List.getLast?_eq_some_getLast hback]

/-- A plain name ends in a digit, and a hashed one in a letter. -/
theorem getLast?_sliceName (key : SliceKey) :
    ∃ last, key.sliceName.toList.getLast? = some last ∧
      if key.isPlain = true then last.isDigit = true else last.isLower = true := by
  rw [toList_sliceName]
  split_ifs with hplain
  · obtain ⟨last, hmem, hlast⟩ := exists_getLast?_append
      (key.namespaceName.toList ++ '-' :: key.job.toList ++ '-' :: key.group.toList ++ ['-'])
      (Nat.toDigits_ne_nil : Numeral.digits key.index ≠ [])
    rw [List.append_assoc, List.singleton_append] at hlast
    exact ⟨last, hlast, Numeral.isDigit_of_mem_digits hmem⟩
  · have hdigest : key.digest ≠ [] := by
      intro hempty
      have hlength := key.length_digest
      rw [hempty] at hlength
      cases hlength
    obtain ⟨last, hmem, hlast⟩ := exists_getLast?_append (key.stem ++ ['-']) hdigest
    rw [List.append_assoc, List.singleton_append] at hlast
    exact ⟨last, hlast, isLower_of_mem_digest hmem⟩

theorem isDigit_eq_false_of_isLower (h : character.isLower = true) : character.isDigit = false := by
  rw [isLower_iff] at h
  rw [Bool.eq_false_iff, ne_eq, isDigit_iff]
  omega

theorem getLast?_sliceName_ne (key : SliceKey) : key.sliceName.toList.getLast? ≠ some '-' := by
  obtain ⟨last, hlast, hkind⟩ := key.getLast?_sliceName
  rw [hlast]
  rintro ⟨⟩
  split_ifs at hkind <;> exact absurd hkind (by decide)

/-- Names of different kinds never meet. -/
theorem isPlain_eq_of_sliceName_eq (h : key.sliceName = other.sliceName) :
    key.isPlain = other.isPlain := by
  obtain ⟨last, hlast, hkind⟩ := key.getLast?_sliceName
  obtain ⟨otherLast, hotherLast, hotherKind⟩ := other.getLast?_sliceName
  rw [h, hotherLast] at hlast
  cases hlast
  by_contra hne
  split_ifs at hkind hotherKind with hplain hotherPlain
  · exact hne (hplain.trans hotherPlain.symm)
  · rw [isDigit_eq_false_of_isLower hotherKind] at hkind
    cases hkind
  · rw [isDigit_eq_false_of_isLower hkind] at hotherKind
    cases hotherKind
  · simp_all

/-! ## Shared names -/

/-- Both names are hashed and agree in stem and digest, although the keys are written differently.
-/
structure Collides (key other : SliceKey) : Prop where
  hashed : key.isPlain = false ∧ other.isPlain = false
  written : key.write ≠ other.write
  stem : key.stem = other.stem
  digest : key.digest = other.digest

theorem Collides.sliceName_eq (h : key.Collides other) : key.sliceName = other.sliceName := by
  simp only [sliceName, h.hashed.1, h.hashed.2, h.stem, h.digest, Bool.false_eq_true, if_false]

/-- Keys without slashes share a name only if they collide. -/
theorem sliceName_eq_iff (hkey : key.Avoids '/') (hother : other.Avoids '/') :
    key.sliceName = other.sliceName ↔ key = other ∨ key.Collides other := by
  constructor
  · intro h
    have hkind := isPlain_eq_of_sliceName_eq h
    have hletters := congrArg String.toList h
    rw [toList_sliceName, toList_sliceName, ← hkind] at hletters
    split_ifs at hletters with hplain
    · exact .inl ((join_inj (avoids_of_isPlain hplain)
        (avoids_of_isPlain (hkind.symm.trans hplain))).mp hletters)
    · by_cases hsame : key = other
      · exact .inl hsame
      · rw [Bool.not_eq_true] at hplain
        -- Digests have one length, so that the names are cut at the same place.
        obtain ⟨hstem, hends⟩ := List.append_inj' hletters (by simp [length_digest])
        exact .inr ⟨⟨hplain, hkind.symm.trans hplain⟩,
          fun hwritten ↦ hsame ((write_inj hkey hother).mp hwritten), hstem,
          List.cons.inj hends |>.2⟩
  · intro h
    rcases h with rfl | hcollides
    · rfl
    · exact hcollides.sliceName_eq

/-- Whatever its parts, a key has a name that a resource may have. Names tell keys without slashes
apart, unless both names are hashed and different keys have the same stem and the same digest of
eight letters. -/
theorem sliceName_identifies (key : SliceKey) :
    (key.sliceName.utf8ByteSize ≤ 63 ∧
      (∀ character ∈ key.sliceName.toList, IsNameChar character) ∧
      key.sliceName.toList.getLast? ≠ some '-' ∧
      ∀ first, key.namespaceName.toList.head? = some first → first.isAlphanum = true →
        ∃ initial, key.sliceName.toList.head? = some initial ∧ isPlainChar initial = true) ∧
    (key.digest.length = 8 ∧ ∀ character ∈ key.digest, character.isLower = true) ∧
    ∀ other : SliceKey, key.Avoids '/' → other.Avoids '/' →
      (key.sliceName = other.sliceName ↔ key = other ∨ key.Collides other) := by
  refine ⟨⟨key.utf8ByteSize_sliceName_le, ?_, key.getLast?_sliceName_ne, ?_⟩,
    ⟨key.length_digest, ?_⟩, ?_⟩
  · intro character hmem
    exact isNameChar_of_mem_sliceName hmem
  · intro first hfirst hletter
    exact head?_sliceName hfirst hletter
  · intro character hmem
    exact isLower_of_mem_digest hmem
  · intro other hkey hother
    exact sliceName_eq_iff hkey hother

/-! ## Two replicas of one job -/

namespace Sample

/-- A replica of a job whose name is so long that no index is left in the stem. -/
def pretraining (index : Nat) : SliceKey :=
  ⟨"team", "pretraining-of-a-large-model-on-many-slices-at-once", "workers", index⟩

theorem pretraining_avoids (index : Nat) : (pretraining index).Avoids '/' := by
  have hnone : ∀ part ∈ ["team", "pretraining-of-a-large-model-on-many-slices-at-once", "workers"],
      '/' ∉ part.toList := by decide +kernel
  exact ⟨hnone _ (by simp [pretraining]), hnone _ (by simp [pretraining]),
    hnone _ (by simp [pretraining])⟩

theorem pretraining_collides : (pretraining 117723).Collides (pretraining 125717) :=
  ⟨by decide +kernel, by decide +kernel, by decide +kernel, by decide +kernel⟩

end Sample

/-- Of one job, the replicas 117723 and 125717 have the same name. -/
theorem sliceName_identifies_sample :
    (∃ initial, (Sample.pretraining 117723).sliceName.toList.head? = some initial ∧
      isPlainChar initial = true) ∧
    (Sample.pretraining 117723).sliceName = (Sample.pretraining 125717).sliceName := by
  obtain ⟨⟨-, -, -, hhead⟩, -, hnames⟩ := sliceName_identifies (Sample.pretraining 117723)
  refine ⟨hhead 't' (by decide +kernel) (by decide), ?_⟩
  exact (hnames (Sample.pretraining 125717) (Sample.pretraining_avoids 117723)
    (Sample.pretraining_avoids 125717)).mpr (.inr Sample.pretraining_collides)

end SliceKey

end SliceControl
