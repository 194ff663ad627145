import Mathlib.Algebra.Ring.Nat
import Mathlib.Tactic.SplitIfs
import SliceControl.Proofs.Sequence
import SliceControl.Uid

/-!
# Identifiers read back

Whichever form an identifier is given in, it is read as 32 digits, and these are written in lower
case in groups of 8, 4, 4, 4 and 12. The grouped form reads back as the same digits.
-/

namespace SliceControl.Uid

/-! ## Digits -/

theorem hexValue?_hexChar (digit : Fin 16) : hexValue? (hexChar digit) = some digit := by
  revert digit
  decide

theorem mapM_hexValue?_map_hexChar (digits : List (Fin 16)) :
    (digits.map hexChar).mapM hexValue? = some digits := by
  induction digits with
  | nil => rfl
  | cons digit digits ih =>
    rw [List.map_cons, List.mapM_cons, hexValue?_hexChar, ih]
    rfl

/-- As many digits are read as there are characters. -/
theorem length_of_mapM_eq_some {characters : List Char} {digits : List (Fin 16)}
    (h : characters.mapM hexValue? = some digits) : digits.length = characters.length := by
  induction characters generalizing digits with
  | nil =>
    cases h
    rfl
  | cons character characters ih =>
    rw [List.mapM_cons] at h
    cases hdigit : hexValue? character with
    | none =>
      rw [hdigit] at h
      cases h
    | some digit =>
      cases hrest : characters.mapM hexValue? with
      | none =>
        rw [hdigit, hrest] at h
        cases h
      | some others =>
        rw [hdigit, hrest] at h
        cases h
        rw [List.length_cons, List.length_cons, ih hrest]

/-! ## Groups -/

/-- A hyphen stands between any two groups. -/
theorem length_writeGroups {sizes : List Nat} {digits : List (Fin 16)} (hsizes : sizes ≠ [])
    (h : digits.length = sizes.sum) :
    (writeGroups sizes digits).length + 1 = sizes.sum + sizes.length := by
  induction sizes generalizing digits with
  | nil => exact absurd rfl hsizes
  | cons size sizes ih =>
    cases sizes with
    | nil =>
      rw [writeGroups, List.length_map, h]
      rfl
    | cons next sizes =>
      rw [List.sum_cons] at h
      have hrest : (digits.drop size).length = (next :: sizes).sum := by
        rw [List.length_drop]
        omega
      have hlength := ih (List.cons_ne_nil next sizes) hrest
      rw [writeGroups, List.length_append, List.length_map, List.length_take, List.length_cons,
        List.sum_cons, List.length_cons]
      · omega
      · exact List.cons_ne_nil next sizes

theorem readGroups?_writeGroups {sizes : List Nat} {digits : List (Fin 16)} (hsizes : sizes ≠ [])
    (h : digits.length = sizes.sum) :
    readGroups? sizes (writeGroups sizes digits) = some digits := by
  induction sizes generalizing digits with
  | nil => exact absurd rfl hsizes
  | cons size sizes ih =>
    cases sizes with
    | nil =>
      have hlength : (digits.map hexChar).length = size := by
        rw [List.length_map, h]
        rfl
      rw [writeGroups, readGroups?, if_pos hlength, mapM_hexValue?_map_hexChar]
    | cons next sizes =>
      rw [List.sum_cons] at h
      have hfirst : ((digits.take size).map hexChar).length = size := by
        rw [List.length_map, List.length_take]
        omega
      have hrest : (digits.drop size).length = (next :: sizes).sum := by
        rw [List.length_drop]
        omega
      rw [writeGroups, readGroups?, List.take_left' hfirst, mapM_hexValue?_map_hexChar,
        List.drop_left' hfirst]
      · simp only [Option.bind_eq_bind, Option.bind_some,
          ih (List.cons_ne_nil next sizes) hrest, Option.map_some, List.take_append_drop]
      all_goals exact List.cons_ne_nil next sizes

/-- The groups that are read have the lengths that are asked for. -/
theorem length_of_readGroups? {sizes : List Nat} {characters : List Char}
    {digits : List (Fin 16)} (hsizes : sizes ≠ [])
    (h : readGroups? sizes characters = some digits) : digits.length = sizes.sum := by
  induction sizes generalizing characters digits with
  | nil => exact absurd rfl hsizes
  | cons size sizes ih =>
    cases sizes with
    | nil =>
      rw [readGroups?] at h
      split at h
      · next hsize =>
        rw [length_of_mapM_eq_some h, hsize]
        rfl
      · cases h
    | cons next sizes =>
      rw [readGroups?] at h
      · obtain ⟨first, hfirst, hrest⟩ := Option.bind_eq_some_iff.mp h
        split at hrest
        · next rest hdrop =>
          obtain ⟨others, hothers, rfl⟩ := Option.map_eq_some_iff.mp hrest
          -- The hyphen that is left shows that there were enough characters for the group.
          have henough : size < characters.length := by
            have hlength := congrArg List.length hdrop
            rw [List.length_drop, List.length_cons] at hlength
            omega
          have hgroup := length_of_mapM_eq_some hfirst
          rw [List.length_take] at hgroup
          rw [List.length_append, List.sum_cons, ih (List.cons_ne_nil next sizes) hothers]
          omega
        · cases hrest
      · exact List.cons_ne_nil next sizes

/-! ## Identifiers -/

/-- Every form in which digits are found holds 32 of them. -/
theorem length_of_digits? {text : String} {digits : List (Fin 16)}
    (h : digits? text = some digits) : digits.length = 32 := by
  have hgroups : ∀ {characters}, readGroups? groupSizes characters = some digits →
      digits.length = 32 := fun hread ↦ length_of_readGroups? (by decide) hread
  simp only [digits?] at h
  split_ifs at h with hplain
  · rw [length_of_mapM_eq_some h, hplain]
  all_goals exact hgroups h

/-- No text is refused for the number of the digits in it. -/
theorem isSome_read? (text : String) : (read? text).isSome = (digits? text).isSome := by
  unfold read?
  cases hdigits : digits? text with
  | none => rfl
  | some digits =>
    rw [Option.bind_some, ofDigits?, dif_pos (length_of_digits? hdigits)]
    rfl

theorem digits?_write {digits : List (Fin 16)} (h : digits.length = 32) :
    digits? (given digits h).write = some digits := by
  have hgroups : digits.length = groupSizes.sum := h
  have hlength : (writeGroups groupSizes digits).length = 36 :=
    Nat.succ.inj (length_writeGroups (by decide) hgroups)
  have hread := readGroups?_writeGroups (by decide) hgroups
  simp [digits?, write, hlength, hread]

/-- An identifier that a resource came with reads back, in whichever form it came. -/
theorem ofJson_toJson {uid : Uid} (h : uid ≠ generated) : ofJson uid.toJson = .ok uid := by
  cases uid with
  | generated => exact absurd rfl h
  | given digits hlength =>
    refine bind_eq_ok_iff.mpr ⟨_, rfl, ?_⟩
    rw [read?, digits?_write hlength, Option.bind_some, ofDigits?, dif_pos hlength]

end SliceControl.Uid
