import SliceControl.Text.Base64

/-!
# Base64 reads back

Reading what was written gives the same bytes: each group of four characters holds the bits of up to
three bytes, and only a group at the end is padded.

A text goes through Base64 by way of its bytes in UTF-8, and these are a text again.
-/

namespace SliceControl.Text

namespace Base64

/-- A group without padding gives three bytes. -/
theorem decode?_group {p q r s : Nat} (hp : p < 64) (hq : q < 64) (hr : r < 64) (hs : s < 64)
    (rest : List Char) :
    decode? (encodeSextet p :: encodeSextet q :: encodeSextet r :: encodeSextet s :: rest) =
      (decode? rest).map fun tail ↦
        UInt8.ofNat (p * 4 + q / 16) :: UInt8.ofNat (q % 16 * 16 + r / 4) ::
          UInt8.ofNat (r % 4 * 64 + s) :: tail := by
  have hpad := encodeSextet_ne_pad s hs
  rw [decode?.eq_def]
  split
  · simp_all
  · simp_all
  · simp_all
  · rename_i heq
    cases heq
    rw [decodeSextet?_encodeSextet p hp, decodeSextet?_encodeSextet q hq,
      decodeSextet?_encodeSextet r hr, decodeSextet?_encodeSextet s hs]
    cases decode? rest <;> rfl
  · rename_i hnone
    exact absurd rfl (hnone _ _ _ _ _)

/-- A group with one padding character gives two bytes. -/
theorem decode?_twoBytes {p q r : Nat} (hp : p < 64) (hq : q < 64) (hr : r < 64)
    (hlast : r % 4 = 0) :
    decode? [encodeSextet p, encodeSextet q, encodeSextet r, '='] =
      some [UInt8.ofNat (p * 4 + q / 16), UInt8.ofNat (q % 16 * 16 + r / 4)] := by
  have hpad := encodeSextet_ne_pad r hr
  rw [decode?.eq_def]
  split
  · simp_all
  · simp_all
  · rename_i heq
    cases heq
    rw [decodeSextet?_encodeSextet p hp, decodeSextet?_encodeSextet q hq,
      decodeSextet?_encodeSextet r hr]
    simp [hlast]
  · rename_i hfull heq
    cases heq
    exact absurd rfl (hfull rfl)
  · rename_i hnone
    exact absurd rfl (hnone _ _ _ _ _)

/-- A group with two padding characters gives one byte. -/
theorem decode?_oneByte {p q : Nat} (hp : p < 64) (hq : q < 64) (hlast : q % 16 = 0) :
    decode? [encodeSextet p, encodeSextet q, '=', '='] = some [UInt8.ofNat (p * 4 + q / 16)] := by
  rw [decode?.eq_2, decodeSextet?_encodeSextet p hp, decodeSextet?_encodeSextet q hq]
  simp [hlast]

/-- What was written reads back. -/
theorem decode?_encode (bytes : List UInt8) : decode? (encode bytes) = some bytes := by
  have hbyte (byte : UInt8) : byte.toNat < 256 := byte.toNat_lt
  have hback (byte : UInt8) {number : Nat} (h : number = byte.toNat) :
      UInt8.ofNat number = byte := by
    rw [h, UInt8.ofNat_toNat]
  induction bytes using encode.induct with
  | case1 => rfl
  | case2 a =>
    have ha := hbyte a
    rw [encode, decode?_oneByte (by omega) (by omega) (by omega), hback a (by omega)]
  | case3 a b =>
    have ha := hbyte a
    have hb := hbyte b
    rw [encode, decode?_twoBytes (by omega) (by omega) (by omega) (by omega),
      hback a (by omega), hback b (by omega)]
  | case4 a b c rest ih =>
    have ha := hbyte a
    have hb := hbyte b
    have hc := hbyte c
    rw [encode, decode?_group (by omega) (by omega) (by omega) (by omega), ih, Option.map_some,
      hback a (by omega), hback b (by omega), hback c (by omega)]

end Base64

/-! ## Bytes of a text -/

theorem toList_loop (bytes : ByteArray) (position : Nat) (read : List UInt8) :
    ByteArray.toList.loop bytes position read =
      read.reverse ++ bytes.data.toList.drop position := by
  induction position, read using ByteArray.toList.loop.induct bytes with
  | case1 position read hless ih =>
    have hbyte : bytes.data.toList.drop position =
        bytes.get! position :: bytes.data.toList.drop (position + 1) := by
      rw [List.drop_eq_getElem_cons (by simpa using hless)]
      congr 1
      simp [ByteArray.get!, hless]
    rw [ByteArray.toList.loop, if_pos hless, ih, hbyte]
    simp
  | case2 position read hend =>
    have hrest : bytes.data.toList.drop position = [] :=
      List.drop_eq_nil_of_le (by simpa using hend)
    rw [ByteArray.toList.loop, if_neg hend, hrest, List.append_nil]

/-- The bytes of a text are the text again. -/
theorem fromUTF8?_toUTF8 (text : String) :
    String.fromUTF8? ⟨text.toUTF8.toList.toArray⟩ = some text := by
  have hbytes : text.toUTF8.toList = text.toUTF8.data.toList := by
    rw [ByteArray.toList, toList_loop]
    rfl
  rw [hbytes]
  exact dif_pos text.isValidUTF8

end SliceControl.Text
