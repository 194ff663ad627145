/-!
# Percent-decoding

RFC 3986, section 2.1: a percent sign before two hexadecimal digits stands for one byte. The
decoded bytes have to be UTF-8. A percent sign without two digits after it stands for itself.
-/

namespace SliceControl.Text

/-- The value of a hexadecimal digit. -/
def hexDigit? (character : Char) : Option Nat :=
  let code := character.toNat
  if 48 ≤ code ∧ code ≤ 57 then some (code - 48)
  else if 97 ≤ code ∧ code ≤ 102 then some (code - 87)
  else if 65 ≤ code ∧ code ≤ 70 then some (code - 55)
  else none

/-- The bytes that a percent-encoded text stands for. -/
def percentBytes : List Char → List UInt8
  | [] => []
  | '%' :: high :: low :: rest =>
    match hexDigit? high, hexDigit? low with
    | some h, some l => UInt8.ofNat (16 * h + l) :: percentBytes rest
    | _, _ => 37 :: percentBytes (high :: low :: rest)
  | character :: rest => String.utf8EncodeChar character ++ percentBytes rest

/-- The text that a percent-encoded text stands for, if its bytes are UTF-8. -/
def percentDecode? (text : String) : Option String :=
  String.fromUTF8? ⟨(percentBytes text.toList).toArray⟩

end SliceControl.Text
