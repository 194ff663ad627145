/-!
# Base64

RFC 4648, section 4: three bytes are written as four characters of the standard alphabet, and a
last group of one or two bytes is filled up with `=`. Reading accepts exactly what writing
produces.
-/

namespace SliceControl.Text.Base64

/-- The character for six bits. -/
def encodeSextet (sextet : Nat) : Char :=
  if sextet < 26 then Char.ofNat ('A'.toNat + sextet)
  else if sextet < 52 then Char.ofNat ('a'.toNat + (sextet - 26))
  else if sextet < 62 then Char.ofNat ('0'.toNat + (sextet - 52))
  else if sextet = 62 then '+'
  else '/'

/-- The six bits of a character of the alphabet. -/
def decodeSextet? (character : Char) : Option Nat :=
  let code := character.toNat
  if 'A'.toNat ≤ code ∧ code ≤ 'Z'.toNat then some (code - 'A'.toNat)
  else if 'a'.toNat ≤ code ∧ code ≤ 'z'.toNat then some (code - 'a'.toNat + 26)
  else if '0'.toNat ≤ code ∧ code ≤ '9'.toNat then some (code - '0'.toNat + 52)
  else if character = '+' then some 62
  else if character = '/' then some 63
  else none

theorem decodeSextet?_encodeSextet :
    ∀ sextet < 64, decodeSextet? (encodeSextet sextet) = some sextet := by decide

theorem encodeSextet_ne_pad : ∀ sextet < 64, encodeSextet sextet ≠ '=' := by decide

/-- Writes bytes as padded text. -/
def encode : List UInt8 → List Char
  | [] => []
  | [a] =>
    [encodeSextet (a.toNat / 4), encodeSextet (a.toNat % 4 * 16), '=', '=']
  | [a, b] =>
    [encodeSextet (a.toNat / 4), encodeSextet (a.toNat % 4 * 16 + b.toNat / 16),
      encodeSextet (b.toNat % 16 * 4), '=']
  | a :: b :: c :: rest =>
    encodeSextet (a.toNat / 4) :: encodeSextet (a.toNat % 4 * 16 + b.toNat / 16) ::
      encodeSextet (b.toNat % 16 * 4 + c.toNat / 64) :: encodeSextet (c.toNat % 64) :: encode rest

/-- Reads padded text; bits that stand for no byte have to be zero. -/
def decode? : List Char → Option (List UInt8)
  | [] => some []
  | [p, q, '=', '='] => do
    let p ← decodeSextet? p
    let q ← decodeSextet? q
    if q % 16 = 0 then some [UInt8.ofNat (p * 4 + q / 16)] else none
  | [p, q, r, '='] => do
    let p ← decodeSextet? p
    let q ← decodeSextet? q
    let r ← decodeSextet? r
    if r % 4 = 0 then
      some [UInt8.ofNat (p * 4 + q / 16), UInt8.ofNat (q % 16 * 16 + r / 4)]
    else none
  | p :: q :: r :: s :: rest => do
    let p ← decodeSextet? p
    let q ← decodeSextet? q
    let r ← decodeSextet? r
    let s ← decodeSextet? s
    let tail ← decode? rest
    some (UInt8.ofNat (p * 4 + q / 16) :: UInt8.ofNat (q % 16 * 16 + r / 4) ::
      UInt8.ofNat (r % 4 * 64 + s) :: tail)
  | _ => none

end SliceControl.Text.Base64
