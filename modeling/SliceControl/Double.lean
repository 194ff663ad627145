import SliceControl.Text.Numeral

/-!
# Binary64 numbers

The finite numbers of IEEE 754 with 64 bits. The absolute value of each is a multiple of the least
positive one, `2 ^ -1074`, and is counted in that unit here. A result that is not such a number is
rounded to the nearest one, and to the one with the even significand if two are equally near.
-/

namespace SliceControl

open Text

/-- The number of `significand * 2 ^ scale` units, negated if `negative`. The significand has 53
bits, except at the least scale, so that no number is written in two ways. -/
structure Double where
  negative : Bool
  significand : Nat
  scale : Nat
  fits : significand < Nat.pow 2 53
  normal : scale = 0 ∨ Nat.pow 2 52 ≤ significand
  bounded : scale ≤ 2045
  deriving DecidableEq

namespace Double

def zero (negative : Bool) : Double :=
  ⟨negative, 0, 0, by decide, .inl rfl, Nat.zero_le _⟩

/-- How many places behind the point a number has at most, in base two and in base ten. -/
def places : Nat := 1074

/-- How many units make one. -/
def one : Nat := Nat.pow 2 places

/-- The absolute value in units. -/
def units (value : Double) : Nat := value.significand * Nat.pow 2 value.scale

/-! ## Rounding -/

/-- The whole number nearest to a quotient; of two equally near ones the even one. -/
def nearest (numerator denominator : Nat) : Nat :=
  let quotient := numerator / denominator
  let rest := numerator % denominator
  if denominator < 2 * rest ∨ (denominator = 2 * rest ∧ quotient % 2 = 1) then quotient + 1
  else quotient

/-- The number of `significand * 2 ^ scale` units, where rounding up may have added a bit to the
significand; none beyond the greatest number. -/
def ofScaled? (negative : Bool) (significand scale : Nat) : Option Double :=
  if h : significand < Nat.pow 2 53 ∧ (scale = 0 ∨ Nat.pow 2 52 ≤ significand) ∧ scale ≤ 2045 then
    some ⟨negative, significand, scale, h.1, h.2.1, h.2.2⟩
  else if h : significand = Nat.pow 2 53 ∧ scale < 2045 then
    some ⟨negative, Nat.pow 2 52, scale + 1, by decide, .inr (Nat.le_refl _), h.2⟩
  else none

/-- The number nearest to a quotient in units; none beyond the greatest number. -/
def ofQuotient? (negative : Bool) (numerator denominator : Nat) : Option Double :=
  let scale := (numerator / denominator).log2 - 52
  ofScaled? negative (nearest numerator (denominator * Nat.pow 2 scale)) scale

/-! ## Arithmetic -/

def ofNat? (negative : Bool) (number : Nat) : Option Double :=
  ofQuotient? negative (number * one) 1

def times? (left right : Double) : Option Double :=
  ofQuotient? (left.negative ^^ right.negative) (left.units * right.units) one

/-- The quotient by a number other than zero. -/
def over? (left right : Double) : Option Double :=
  ofQuotient? (left.negative ^^ right.negative) (left.units * one) right.units

/-- The number nearest to a power of ten. -/
def powerOfTen? (power : Nat) : Option Double := ofNat? false (Nat.pow 10 power)

/-! ## Decimals -/

/-- The number `digits * 10 ^ exponent`. -/
structure Decimal where
  digits : Nat
  exponent : Int
  deriving DecidableEq

/-- The number nearest to a decimal. -/
def ofDecimal? (negative : Bool) (decimal : Decimal) : Option Double :=
  ofQuotient? negative (decimal.digits * Nat.pow 10 decimal.exponent.toNat * one)
    (Nat.pow 10 (-decimal.exponent).toNat)

/-- Divides by the greatest power of ten that there is, up to `times` times. -/
def lower? : (times : Nat) → Double → Option Double
  | 0, value => some value
  | times + 1, value => do
    if value.significand = 0 then return value
    lower? times (← value.over? (← powerOfTen? 308))

/-- An approximation of a decimal, by one multiplication or by divisions, each of which rounds.
Powers of ten beyond the greatest one are refused unless the digits are zero. -/
def approximate? (negative : Bool) (decimal : Decimal) : Option Double := do
  let value ← ofNat? negative decimal.digits
  let power := decimal.exponent.natAbs
  if 0 ≤ decimal.exponent then
    if power ≤ 308 then value.times? (← powerOfTen? power)
    else if decimal.digits = 0 then return value
    else none
  else
    let times := (power - 1) / 308
    (← lower? times value).over? (← powerOfTen? (power - 308 * times))

/-- The decimal with all the digits of the absolute value, down to the last place. -/
def exact (value : Double) : Decimal := ⟨value.units * Nat.pow 5 places, -places⟩

/-- The two decimals next to the absolute value with this many digits dropped, the closer one
first. -/
def neighbours (value : Double) (dropped : Nat) : List Decimal :=
  let digits := value.exact.digits
  let closer := nearest digits (Nat.pow 10 dropped)
  let farther := 2 * (digits / Nat.pow 10 dropped) + 1 - closer
  [⟨closer, dropped - places⟩, ⟨farther, dropped - places⟩]

/-- Whether the value is the number nearest to a decimal. -/
def readsBack (value : Double) (decimal : Decimal) : Bool :=
  ofDecimal? value.negative decimal = some value

/-- A decimal that the value is the nearest number to, with as many digits dropped as possible but
not more than `dropped`. -/
def shorten (value : Double) : (dropped : Nat) → Decimal
  | 0 => value.exact
  | dropped + 1 =>
    ((value.neighbours (dropped + 1)).find? value.readsBack).getD (value.shorten dropped)

/-- The decimal with the fewest digits that the value is the nearest number to. -/
def shortest (value : Double) : Decimal :=
  value.shorten (Numeral.digits value.exact.digits).length

end Double

end SliceControl
