import SliceControl.Json.Token

/-!
# YAML documents

A document is built from scalars, sequences and mappings. What a scalar stands for depends on its
style: a quoted scalar is always a text, while a plain one may stand for null, a truth value or a
number.
-/

namespace SliceControl

open Text

namespace Yaml

/-- A scalar as it was written. -/
structure Scalar where
  text : String
  /-- Whether it was written without quotes. -/
  isPlain : Bool
  deriving DecidableEq

end Yaml

/-- A YAML document. -/
inductive Yaml where
  | scalar (scalar : Yaml.Scalar)
  | sequence (items : List Yaml)
  | mapping (entries : List (Yaml.Scalar × Yaml))

namespace Yaml

/-- The document in which nothing is written. -/
def nothing : Yaml := scalar ⟨"", true⟩

/-! ## What a plain scalar stands for -/

/-- Leading zeros before further digits, which make a text of what looks like a number. -/
def hasLeadingZero (digits : List Char) : Bool :=
  1 < digits.length && digits.head? = some '0' && Numeral.isRun digits

/-- The number that digits of a base up to sixteen stand for. -/
def readDigits? (base : Nat) (digits : List Char) : Option Nat :=
  if digits.isEmpty then none
  else digits.foldlM (fun number character =>
    ((hexDigit? character).filter (· < base)).map (base * number + ·)) 0

/-- A number without a sign: hexadecimal, octal or binary with a mark in front, or decimal. -/
def magnitude? : List Char → Option Nat
  | '0' :: 'x' :: digits => readDigits? 16 digits
  | '0' :: 'o' :: digits => readDigits? 8 digits
  | '0' :: 'b' :: digits => readDigits? 2 digits
  | digits => if hasLeadingZero digits then none else Numeral.read? digits

/-- A whole number with an optional sign; none beyond 128 bits. -/
def integer? (characters : List Char) : Option Int :=
  let number : Option Int := match characters with
    | '-' :: rest => (magnitude? rest).map fun number => -(number : Int)
    | '+' :: rest => (magnitude? rest).map fun number => (number : Int)
    | _ => (magnitude? characters).map fun number => (number : Int)
  number.filter fun number => -Nat.pow 2 127 ≤ number ∧ number < Nat.pow 2 128

/-- The digits of a number with a point or an exponent: before the point, after it, and the
exponent. -/
def decimalParts? (characters : List Char) : Option (List Char × List Char × Int) := do
  let before := characters.takeWhile Char.isDigit
  let (after, rest) := match characters.drop before.length with
    | '.' :: rest => (rest.takeWhile Char.isDigit, rest.dropWhile Char.isDigit)
    | rest => ([], rest)
  guard (!before.isEmpty || !after.isEmpty)
  match rest with
  | [] => some (before, after, 0)
  | mark :: rest =>
    guard (mark = 'e' || mark = 'E')
    match rest with
    | '-' :: digits => (Numeral.read? digits).map fun power => (before, after, -(power : Int))
    | '+' :: digits => (Numeral.read? digits).map fun power => (before, after, (power : Int))
    | digits => (Numeral.read? digits).map fun power => (before, after, (power : Int))

/-- A number with a point or an exponent and an optional sign; none beyond the greatest number. -/
def decimal? (characters : List Char) : Option Double :=
  let (negative, digits) := match characters with
    | '-' :: rest => (true, rest)
    | '+' :: rest => (false, rest)
    | _ => (false, characters)
  if hasLeadingZero digits then none
  else (decimalParts? digits).bind fun (before, after, power) =>
    let digits := before ++ after
    -- Beyond these bounds every power gives the same number.
    let power := max (min (power - after.length) 400) (-(digits.length + 400))
    Double.ofDecimal? negative ⟨Numeral.value digits, power⟩

namespace Scalar

/-- Whether nothing was written. -/
def isNothing (scalar : Scalar) : Bool := scalar.isPlain && scalar.text.isEmpty

def isNull (scalar : Scalar) : Bool :=
  scalar.isPlain && ["", "null", "Null", "NULL", "~"].contains scalar.text

def bool? (scalar : Scalar) : Option Bool :=
  if ["true", "True", "TRUE"].contains scalar.text then some true
  else if ["false", "False", "FALSE"].contains scalar.text then some false
  else none

/-- Not-a-number and the infinities, which have no JSON form. -/
def isBeyondNumbers (scalar : Scalar) : Bool :=
  [".inf", ".Inf", ".INF", "+.inf", "+.Inf", "+.INF", "-.inf", "-.Inf", "-.INF", ".nan", ".NaN",
    ".NAN"].contains scalar.text

/-- The JSON value that a scalar stands for. There is none for a whole number of more than 64 and at
most 128 bits; beyond these it is a binary64 number. -/
def value? (scalar : Scalar) : Option Json :=
  if !scalar.isPlain then some (.string scalar.text)
  else if scalar.isNull || scalar.isBeyondNumbers then some .null
  else match scalar.bool?, integer? scalar.text.toList, decimal? scalar.text.toList with
    | some value, _, _ => some (.bool value)
    | none, some value, _ => (Whole.ofInt? value).map .whole
    | none, none, some value => some (.real value)
    | none, none, none => some (.string scalar.text)

end Scalar

end Yaml

end SliceControl
