import SliceControl.Json
import SliceControl.Text.Numeral
import SliceControl.Text.Percent

/-!
# JSON tokens

RFC 8259: a JSON text is a sequence of tokens with white space between them. The scanner reads one
character at a time and keeps what it has read of an unfinished token.
-/

namespace SliceControl.Json

open Text

inductive Token where
  | openArray
  | closeArray
  | openObject
  | closeObject
  | comma
  | colon
  | null
  | bool (value : Bool)
  | whole (value : Whole)
  | real (value : Double)
  | string (value : String)
  deriving DecidableEq

/-! ## Writing -/

def lowerHex (digit : Nat) : Char :=
  if digit < 10 then Char.ofNat (48 + digit) else Char.ofNat (87 + digit)

/-- The short escapes, `\u00xx` for the other control characters, and every other character raw. -/
def writeChar (character : Char) : List Char :=
  if character = '"' then ['\\', '"']
  else if character = '\\' then ['\\', '\\']
  else if character = '\n' then ['\\', 'n']
  else if character = '\r' then ['\\', 'r']
  else if character = '\t' then ['\\', 't']
  else if character = '\x08' then ['\\', 'b']
  else if character = '\x0c' then ['\\', 'f']
  else if character.toNat < 32 then
    ['\\', 'u', '0', '0', lowerHex (character.toNat / 16), lowerHex (character.toNat % 16)]
  else [character]

def writeString (text : String) : List Char := '"' :: text.toList.flatMap writeChar ++ ['"']

def writeWhole (value : Whole) : List Char :=
  if value.value < 0 then '-' :: Numeral.digits value.value.natAbs
  else Numeral.digits value.value.toNat

/-- The fewest digits that tell a number from its neighbours: positional with a fraction part while
the point falls within sixteen digits or at most five places before them, and with an exponent
otherwise. -/
def writeDouble (value : Double) : List Char :=
  let decimal := value.shortest
  let digits := Numeral.digits decimal.digits
  let count : Int := digits.length
  let point := count + decimal.exponent
  let body :=
    if decimal.digits = 0 then ['0', '.', '0']
    else if 0 ≤ decimal.exponent ∧ point ≤ 16 then
      digits ++ List.replicate decimal.exponent.toNat '0' ++ ['.', '0']
    else if 0 < point ∧ point ≤ 16 then
      digits.take point.toNat ++ '.' :: digits.drop point.toNat
    else if -5 < point ∧ point ≤ 0 then
      '0' :: '.' :: List.replicate (-point).toNat '0' ++ digits
    else
      let power := point - 1
      let exponent := 'e' :: (if power < 0 then ['-'] else []) ++ Numeral.digits power.natAbs
      match digits with
      | [digit] => digit :: exponent
      | digit :: rest => digit :: '.' :: rest ++ exponent
      | [] => []
  if value.negative then '-' :: body else body

def Token.write : Token → List Char
  | openArray => ['[']
  | closeArray => [']']
  | openObject => ['\x7b']
  | closeObject => ['\x7d']
  | comma => [',']
  | colon => [':']
  | null => ['n', 'u', 'l', 'l']
  | bool true => ['t', 'r', 'u', 'e']
  | bool false => ['f', 'a', 'l', 's', 'e']
  | whole value => writeWhole value
  | real value => writeDouble value
  | string value => writeString value

/-! ## Numbers and words -/

/-- Digits, then a point and digits, then an exponent; gives the three runs and the rest. -/
structure NumberParts where
  negative : Bool
  integral : List Char
  fraction : Option (List Char)
  exponent : Option (Bool × List Char)

/-- Splits the text of a number into its parts, by the number grammar of JSON. -/
def numberParts? (characters : List Char) : Option NumberParts := do
  let (negative, rest) := match characters with
    | '-' :: rest => (true, rest)
    | _ => (false, characters)
  let integral := rest.takeWhile Char.isDigit
  guard (!integral.isEmpty && (integral.length = 1 || integral.head? ≠ some '0'))
  let (fraction, rest) ← match rest.drop integral.length with
    | '.' :: rest =>
      let digits := rest.takeWhile Char.isDigit
      if digits.isEmpty then none else some (some digits, rest.drop digits.length)
    | rest => some (none, rest)
  match rest with
  | [] => some ⟨negative, integral, fraction, none⟩
  | mark :: rest =>
    guard (mark = 'e' || mark = 'E')
    let (down, digits) := match rest with
      | '+' :: digits => (false, digits)
      | '-' :: digits => (true, digits)
      | _ => (false, rest)
    guard (Numeral.isRun digits)
    some ⟨negative, integral, fraction, some (down, digits)⟩

/-- Takes digits into a significand as long as it keeps to 64 bits; gives it and the number of
digits that are left. -/
def absorb (significand : Nat) : List Char → Nat × Nat
  | [] => (significand, 0)
  | digit :: rest =>
    let next := 10 * significand + (digit.toNat - '0'.toNat)
    if next ≤ Numeral.max64 then absorb next rest else (significand, rest.length + 1)

/-- The power of ten that an exponent is written as. -/
def NumberParts.power (parts : NumberParts) : Int :=
  match parts.exponent with
  | some (true, digits) => -(Numeral.value digits : Int)
  | some (false, digits) => Numeral.value digits
  | none => 0

/-- The binary64 number that the parts of a number stand for, up to the roundings on the way. Digits
that the significand has no room for count before the point and are ignored after it. -/
def NumberParts.double? (parts : NumberParts) : Option Double :=
  let fraction := parts.fraction.getD []
  let (integral, more) := absorb 0 parts.integral
  let (significand, ignored) := absorb integral fraction
  let places : Int := fraction.length - ignored
  Double.approximate? parts.negative ⟨significand, more - places + parts.power⟩

/-- The token for the text of a number. `-0`, numbers beyond 64 bits and numbers with a fraction or
an exponent are binary64 numbers, and none is beyond the greatest of these. -/
def numberToken? (characters : List Char) : Option Token := do
  let parts ← numberParts? characters
  let magnitude := Numeral.value parts.integral
  let value : Int := if parts.negative then -(magnitude : Int) else magnitude
  match parts.fraction, parts.exponent, Whole.ofInt? value with
  | none, none, some number =>
    if parts.negative && magnitude = 0 then return .real (.zero true) else return .whole number
  | _, _, _ => return .real (← parts.double?)

def wordToken? (characters : List Char) : Option Token :=
  if characters = ['n', 'u', 'l', 'l'] then some .null
  else if characters = ['t', 'r', 'u', 'e'] then some (.bool true)
  else if characters = ['f', 'a', 'l', 's', 'e'] then some (.bool false)
  else none

/-! ## Scanning -/

/-- What has been read of an unfinished token; characters in reverse order. -/
inductive Partial where
  | none
  | word (read : List Char)
  | number (read : List Char)
  | string (read : List Char)
  | escape (read : List Char)
  | unicode (read : List Char) (high : Option Nat) (digits : Nat) (code : Nat)
  | lowEscape (read : List Char) (high : Nat)
  | lowUnicode (read : List Char) (high : Nat)

/-- The finished tokens, the last one first, and what has been read of the next. -/
structure Scan where
  tokens : List Token
  pending : Partial

def isJsonBlank (character : Char) : Bool :=
  character = ' ' || character = '\t' || character = '\n' || character = '\r'

def isNumberChar (character : Char) : Bool :=
  character.isDigit || character = '-' || character = '+' || character = '.' ||
    character = 'e' || character = 'E'

def punctuation? (character : Char) : Option Token :=
  if character = '[' then some .openArray
  else if character = ']' then some .closeArray
  else if character = '\x7b' then some .openObject
  else if character = '\x7d' then some .closeObject
  else if character = ',' then some .comma
  else if character = ':' then some .colon
  else none

/-- Begins a token with `character`. -/
def Scan.start (tokens : List Token) (character : Char) : Option Scan :=
  if isJsonBlank character then some ⟨tokens, .none⟩
  else if character = '"' then some ⟨tokens, .string []⟩
  else match punctuation? character with
    | some token => some ⟨token :: tokens, .none⟩
    | none =>
      if character.isDigit || character = '-' then some ⟨tokens, .number [character]⟩
      else if character.isLower then some ⟨tokens, .word [character]⟩
      else none

/-- The character that a one-letter escape stands for. -/
def escaped? (letter : Char) : Option Char :=
  if letter = '"' then some '"'
  else if letter = '\\' then some '\\'
  else if letter = '/' then some '/'
  else if letter = 'b' then some '\x08'
  else if letter = 'f' then some '\x0c'
  else if letter = 'n' then some '\n'
  else if letter = 'r' then some '\r'
  else if letter = 't' then some '\t'
  else none

/-- Ends a four-digit escape. A high surrogate waits for its low partner, and neither may stand
alone. -/
def finishUnicode (tokens : List Token) (read : List Char) (high : Option Nat) (code : Nat) :
    Option Scan :=
  match high with
  | none =>
    if 0xD800 ≤ code ∧ code ≤ 0xDBFF then some ⟨tokens, .lowEscape read code⟩
    else if 0xDC00 ≤ code ∧ code ≤ 0xDFFF then none
    else some ⟨tokens, .string (Char.ofNat code :: read)⟩
  | some high =>
    if 0xDC00 ≤ code ∧ code ≤ 0xDFFF then
      let full := 0x10000 + (high - 0xD800) * 0x400 + (code - 0xDC00)
      some ⟨tokens, .string (Char.ofNat full :: read)⟩
    else none

/-- Reads one character. -/
def Scan.step (scan : Scan) (character : Char) : Option Scan :=
  match scan.pending with
  | .none => Scan.start scan.tokens character
  | .word read =>
    if character.isLower then some ⟨scan.tokens, .word (character :: read)⟩
    else (wordToken? read.reverse).bind fun token => Scan.start (token :: scan.tokens) character
  | .number read =>
    if isNumberChar character then some ⟨scan.tokens, .number (character :: read)⟩
    else (numberToken? read.reverse).bind fun token => Scan.start (token :: scan.tokens) character
  | .string read =>
    if character = '"' then some ⟨.string (String.ofList read.reverse) :: scan.tokens, .none⟩
    else if character = '\\' then some ⟨scan.tokens, .escape read⟩
    else if character.toNat < 32 then none
    else some ⟨scan.tokens, .string (character :: read)⟩
  | .escape read =>
    if character = 'u' then some ⟨scan.tokens, .unicode read none 0 0⟩
    else (escaped? character).map fun meant => ⟨scan.tokens, .string (meant :: read)⟩
  | .unicode read high digits code =>
    (hexDigit? character).bind fun digit =>
      if digits = 3 then finishUnicode scan.tokens read high (16 * code + digit)
      else some ⟨scan.tokens, .unicode read high (digits + 1) (16 * code + digit)⟩
  | .lowEscape read high =>
    if character = '\\' then some ⟨scan.tokens, .lowUnicode read high⟩ else none
  | .lowUnicode read high =>
    if character = 'u' then some ⟨scan.tokens, .unicode read (some high) 0 0⟩ else none

/-- Ends the text. -/
def Scan.finish (scan : Scan) : Option (List Token) :=
  match scan.pending with
  | .none => some scan.tokens.reverse
  | .word read => (wordToken? read.reverse).map fun token => (token :: scan.tokens).reverse
  | .number read => (numberToken? read.reverse).map fun token => (token :: scan.tokens).reverse
  | _ => none

/-- The tokens of a text. -/
def tokenize? (characters : List Char) : Option (List Token) :=
  (characters.foldlM Scan.step ⟨[], .none⟩).bind Scan.finish

end SliceControl.Json
