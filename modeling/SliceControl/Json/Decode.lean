import SliceControl.Json.Token

/-!
# Decoding JSON values

A record is decoded from the members of an object in two rounds: first every member that is present
is decoded, in the order of the keys, and then the first required member that is missing is
reported. Members that the record does not know are ignored or kept aside. A record that keeps
nothing aside may also be written as an array of its fields in order.
-/

namespace SliceControl

open Text

/-- Why a value does not decode. -/
inductive DecodeError where
  | missingField (name : String)
  | wrongType (found : Json) (expected : String)
  | outOfRange (found : Int) (expected : String)
  | unknownVariant (found : String) (known : List String)
  | unreadableText (found : String) (expected : String)
  /-- An array ends before the fields of a record do. -/
  | tooFewItems (found : Nat) (expected : String)
  /-- An array goes on after the last field of a record. -/
  | tooManyItems (found : Nat)
  /-- Neither a text nor an object, where an enumeration is expected. -/
  | notVariant (found : Json)
  /-- An object that has not exactly one member, where an enumeration is expected. -/
  | notSingle
  deriving DecidableEq

/-- The result of decoding. -/
abbrev Decoded (α : Type) := Except DecodeError α

namespace DecodeError

/-- A text in double quotes, with quotes, backslashes and control characters escaped. -/
def quoted (text : String) : String :=
  String.ofList ('"' :: text.toList.flatMap escape ++ ['"'])
where
  escape (character : Char) : List Char :=
    if character = '"' then ['\\', '"']
    else if character = '\\' then ['\\', '\\']
    else if character = '\n' then ['\\', 'n']
    else if character = '\r' then ['\\', 'r']
    else if character = '\t' then ['\\', 't']
    else if character = '\x00' then ['\\', '0']
    else if character.toNat < 32 ∨ character.toNat = 127 then
      ['\\', 'u', '\x7b'] ++ Nat.toDigits 16 character.toNat ++ ['\x7d']
    else [character]

def code (text : String) : String := "`" ++ text ++ "`"

/-- What kind of value was found. -/
def describe : Json → String
  | .null => "null"
  | .bool value => "boolean " ++ code (if value then "true" else "false")
  | .whole value => "integer " ++ code (toString value.value)
  | .real value => "floating point " ++ code (String.ofList (Json.writeDouble value))
  | .string value => "string " ++ quoted value
  | .array _ => "sequence"
  | .object _ => "map"

/-- The alternatives of an enumeration. -/
def alternatives : List String → String
  | [] => "there are no variants"
  | [only] => "expected " ++ code only
  | [first, second] => "expected " ++ code first ++ " or " ++ code second
  | many => "expected one of " ++ String.intercalate ", " (many.map code)

def message : DecodeError → String
  | missingField name => "missing field " ++ code name
  | wrongType found expected => "invalid type: " ++ describe found ++ ", expected " ++ expected
  | outOfRange found expected =>
    "invalid value: integer " ++ code (toString found) ++ ", expected " ++ expected
  | unknownVariant found known => "unknown variant " ++ code found ++ ", " ++ alternatives known
  | unreadableText found expected =>
    "invalid value: string " ++ quoted found ++ ", expected " ++ expected
  | tooFewItems found expected => "invalid length " ++ toString found ++ ", expected " ++ expected
  | tooManyItems found =>
    "invalid length " ++ toString found ++ ", expected fewer elements in array"
  | notVariant found => "invalid type: " ++ describe found ++ ", expected string or map"
  | notSingle => "invalid value: map, expected map with a single key"

/-- Whether the fault counts as one of the text, not of the value, where a text is decoded. -/
def isSyntactic : DecodeError → Bool
  | tooManyItems _ | notVariant _ | notSingle => true
  | missingField _ | wrongType .. | outOfRange .. | unknownVariant .. | unreadableText ..
  | tooFewItems .. => false

end DecodeError

namespace Json

/-! ## Single values -/

def decodeString : Json → Decoded String
  | string value => .ok value
  | other => .error (.wrongType other "a string")

def decodeBool : Json → Decoded Bool
  | bool value => .ok value
  | other => .error (.wrongType other "a boolean")

/-- A whole number from zero to `limit`, where `name` says how such numbers are called. -/
def decodeNat (limit : Nat) (name : String) : Json → Decoded Nat
  | whole found =>
    if 0 ≤ found.value ∧ found.value ≤ limit then .ok found.value.toNat
    else .error (.outOfRange found.value name)
  | other => .error (.wrongType other name)

def decodeUInt16 (value : Json) : Decoded UInt16 :=
  (decodeNat Numeral.max16 "u16" value).map UInt16.ofNat

def decodeUInt32 (value : Json) : Decoded UInt32 :=
  (decodeNat Numeral.max32 "u32" value).map UInt32.ofNat

def decodeUInt64 (value : Json) : Decoded UInt64 :=
  (decodeNat Numeral.max64 "u64" value).map UInt64.ofNat

/-- Null stands for no value. -/
def decodeNullable {α : Type} (decode : Json → Decoded α) : Json → Decoded (Option α)
  | null => .ok none
  | other => (decode other).map some

/-! ## Lists and maps -/

def decodeList {α : Type} (decode : Json → Decoded α) : Json → Decoded (List α)
  | array items => items.mapM decode
  | other => .error (.wrongType other "a sequence")

def decodeEntry {α : Type} (decode : Json → Decoded α) (entry : String × Json) :
    Decoded (String × α) :=
  (decode entry.2).map fun value => (entry.1, value)

/-- An object with values of one kind. -/
def decodeMap {α : Type} (decode : Json → Decoded α) : Json → Decoded (SortedMap α)
  | object members =>
    ((SortedMap.ofList members).entries.mapM (decodeEntry decode)).map SortedMap.ofList
  | other => .error (.wrongType other "a map")

def decodeTexts : Json → Decoded (SortedMap String) := decodeMap decodeString

def decodeStrings : Json → Decoded (List String) := decodeList decodeString

/-! ## Records -/

/-- The members of an object that stands for a record called `name`. -/
def decodeMembers (name : String) : Json → Decoded (SortedMap Json)
  | object members => .ok (SortedMap.ofList members)
  | other => .error (.wrongType other ("struct " ++ name))

/-- A field of a record that may be written as an array. -/
structure Field where
  name : String
  /-- Whether the array may end before it. -/
  hasDefault : Bool
  /-- Whether a value decodes as this field. -/
  check : Json → Decoded Unit

namespace Field

/-- A field that has to be there. -/
def required {α : Type} (name : String) (decode : Json → Decoded α) : Field :=
  ⟨name, false, fun value => (decode value).map fun _ => ()⟩

/-- A field that has a default. -/
def defaulted {α : Type} (name : String) (decode : Json → Decoded α) : Field :=
  ⟨name, true, fun value => (decode value).map fun _ => ()⟩

/-- The items of an array under the names of the fields from `position` on, where `expected` says
what the whole array should be. Each item has to decode. -/
def place (expected : String) : Nat → List Field → List Json → Decoded (List (String × Json))
  | _, [], _ => .ok []
  | position, field :: fields, [] =>
    if field.hasDefault then place expected (position + 1) fields []
    else .error (.tooFewItems position expected)
  | position, field :: fields, item :: items => do
    field.check item
    return (field.name, item) :: (← place expected (position + 1) fields items)

/-- What an array of these fields is called. -/
def expectation (name : String) (fields : List Field) : String :=
  let elements := if fields.length = 1 then " element" else " elements"
  "struct " ++ name ++ " with " ++ toString fields.length ++ elements

end Field

/-- The members of a record called `name`, which is an object or an array of its fields. -/
def decodeRecord (name : String) (fields : List Field) : Json → Decoded (SortedMap Json)
  | array items => do
    let members ← Field.place (Field.expectation name fields) 0 fields items
    if fields.length < items.length then .error (.tooManyItems items.length)
    else return SortedMap.ofList members
  | other => other.decodeMembers name

/-- Decodes a member if it is present. -/
def decodeMember {α : Type} (members : SortedMap Json) (key : String) (decode : Json → Decoded α) :
    Decoded (Option α) :=
  match members.get? key with
  | some value => (decode value).map some
  | none => .ok none

/-- The decoded member, or an error if it was missing. -/
def required {α : Type} (key : String) : Option α → Decoded α
  | some value => .ok value
  | none => .error (.missingField key)

/-- The members that a record does not know. -/
def unknownMembers (members : SortedMap Json) (known : List String) : SortedMap Json :=
  members.filterKeys fun key => !known.contains key

/-! ## Enumerations -/

/-- The value of an enumeration that is spelled so. -/
def variant {α : Type} (variants : List (String × α)) (text : String) : Decoded α :=
  match SortedMap.lookup text variants with
  | some value => .ok value
  | none => .error (.unknownVariant text (variants.map Prod.fst))

/-- A value of an enumeration, by its exact spelling, which may also be the only key of an object
and stand for null. -/
def decodeVariant {α : Type} (variants : List (String × α)) : Json → Decoded α
  | string text => variant variants text
  | object [(text, content)] => do
    let value ← variant variants text
    if content = null then return value else .error (.wrongType content "unit")
  | object _ => .error .notSingle
  | other => .error (.notVariant other)

end Json

end SliceControl
