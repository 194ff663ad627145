import SliceControl.Json.Decode

/-!
# Unique identifiers

RFC 9562: an identifier of 128 bits, written as 32 lower-case hexadecimal digits in groups of 8, 4,
4, 4 and 12. Reading also takes upper case, the digits without hyphens, braces around the grouped
form, and the grouped form after `urn:uuid:`.
-/

namespace SliceControl

open Text

/-- The identifier of a resource. -/
inductive Uid where
  | given (digits : List (Fin 16)) (length_eq : digits.length = 32)
  /-- What a resource gets that the program makes itself. Nothing reads these identifiers or
  compares them, so which ones are drawn is left open; they are written as the word `generated`. -/
  | generated
  deriving DecidableEq

namespace Uid

/-- The lengths of the five groups of digits. -/
def groupSizes : List Nat := [8, 4, 4, 4, 12]

def hexChar (digit : Fin 16) : Char :=
  if digit.val < 10 then Char.ofNat (48 + digit.val) else Char.ofNat (87 + digit.val)

def hexValue? (character : Char) : Option (Fin 16) :=
  (hexDigit? character).bind fun digit => if h : digit < 16 then some ⟨digit, h⟩ else none

/-- The digits of a grouped text, taken group by group. -/
def readGroups? : List Nat → List Char → Option (List (Fin 16))
  | [], [] => some []
  | [], _ => none
  | [size], characters => if characters.length = size then characters.mapM hexValue? else none
  | size :: sizes, characters => do
    let first ← (characters.take size).mapM hexValue?
    match characters.drop size with
    | '-' :: rest => (readGroups? sizes rest).map (first ++ ·)
    | _ => none

/-- The digits in a text that names an identifier. -/
def digits? (text : String) : Option (List (Fin 16)) :=
  let characters := text.toList
  if characters.length = 32 then characters.mapM hexValue?
  else if characters.length = 36 then readGroups? groupSizes characters
  else if characters.length = 38 then
    if characters.head? = some '\x7b' ∧ characters.getLast? = some '\x7d' then
      readGroups? groupSizes ((characters.drop 1).take 36)
    else none
  else if characters.length = 45 then
    if characters.take 9 = "urn:uuid:".toList then readGroups? groupSizes (characters.drop 9)
    else none
  else none

/-- The identifier with these digits, if they are 32. -/
def ofDigits? (digits : List (Fin 16)) : Option Uid :=
  if h : digits.length = 32 then some (given digits h) else none

/-- The identifier that a text names. -/
def read? (text : String) : Option Uid := (digits? text).bind ofDigits?

/-- Lower-case digits in groups. -/
def writeGroups : List Nat → List (Fin 16) → List Char
  | [], _ => []
  | [_], digits => digits.map hexChar
  | size :: sizes, digits =>
    (digits.take size).map hexChar ++ '-' :: writeGroups sizes (digits.drop size)

def write : Uid → String
  | given digits _ => String.ofList (writeGroups groupSizes digits)
  | generated => "generated"

def toJson (uid : Uid) : Json := .string uid.write

def ofJson (value : Json) : Decoded Uid := do
  let text ← Json.decodeString value
  match read? text with
  | some uid => .ok uid
  | none => .error (.unreadableText text "a UUID")

/-! ## Leaving drawn identifiers out -/

/-- Whether a member is a drawn identifier. -/
def isDrawn (key : String) (value : Json) : Bool := key = "uid" && value = generated.toJson

mutual

/-- A value without the drawn identifiers in it, so that whoever reads it draws identifiers of its
own. -/
def leaveOut : Json → Json
  | .array items => .array (leaveOutItems items)
  | .object members => .object (leaveOutMembers members)
  | value => value

def leaveOutItems : List Json → List Json
  | [] => []
  | item :: items => leaveOut item :: leaveOutItems items

def leaveOutMembers : List (String × Json) → List (String × Json)
  | [] => []
  | (key, value) :: members =>
    if isDrawn key value then leaveOutMembers members
    else (key, leaveOut value) :: leaveOutMembers members

end

end Uid

end SliceControl
