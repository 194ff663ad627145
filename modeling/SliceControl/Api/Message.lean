import SliceControl.Json.Decode
import SliceControl.Json.Reader

/-!
# Requests and responses

What travels between a client and the server. A body counts as JSON if its media type says so:
`application/json`, or a subtype of `application` with the suffix `json`.
-/

namespace SliceControl.Api

structure Request where
  method : String
  /-- The path, possibly with a query after it. -/
  target : String
  contentType : Option String
  body : String
  deriving DecidableEq

structure Response where
  status : Nat
  /-- None if the body is not JSON. -/
  body : Option Json
  deriving DecidableEq

namespace Response

def ofStatus (status : Nat) : Response := ⟨status, none⟩

def json (status : Nat) (body : Json) : Response := ⟨status, some body⟩

end Response

/-! ## Media types -/

/-- RFC 9110, section 5.6.2: the characters of a token. -/
def isTokenChar (character : Char) : Bool :=
  character.isAlphanum ||
    ['!', '#', '$', '%', '&', '\x27', '*', '+', '-', '.', '^', '_', '\x60', '|', '~'].contains
      character

/-- Visible ASCII characters, blanks and tabs, without the quotation mark. -/
def isQuotableChar (character : Char) : Bool :=
  (31 < character.toNat && character.toNat < 127 && character ≠ '"') || character = '\t'

/-- What is expected next in the parameters of a media type. -/
inductive ParameterStage where
  /-- A name, after blanks. -/
  | start
  | name
  /-- A value, of which nothing has been read. -/
  | value
  | bare
  /-- A quoted value; whether anything has been read of it. -/
  | quoted (isEmpty : Bool)
  | afterQuoted
  deriving DecidableEq

namespace ParameterStage

def step : ParameterStage → Char → Option ParameterStage
  | start, character =>
    if character = ' ' then some start else if isTokenChar character then some name else none
  | name, character =>
    if isTokenChar character then some name else if character = '=' then some value else none
  | value, character =>
    if character = '"' then some (quoted true)
    else if isTokenChar character then some bare else none
  | bare, character =>
    if isTokenChar character then some bare else if character = ';' then some start else none
  | quoted isEmpty, character =>
    if character = '"' && !isEmpty then some afterQuoted
    else if isQuotableChar character then some (quoted false) else none
  | afterQuoted, character =>
    if character = ' ' then some afterQuoted else if character = ';' then some start else none

/-- Whether the parameters may end here. -/
def isComplete : ParameterStage → Bool
  | start | value | bare | afterQuoted => true
  | name | quoted _ => false

end ParameterStage

def areParameters (characters : List Char) : Bool :=
  match characters.foldlM ParameterStage.step .start with
  | some stage => stage.isComplete
  | none => false

/-- Whether the part of a media type after the slash names JSON: as subtype, or as the suffix after
its last plus sign. -/
def isJsonSubtype (subtype : List Char) : Bool :=
  let json := ['j', 's', 'o', 'n']
  let suffix := (subtype.reverse.takeWhile (· ≠ '+')).reverse
  let front := subtype.take (subtype.length - suffix.length - 1)
  if subtype.tail.contains '+' then front = json || suffix = json else subtype = json

/-- Whether a media type is JSON. -/
def isJsonMedia (text : String) : Bool :=
  let characters := text.toList
  let type := characters.takeWhile isTokenChar
  match characters.drop type.length with
  | '/' :: rest =>
    let subtype := rest.takeWhile isTokenChar
    let parametersFollow := match rest.drop subtype.length with
      | [] => true
      | ';' :: parameters => !subtype.isEmpty && areParameters parameters
      | _ => false
    parametersFollow && type.map Char.toLower = "application".toList &&
      isJsonSubtype (subtype.map Char.toLower)
  | _ => false

/-! ## Bodies -/

/-- The body as a JSON value, or the response that refuses it. -/
def Request.json (request : Request) : Except Response Json :=
  match request.contentType with
  | some contentType =>
    if isJsonMedia contentType then
      match Json.parse? request.body with
      | some value => .ok value
      | none => .error (.ofStatus 400)
    else .error (.ofStatus 415)
  | none => .error (.ofStatus 415)

/-- The body as a value of one kind, or the response that refuses it. -/
def Request.decode {α : Type} (request : Request) (decode : Json → Decoded α) :
    Except Response α := do
  let value ← request.json
  match decode value with
  | .ok value => .ok value
  | .error error => .error (.ofStatus (if error.isSyntactic then 400 else 422))

end SliceControl.Api
