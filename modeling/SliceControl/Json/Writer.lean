import SliceControl.Json.Token

/-!
# Writing JSON

The compact form: no white space, and members in the order in which the value holds them.
-/

namespace SliceControl.Json

mutual

/-- The tokens of a value, followed by `rest`. -/
def tokensOnto : Json → List Token → List Token
  | .null, rest => .null :: rest
  | .bool value, rest => .bool value :: rest
  | .whole value, rest => .whole value :: rest
  | .real value, rest => .real value :: rest
  | .string value, rest => .string value :: rest
  | .array [], rest => .openArray :: .closeArray :: rest
  | .array (item :: items), rest => .openArray :: tokensOnto item (itemsOnto items rest)
  | .object [], rest => .openObject :: .closeObject :: rest
  | .object ((key, value) :: members), rest =>
    .openObject :: .string key :: .colon :: tokensOnto value (membersOnto members rest)

/-- The further items of an array, its end, and `rest`. -/
def itemsOnto : List Json → List Token → List Token
  | [], rest => .closeArray :: rest
  | item :: items, rest => .comma :: tokensOnto item (itemsOnto items rest)

/-- The further members of an object, its end, and `rest`. -/
def membersOnto : List (String × Json) → List Token → List Token
  | [], rest => .closeObject :: rest
  | (key, value) :: members, rest =>
    .comma :: .string key :: .colon :: tokensOnto value (membersOnto members rest)

end

/-- The tokens of a value. -/
def tokens (value : Json) : List Token := tokensOnto value []

/-- The compact text of a value. -/
def write (value : Json) : List Char := (tokens value).flatMap Token.write

def compact (value : Json) : String := String.ofList (write value)

end SliceControl.Json
