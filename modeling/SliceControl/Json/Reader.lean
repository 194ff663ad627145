import SliceControl.Json.Token

/-!
# Reading JSON

A value is built from its tokens with the open arrays and objects on a stack. Containers may be
nested to a depth of 127.
-/

namespace SliceControl.Json

/-- An open container with what it holds so far, the last first. -/
inductive Frame where
  | items (before : List Json)
  | members (before : List (String × Json)) (key : String)

/-- What may come next, with the containers that are open. -/
inductive Build where
  | expected (stack : List Frame)
  | firstItem (stack : List Frame)
  | firstKey (stack : List Frame)
  | nextKey (before : List (String × Json)) (stack : List Frame)
  | colon (before : List (String × Json)) (key : String) (stack : List Frame)
  | built (value : Json) (stack : List Frame)

def maxDepth : Nat := 127

/-- Begins a value. -/
def Build.start (stack : List Frame) : Token → Option Build
  | .null => some (.built .null stack)
  | .bool value => some (.built (.bool value) stack)
  | .whole value => some (.built (.whole value) stack)
  | .real value => some (.built (.real value) stack)
  | .string value => some (.built (.string value) stack)
  | .openArray => if stack.length < maxDepth then some (.firstItem stack) else none
  | .openObject => if stack.length < maxDepth then some (.firstKey stack) else none
  | _ => none

/-- Takes one token. -/
def Build.step : Build → Token → Option Build
  | .expected stack, token => Build.start stack token
  | .firstItem stack, .closeArray => some (.built (.array []) stack)
  | .firstItem stack, token => Build.start (.items [] :: stack) token
  | .firstKey stack, .closeObject => some (.built (.object []) stack)
  | .firstKey stack, .string key => some (.colon [] key stack)
  | .nextKey before stack, .string key => some (.colon before key stack)
  | .colon before key stack, .colon => some (.expected (.members before key :: stack))
  | .built value (.items before :: stack), .comma =>
    some (.expected (.items (value :: before) :: stack))
  | .built value (.items before :: stack), .closeArray =>
    some (.built (.array (value :: before).reverse) stack)
  | .built value (.members before key :: stack), .comma =>
    some (.nextKey ((key, value) :: before) stack)
  | .built value (.members before key :: stack), .closeObject =>
    some (.built (ofMembers ((key, value) :: before).reverse) stack)
  | _, _ => none

/-- The value that a sequence of tokens stands for. -/
def ofTokens? (tokens : List Token) : Option Json :=
  match tokens.foldlM Build.step (.expected []) with
  | some (.built value []) => some value
  | _ => none

/-- The value that a text stands for. -/
def read? (characters : List Char) : Option Json := (tokenize? characters).bind ofTokens?

def parse? (text : String) : Option Json := read? text.toList

end SliceControl.Json
