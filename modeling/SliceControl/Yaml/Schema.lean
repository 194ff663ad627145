import SliceControl.Yaml

/-!
# Schemas

A plain scalar such as `5` or `true` is a text where a text is expected, and a number or truth value
elsewhere. A schema says what is expected where; with it a YAML document becomes a JSON value, which
is then decoded. Where nothing is written, a collection is empty. A record that keeps no further
members may be written as a sequence of its members in order.
-/

namespace SliceControl.Yaml

/-- What is expected somewhere in a document. -/
inductive Schema where
  /-- Whatever is written. -/
  | value
  /-- Whatever is written, with texts as keys. -/
  | extra
  | text
  | nullable (inner : Schema)
  | list (items : Schema)
  | map (values : Schema)
  /-- Known members in order; others are kept or ignored. -/
  | record (members : List (String × Schema)) (keepsOthers : Bool)

namespace Schema

/-- The JSON value of a scalar. -/
def readScalar (found : Scalar) : Schema → Option Json
  | value | extra => found.value?
  | text => some (.string found.text)
  | nullable inner => if found.isNull then some .null else inner.readScalar found
  | list _ => if found.isNothing then some (.array []) else found.value?
  | map _ | record _ _ => if found.isNothing then some (.object []) else found.value?

/-- What is expected of the items of a sequence. -/
def item : Schema → Schema
  | list items => items
  | nullable inner => inner.item
  | extra => extra
  | value | text | map _ | record _ _ => value

/-- What is expected under a key, unless what stands there is ignored. -/
def member? (key : String) : Schema → Option Schema
  | map values => some values
  | record members keepsOthers =>
    match members.lookup key with
    | some schema => some schema
    | none => if keepsOthers then some extra else none
  | nullable inner => inner.member? key
  | extra => some extra
  | value | text | list _ => some value

/-- The members of a record that may be written as a sequence. -/
def positional? : Schema → Option (List (String × Schema))
  | record members false => some members
  | nullable inner => inner.positional?
  | value | extra | text | list _ | map _ | record _ true => none

/-- Whether a key may occur only once. -/
def isMember (key : String) : Schema → Bool
  | record members _ => (members.lookup key).isSome
  | nullable inner => inner.isMember key
  | value | extra | text | list _ | map _ => false

/-- Whether a scalar may be a key. -/
def allowsKey (key : Scalar) : Schema → Bool
  | extra => match key.value? with
    | some (.string _) => true
    | _ => false
  | nullable inner => inner.allowsKey key
  | text => false
  | value | list _ | map _ | record _ _ => true

/-- Whether the keys of a mapping are all right. -/
def allowsKeys (schema : Schema) (keys : List Scalar) : Bool :=
  let members := (keys.map Scalar.text).filter schema.isMember
  members.eraseDups.length = members.length && keys.all schema.allowsKey

end Schema

mutual

/-- The JSON value of a document, where `schema` is expected. -/
def toJson? (schema : Schema) : Yaml → Option Json
  | scalar found => schema.readScalar found
  | sequence items =>
    match schema.positional? with
    | some members => (membersToJson? members items).map Json.ofMembers
    | none => (itemsToJson? schema.item items).map .array
  | mapping entries =>
    if schema.allowsKeys (entries.map Prod.fst) then
      (entriesToJson? schema entries).map Json.ofMembers
    else none

def itemsToJson? (schema : Schema) : List Yaml → Option (List Json)
  | [] => some []
  | item :: items => do return (← toJson? schema item) :: (← itemsToJson? schema items)

def membersToJson? : List (String × Schema) → List Yaml → Option (List (String × Json))
  | _, [] => some []
  | [], _ :: _ => none
  | (key, schema) :: members, item :: items => do
    return (key, ← toJson? schema item) :: (← membersToJson? members items)

def entriesToJson? (schema : Schema) : List (Scalar × Yaml) → Option (List (String × Json))
  | [] => some []
  | (key, entry) :: entries => do
    let rest ← entriesToJson? schema entries
    match schema.member? key.text with
    | some schema => return (key.text, ← toJson? schema entry) :: rest
    | none => return rest

end

end SliceControl.Yaml
