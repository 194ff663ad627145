import SliceControl.Slice.State

/-!
# Slice views

A slice as it is shown: with its name and the state that was derived for it.
-/

namespace SliceControl

/-- A slice with its name and state. -/
structure SliceView where
  name : String
  state : SliceState
  slice : Slice
  deriving DecidableEq

def SliceState.all : List SliceState :=
  [created, activating, active, activeDegraded, failed, deleted, stale, unknown]

def SliceState.ofJson : Json → Decoded SliceState :=
  Json.decodeVariant (SliceState.all.map fun state => (state.name, state))

namespace SliceView

/-- The view of a slice at `now`. -/
def of (slice : Slice) (now : Instant) (timeout : Duration) : SliceView :=
  ⟨slice.name, slice.state now timeout, slice⟩

def toJson (view : SliceView) : Json :=
  .ofMembers [("name", .string view.name), ("state", .string view.state.name),
    ("slice", view.slice.toJson)]

def fields : List Json.Field :=
  [.required "name" Json.decodeString, .required "state" SliceState.ofJson,
    .required "slice" (Slice.ofJson .generated)]

def ofJson (drawn : Uid) (value : Json) : Decoded SliceView := do
  let members ← value.decodeRecord "SliceView" fields
  let name ← Json.decodeMember members "name" Json.decodeString
  let slice ← Json.decodeMember members "slice" (Slice.ofJson drawn)
  let state ← Json.decodeMember members "state" SliceState.ofJson
  return {
    name := ← Json.required "name" name
    state := ← Json.required "state" state
    slice := ← Json.required "slice" slice }

end SliceView

end SliceControl
