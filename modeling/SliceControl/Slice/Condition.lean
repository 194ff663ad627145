import SliceControl.Resource

/-!
# Conditions and status of a slice

The health agent reports conditions, each with the time of its last transition. A status keeps the
newest condition of each type: an older report is refused, so transition times never go back.
-/

namespace SliceControl

/-- Whether a condition holds. -/
inductive ConditionStatus where
  | true
  | false
  | unknown
  deriving DecidableEq

/-- A report about one aspect of a slice. -/
structure Condition where
  type : String
  status : ConditionStatus
  reason : String
  message : String
  lastTransitionTime : Instant
  deriving DecidableEq

namespace Condition

/-- The type that says whether the hardware is usable. -/
def ready : String := "Ready"

/-- The type that says that the slice could not be made at all. -/
def creationFailed : String := "CreationFailed"

/-- The reasons that come with a condition of type `ready`. -/
def reasonActive : String := "Active"

def reasonDegraded : String := "ActiveDegraded"

def reasonHardwareFailure : String := "HardwareFailure"

def isTrue (condition : Condition) : Bool := condition.status = .true

def isFalse (condition : Condition) : Bool := condition.status = .false

end Condition

/-- What is known about a slice. -/
structure SliceStatus where
  conditions : List Condition
  blockId : Option String
  subBlockIds : List String
  deriving DecidableEq

/-- A report that is older than the recorded one of its type. -/
structure Regression where
  type : String
  recorded : Instant
  attempted : Instant
  deriving DecidableEq

def Regression.message (error : Regression) : String :=
  "condition '" ++ error.type ++ "' transition at " ++ Time.writeReadable error.attempted ++
    " is older than the recorded " ++ Time.writeReadable error.recorded

namespace SliceStatus

/-- A status before any report. -/
def empty : SliceStatus := ⟨[], none, []⟩

/-- The first condition of a type. -/
def condition? (status : SliceStatus) (type : String) : Option Condition :=
  status.conditions.find? (·.type = type)

/-- Takes the place of all conditions of the same type. -/
def replace (status : SliceStatus) (condition : Condition) : SliceStatus :=
  { status with
    conditions := status.conditions.filter (·.type ≠ condition.type) ++ [condition] }

/-- Records a report, unless the recorded one is newer. -/
def record (status : SliceStatus) (condition : Condition) : Except Regression SliceStatus :=
  match status.condition? condition.type with
  | some recorded =>
    if condition.lastTransitionTime.before recorded.lastTransitionTime then
      .error ⟨condition.type, recorded.lastTransitionTime, condition.lastTransitionTime⟩
    else .ok (status.replace condition)
  | none => .ok (status.replace condition)

end SliceStatus

/-! ## JSON form -/

namespace ConditionStatus

def spellings : List (String × ConditionStatus) :=
  [("True", .true), ("False", .false), ("Unknown", .unknown)]

def name : ConditionStatus → String
  | .true => "True"
  | .false => "False"
  | .unknown => "Unknown"

def toJson (status : ConditionStatus) : Json := .string status.name

def ofJson : Json → Decoded ConditionStatus := Json.decodeVariant spellings

end ConditionStatus

namespace Condition

def toJson (condition : Condition) : Json :=
  .ofMembers [("type", .string condition.type), ("status", condition.status.toJson),
    ("reason", .string condition.reason), ("message", .string condition.message),
    ("lastTransitionTime", condition.lastTransitionTime.toJson)]

def fields : List Json.Field :=
  [.required "type" Json.decodeString, .required "status" ConditionStatus.ofJson,
    .required "reason" Json.decodeString, .defaulted "message" Json.decodeString,
    .required "lastTransitionTime" Instant.ofJson]

def ofJson (value : Json) : Decoded Condition := do
  let members ← value.decodeRecord "SliceCondition" fields
  let time ← Json.decodeMember members "lastTransitionTime" Instant.ofJson
  let message ← Json.decodeMember members "message" Json.decodeString
  let reason ← Json.decodeMember members "reason" Json.decodeString
  let status ← Json.decodeMember members "status" ConditionStatus.ofJson
  let type ← Json.decodeMember members "type" Json.decodeString
  return {
    type := ← Json.required "type" type
    status := ← Json.required "status" status
    reason := ← Json.required "reason" reason
    message := message.getD ""
    lastTransitionTime := ← Json.required "lastTransitionTime" time }

end Condition

namespace SliceStatus

def toJson (status : SliceStatus) : Json :=
  .ofMembers (
    [("conditions", .array (status.conditions.map Condition.toJson))] ++
    Json.optional "blockId" (status.blockId.map .string) ++
    (if status.subBlockIds.isEmpty then []
      else [("subBlockIds", .ofStrings status.subBlockIds)]))

def fields : List Json.Field :=
  [.defaulted "conditions" (Json.decodeList Condition.ofJson),
    .defaulted "blockId" (Json.decodeNullable Json.decodeString),
    .defaulted "subBlockIds" Json.decodeStrings]

def ofJson (value : Json) : Decoded SliceStatus := do
  let members ← value.decodeRecord "SliceStatus" fields
  let blockId ← Json.decodeMember members "blockId" (Json.decodeNullable Json.decodeString)
  let conditions ← Json.decodeMember members "conditions" (Json.decodeList Condition.ofJson)
  let subBlockIds ← Json.decodeMember members "subBlockIds" Json.decodeStrings
  return ⟨conditions.getD [], blockId.getD none, subBlockIds.getD []⟩

end SliceStatus

end SliceControl
