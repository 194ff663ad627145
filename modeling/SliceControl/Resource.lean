import SliceControl.Json.Decode
import SliceControl.Time.Stamp
import SliceControl.Uid

/-!
# Resources

What all resources share: metadata with name, namespace, labels, annotations, owners and two
timestamps, and the envelopes for lists of resources and for the outcome of a request.
-/

namespace SliceControl

/-- The version that every resource of this control plane carries. -/
def apiVersion : String := "slice.tpu.dev/v1alpha1"

/-- A reference from a resource to the one that owns it. -/
structure OwnerReference where
  apiVersion : String
  kind : String
  name : String
  controller : Bool
  deriving DecidableEq

/-- The metadata of a resource. -/
structure Metadata where
  name : String
  /-- None for resources of the whole cluster. -/
  namespaceName : Option String
  uid : Uid
  labels : SortedMap String
  annotations : SortedMap String
  ownerReferences : List OwnerReference
  creationTimestamp : Option Instant
  /-- Present while the resource is being torn down. -/
  deletionTimestamp : Option Instant
  deriving DecidableEq

namespace Metadata

/-- Metadata for a resource of the whole cluster. -/
def named (name : String) : Metadata :=
  ⟨name, none, .generated, .empty, .empty, [], none, none⟩

def namespaceOrDefault (metadata : Metadata) : String := metadata.namespaceName.getD "default"

/-- Namespace and name, joined by a slash. -/
def qualifiedName (metadata : Metadata) : String :=
  metadata.namespaceOrDefault ++ "/" ++ metadata.name

def isDeleting (metadata : Metadata) : Bool := metadata.deletionTimestamp.isSome

/-- The first owner that is a controller. -/
def controllerOwner (metadata : Metadata) : Option OwnerReference :=
  metadata.ownerReferences.find? (·.controller)

/-- The metadata with `now` as its creation time, unless it has one. -/
def stamped (metadata : Metadata) (now : Instant) : Metadata :=
  { metadata with creationTimestamp := some (metadata.creationTimestamp.getD now) }

end Metadata

/-! ## JSON form -/

namespace Instant

def toJson (instant : Instant) : Json := .string (Time.writeStamp instant)

def ofJson (value : Json) : Decoded Instant := do
  let text ← Json.decodeString value
  match Time.readStamp? text with
  | some instant => .ok instant
  | none => .error (.unreadableText text "a timestamp")

end Instant

namespace OwnerReference

def toJson (owner : OwnerReference) : Json :=
  .ofMembers [("apiVersion", .string owner.apiVersion), ("kind", .string owner.kind),
    ("name", .string owner.name), ("controller", .bool owner.controller)]

def fields : List Json.Field :=
  [.required "apiVersion" Json.decodeString, .required "kind" Json.decodeString,
    .required "name" Json.decodeString, .defaulted "controller" Json.decodeBool]

def ofJson (value : Json) : Decoded OwnerReference := do
  let members ← value.decodeRecord "OwnerReference" fields
  let apiVersion ← Json.decodeMember members "apiVersion" Json.decodeString
  let controller ← Json.decodeMember members "controller" Json.decodeBool
  let kind ← Json.decodeMember members "kind" Json.decodeString
  let name ← Json.decodeMember members "name" Json.decodeString
  return {
    apiVersion := ← Json.required "apiVersion" apiVersion
    kind := ← Json.required "kind" kind
    name := ← Json.required "name" name
    controller := controller.getD false }

end OwnerReference

namespace Metadata

def toJson (metadata : Metadata) : Json :=
  .ofMembers (
    [("name", .string metadata.name)] ++
    Json.optional "namespace" (metadata.namespaceName.map .string) ++
    [("uid", metadata.uid.toJson), ("labels", .ofTexts metadata.labels),
      ("annotations", .ofTexts metadata.annotations)] ++
    (if metadata.ownerReferences.isEmpty then []
      else [("ownerReferences", .array (metadata.ownerReferences.map OwnerReference.toJson))]) ++
    Json.optional "creationTimestamp" (metadata.creationTimestamp.map Instant.toJson) ++
    Json.optional "deletionTimestamp" (metadata.deletionTimestamp.map Instant.toJson))

def fields : List Json.Field :=
  [.required "name" Json.decodeString,
    .defaulted "namespace" (Json.decodeNullable Json.decodeString), .defaulted "uid" Uid.ofJson,
    .defaulted "labels" Json.decodeTexts, .defaulted "annotations" Json.decodeTexts,
    .defaulted "ownerReferences" (Json.decodeList OwnerReference.ofJson),
    .defaulted "creationTimestamp" (Json.decodeNullable Instant.ofJson),
    .defaulted "deletionTimestamp" (Json.decodeNullable Instant.ofJson)]

/-- The metadata that a value stands for; where it has no identifier, `drawn` becomes its own. -/
def ofJson (drawn : Uid) (value : Json) : Decoded Metadata := do
  let members ← value.decodeRecord "ObjectMeta" fields
  let annotations ← Json.decodeMember members "annotations" Json.decodeTexts
  let creation ← Json.decodeMember members "creationTimestamp" (Json.decodeNullable Instant.ofJson)
  let deletion ← Json.decodeMember members "deletionTimestamp" (Json.decodeNullable Instant.ofJson)
  let labels ← Json.decodeMember members "labels" Json.decodeTexts
  let name ← Json.decodeMember members "name" Json.decodeString
  let space ← Json.decodeMember members "namespace" (Json.decodeNullable Json.decodeString)
  let owners ← Json.decodeMember members "ownerReferences" (Json.decodeList OwnerReference.ofJson)
  let uid ← Json.decodeMember members "uid" Uid.ofJson
  return {
    name := ← Json.required "name" name
    namespaceName := space.getD none
    uid := uid.getD drawn
    labels := labels.getD .empty
    annotations := annotations.getD .empty
    ownerReferences := owners.getD []
    creationTimestamp := creation.getD none
    deletionTimestamp := deletion.getD none }

end Metadata

/-! ## Envelopes -/

/-- A list of resources of one kind. -/
def listEnvelope (kind : String) (items : List Json) : Json :=
  .ofMembers [("apiVersion", .string apiVersion), ("kind", .string kind), ("items", .array items)]

/-- The outcome of a request. -/
structure OperationStatus where
  success : Bool
  message : String
  details : Option Json
  deriving DecidableEq

namespace OperationStatus

def succeeded (message : String) : OperationStatus := ⟨true, message, none⟩

def failed (message : String) : OperationStatus := ⟨false, message, none⟩

def toJson (status : OperationStatus) : Json :=
  .ofMembers ([("success", .bool status.success), ("message", .string status.message)] ++
    Json.optional "details" status.details)

end OperationStatus

end SliceControl
