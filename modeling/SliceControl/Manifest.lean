import SliceControl.Job
import SliceControl.Json.Reader
import SliceControl.Slice
import SliceControl.Text.Pieces
import SliceControl.Yaml.Reader
import SliceControl.Yaml.Schema

/-!
# Manifests

A job or a slice in a file. The file is YAML if its name ends in `.yaml` or `.yml`, and JSON
otherwise.
-/

namespace SliceControl

open Yaml (Schema)

/-- How a manifest is written. -/
inductive ManifestFormat where
  | json
  | yaml
  deriving DecidableEq

/-- What stands after the last point of a file name, unless the point comes first. -/
def extension? (path : String) : Option String :=
  let name := ((Text.pieces '/' path.toList).getLast?).getD []
  match (Text.pieces '.' name).reverse with
  | [] | [_] | [_, []] => none
  | extension :: _ => some (String.ofList extension)

/-- The format of the file at a path. -/
def ManifestFormat.ofPath (path : String) : ManifestFormat :=
  if extension? path = some "yaml" || extension? path = some "yml" then .yaml else .json

/-- A kind of resource that manifests hold. -/
structure ManifestKind (α : Type) where
  schema : Schema
  /-- The resource that a value stands for, given the identifier that it gets if it has none. -/
  decode : Uid → Json → Decoded α

/-- The resource that a text holds, with `drawn` as its identifier if it has none. -/
def ManifestKind.read? {α : Type} (kind : ManifestKind α) (drawn : Uid) (format : ManifestFormat)
    (text : String) : Option α := do
  let value ← match format with
    | .json => Json.parse? text
    | .yaml => (Yaml.parse? text).bind fun document => document.toJson? kind.schema
  (kind.decode drawn value).toOption

/-! ## Schemas -/

def ownerReferenceSchema : Schema :=
  .record [("apiVersion", .text), ("kind", .text), ("name", .text), ("controller", .value)] false

def metadataSchema : Schema :=
  .record [("name", .text), ("namespace", .nullable .text), ("uid", .text), ("labels", .map .text),
    ("annotations", .map .text), ("ownerReferences", .list ownerReferenceSchema),
    ("creationTimestamp", .nullable .text), ("deletionTimestamp", .nullable .text)] false

/-- A resource with the given spec, and possibly more members. -/
def resourceSchema (spec : Schema) (more : List (String × Schema)) : Schema :=
  .record ([("apiVersion", .text), ("kind", .text), ("metadata", metadataSchema), ("spec", spec)] ++
    more) false

def requirementSchema : Schema :=
  .record [("key", .text), ("operator", .text), ("values", .list .text)] false

def nodeSelectorSchema : Schema :=
  .record [("nodeSelectorTerms",
    .list (.record [("matchExpressions", .list requirementSchema)] true))] false

def affinitySchema : Schema :=
  .record [("nodeAffinity",
    .nullable (.record [(NodeAffinity.requiredKey, .nullable nodeSelectorSchema)] true))] true

def containerSchema : Schema :=
  .record [("name", .text),
    ("resources", .record [("limits", .map .value), ("requests", .map .value)] false)] true

def podTemplateSchema : Schema :=
  .record [("metadata", .record [("labels", .map .text), ("annotations", .map .text)] true),
    ("spec", .record [("nodeSelector", .map .text), ("affinity", .nullable affinitySchema),
      ("containers", .list containerSchema)] true)] false

def replicaGroupSchema : Schema :=
  .record [("name", .text), ("replicas", .value), ("template", .record [("spec",
    .record [("parallelism", .value), ("template", podTemplateSchema)] true)] true)] true

def conditionSchema : Schema :=
  .record [("type", .text), ("status", .text), ("reason", .text), ("message", .text),
    ("lastTransitionTime", .text)] false

def sliceSpecSchema : Schema :=
  .record [("acceleratorType", .text), ("topology", .text), ("nodeSelector", .map (.list .text))]
    false

def sliceStatusSchema : Schema :=
  .record [("conditions", .list conditionSchema), ("blockId", .nullable .text),
    ("subBlockIds", .list .text)] false

/-! ## Kinds -/

namespace ManifestKind

def job : ManifestKind Job :=
  ⟨resourceSchema (.record [("replicatedJobs", .list replicaGroupSchema)] true) [], Job.ofJson⟩

def slice : ManifestKind Slice :=
  ⟨resourceSchema sliceSpecSchema [("status", sliceStatusSchema)], Slice.ofJson⟩

end ManifestKind

end SliceControl
