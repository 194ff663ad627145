import SliceControl.PodTemplate
import SliceControl.PodTemplate.Codec
import SliceControl.Resource

/-!
# Jobs

A job is a list of replica groups. Each group runs a number of replicas, and each replica runs as
many pods of one template as its parallelism says.
-/

namespace SliceControl

structure GroupTemplateSpec where
  /-- Pods in one replica; one if nothing is said. -/
  parallelism? : Option UInt32
  template : PodTemplate
  extra : Extra
  deriving DecidableEq

structure GroupTemplate where
  spec : GroupTemplateSpec
  extra : Extra
  deriving DecidableEq

/-- A group of equal replicas. -/
structure ReplicaGroup where
  name : String
  replicas : UInt32
  template : GroupTemplate
  extra : Extra
  deriving DecidableEq

structure JobSpec where
  groups : List ReplicaGroup
  extra : Extra
  deriving DecidableEq

/-- A training job of several replica groups. -/
structure Job where
  apiVersion : String
  kind : String
  metadata : Metadata
  spec : JobSpec
  deriving DecidableEq

namespace ReplicaGroup

def podTemplate (group : ReplicaGroup) : PodTemplate := group.template.spec.template

/-- Pods in one replica. -/
def parallelism (group : ReplicaGroup) : Nat := (group.template.spec.parallelism?.getD 1).toNat

def setPodTemplate (group : ReplicaGroup) (template : PodTemplate) : ReplicaGroup :=
  { group with template := { group.template with spec := { group.template.spec with template } } }

end ReplicaGroup

/-- Whether the job was submitted to a queue. -/
def Job.isQueued (job : Job) : Bool := job.metadata.labels.contains Label.queueName

/-! ## JSON form -/

namespace GroupTemplateSpec

def toJson (spec : GroupTemplateSpec) : Json :=
  .withExtra spec.extra (Json.optional "parallelism" (spec.parallelism?.map Json.ofUInt32) ++
    [("template", spec.template.toJson)])

def ofJson (value : Json) : Decoded GroupTemplateSpec := do
  let members ← value.decodeMembers "JobTemplateSpec"
  let parallelism ← Json.decodeMember members "parallelism" (Json.decodeNullable Json.decodeUInt32)
  let template ← Json.decodeMember members "template" PodTemplate.ofJson
  return ⟨parallelism.getD none, template.getD .empty,
    Json.unknownMembers members ["parallelism", "template"]⟩

end GroupTemplateSpec

namespace GroupTemplate

def toJson (template : GroupTemplate) : Json :=
  .withExtra template.extra [("spec", template.spec.toJson)]

def ofJson (value : Json) : Decoded GroupTemplate := do
  let members ← value.decodeMembers "JobTemplate"
  let spec ← Json.decodeMember members "spec" GroupTemplateSpec.ofJson
  return ⟨spec.getD ⟨none, .empty, .empty⟩, Json.unknownMembers members ["spec"]⟩

end GroupTemplate

namespace ReplicaGroup

def toJson (group : ReplicaGroup) : Json :=
  .withExtra group.extra [("name", .string group.name), ("replicas", .ofUInt32 group.replicas),
    ("template", group.template.toJson)]

def ofJson (value : Json) : Decoded ReplicaGroup := do
  let members ← value.decodeMembers "ReplicatedJob"
  let name ← Json.decodeMember members "name" Json.decodeString
  let replicas ← Json.decodeMember members "replicas" Json.decodeUInt32
  let template ← Json.decodeMember members "template" GroupTemplate.ofJson
  return {
    name := ← Json.required "name" name
    replicas := replicas.getD 1
    template := ← Json.required "template" template
    extra := Json.unknownMembers members ["name", "replicas", "template"] }

end ReplicaGroup

namespace JobSpec

def toJson (spec : JobSpec) : Json :=
  .withExtra spec.extra [("replicatedJobs", .array (spec.groups.map ReplicaGroup.toJson))]

def ofJson (value : Json) : Decoded JobSpec := do
  let members ← value.decodeMembers "JobSpec"
  let groups ← Json.decodeMember members "replicatedJobs" (Json.decodeList ReplicaGroup.ofJson)
  return ⟨groups.getD [], Json.unknownMembers members ["replicatedJobs"]⟩

end JobSpec

namespace Job

def toJson (job : Job) : Json :=
  .ofMembers [("apiVersion", .string job.apiVersion), ("kind", .string job.kind),
    ("metadata", job.metadata.toJson), ("spec", job.spec.toJson)]

def fields : List Json.Field :=
  [.required "apiVersion" Json.decodeString, .required "kind" Json.decodeString,
    .required "metadata" (Metadata.ofJson .generated), .required "spec" JobSpec.ofJson]

def ofJson (drawn : Uid) (value : Json) : Decoded Job := do
  let members ← value.decodeRecord "Job" fields
  let apiVersion ← Json.decodeMember members "apiVersion" Json.decodeString
  let kind ← Json.decodeMember members "kind" Json.decodeString
  let metadata ← Json.decodeMember members "metadata" (Metadata.ofJson drawn)
  let spec ← Json.decodeMember members "spec" JobSpec.ofJson
  return {
    apiVersion := ← Json.required "apiVersion" apiVersion
    kind := ← Json.required "kind" kind
    metadata := ← Json.required "metadata" metadata
    spec := ← Json.required "spec" spec }

end Job

end SliceControl
