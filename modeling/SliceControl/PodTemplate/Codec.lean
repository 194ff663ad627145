import SliceControl.PodTemplate

/-!
# The JSON form of pod templates

Empty maps and lists are left out where the form says so, and unknown members are written back
beside the known ones.
-/

namespace SliceControl

/-- A member that is left out when it is empty. -/
def Json.unlessEmpty (key : String) (isEmpty : Bool) (value : Json) : List (String × Json) :=
  if isEmpty then [] else [(key, value)]

/-- An object of the members of `extra` and the given ones. -/
def Json.withExtra (extra : Extra) (members : List (String × Json)) : Json :=
  .ofMembers (extra.entries ++ members)

namespace Requirement

def toJson (requirement : Requirement) : Json :=
  .ofMembers ([("key", .string requirement.key), ("operator", .string requirement.operator)] ++
    Json.unlessEmpty "values" requirement.values.isEmpty (.ofStrings requirement.values))

def fields : List Json.Field :=
  [.required "key" Json.decodeString, .required "operator" Json.decodeString,
    .defaulted "values" Json.decodeStrings]

def ofJson (value : Json) : Decoded Requirement := do
  let members ← value.decodeRecord "NodeSelectorRequirement" fields
  let key ← Json.decodeMember members "key" Json.decodeString
  let operator ← Json.decodeMember members "operator" Json.decodeString
  let values ← Json.decodeMember members "values" Json.decodeStrings
  return {
    key := ← Json.required "key" key
    operator := ← Json.required "operator" operator
    values := values.getD [] }

end Requirement

namespace SelectorTerm

def toJson (term : SelectorTerm) : Json :=
  .withExtra term.extra (Json.unlessEmpty "matchExpressions" term.expressions.isEmpty
    (.array (term.expressions.map Requirement.toJson)))

def ofJson (value : Json) : Decoded SelectorTerm := do
  let members ← value.decodeMembers "NodeSelectorTerm"
  let expressions ← Json.decodeMember members "matchExpressions"
    (Json.decodeList Requirement.ofJson)
  return ⟨expressions.getD [], Json.unknownMembers members ["matchExpressions"]⟩

end SelectorTerm

namespace NodeSelector

def toJson (selector : NodeSelector) : Json :=
  .ofMembers [("nodeSelectorTerms", .array (selector.terms.map SelectorTerm.toJson))]

def fields : List Json.Field :=
  [.defaulted "nodeSelectorTerms" (Json.decodeList SelectorTerm.ofJson)]

def ofJson (value : Json) : Decoded NodeSelector := do
  let members ← value.decodeRecord "NodeSelector" fields
  let terms ← Json.decodeMember members "nodeSelectorTerms" (Json.decodeList SelectorTerm.ofJson)
  return ⟨terms.getD []⟩

end NodeSelector

namespace NodeAffinity

def requiredKey : String := "requiredDuringSchedulingIgnoredDuringExecution"

def toJson (affinity : NodeAffinity) : Json :=
  .withExtra affinity.extra (Json.optional requiredKey (affinity.required.map NodeSelector.toJson))

def ofJson (value : Json) : Decoded NodeAffinity := do
  let members ← value.decodeMembers "NodeAffinity"
  let required ← Json.decodeMember members requiredKey (Json.decodeNullable NodeSelector.ofJson)
  return ⟨required.getD none, Json.unknownMembers members [requiredKey]⟩

end NodeAffinity

namespace Affinity

def toJson (affinity : Affinity) : Json :=
  .withExtra affinity.extra
    (Json.optional "nodeAffinity" (affinity.nodeAffinity.map NodeAffinity.toJson))

def ofJson (value : Json) : Decoded Affinity := do
  let members ← value.decodeMembers "Affinity"
  let nodeAffinity ← Json.decodeMember members "nodeAffinity"
    (Json.decodeNullable NodeAffinity.ofJson)
  return ⟨nodeAffinity.getD none, Json.unknownMembers members ["nodeAffinity"]⟩

end Affinity

namespace ResourceRequirements

def toJson (resources : ResourceRequirements) : Json :=
  .ofMembers (Json.unlessEmpty "limits" resources.limits.isEmpty (.ofMap resources.limits) ++
    Json.unlessEmpty "requests" resources.requests.isEmpty (.ofMap resources.requests))

def fields : List Json.Field :=
  [.defaulted "limits" (Json.decodeMap .ok), .defaulted "requests" (Json.decodeMap .ok)]

def ofJson (value : Json) : Decoded ResourceRequirements := do
  let members ← value.decodeRecord "ResourceRequirements" fields
  let limits ← Json.decodeMember members "limits" (Json.decodeMap .ok)
  let requests ← Json.decodeMember members "requests" (Json.decodeMap .ok)
  return ⟨limits.getD .empty, requests.getD .empty⟩

end ResourceRequirements

namespace Container

def toJson (container : Container) : Json :=
  .withExtra container.extra
    [("name", .string container.name), ("resources", container.resources.toJson)]

def ofJson (value : Json) : Decoded Container := do
  let members ← value.decodeMembers "Container"
  let name ← Json.decodeMember members "name" Json.decodeString
  let resources ← Json.decodeMember members "resources" ResourceRequirements.ofJson
  return ⟨name.getD "", resources.getD .empty, Json.unknownMembers members ["name", "resources"]⟩

end Container

namespace TemplateMetadata

def toJson (metadata : TemplateMetadata) : Json :=
  .withExtra metadata.extra (
    Json.unlessEmpty "labels" metadata.labels.isEmpty (.ofTexts metadata.labels) ++
    Json.unlessEmpty "annotations" metadata.annotations.isEmpty (.ofTexts metadata.annotations))

def ofJson (value : Json) : Decoded TemplateMetadata := do
  let members ← value.decodeMembers "TemplateMeta"
  let annotations ← Json.decodeMember members "annotations" Json.decodeTexts
  let labels ← Json.decodeMember members "labels" Json.decodeTexts
  return ⟨labels.getD .empty, annotations.getD .empty,
    Json.unknownMembers members ["labels", "annotations"]⟩

end TemplateMetadata

namespace PodSpec

def toJson (spec : PodSpec) : Json :=
  .withExtra spec.extra (
    Json.unlessEmpty "nodeSelector" spec.nodeSelector.isEmpty (.ofTexts spec.nodeSelector) ++
    Json.optional "affinity" (spec.affinity.map Affinity.toJson) ++
    [("containers", .array (spec.containers.map Container.toJson))])

def ofJson (value : Json) : Decoded PodSpec := do
  let members ← value.decodeMembers "PodSpec"
  let affinity ← Json.decodeMember members "affinity" (Json.decodeNullable Affinity.ofJson)
  let containers ← Json.decodeMember members "containers" (Json.decodeList Container.ofJson)
  let nodeSelector ← Json.decodeMember members "nodeSelector" Json.decodeTexts
  return ⟨nodeSelector.getD .empty, affinity.getD none, containers.getD [],
    Json.unknownMembers members ["nodeSelector", "affinity", "containers"]⟩

end PodSpec

namespace PodTemplate

def toJson (template : PodTemplate) : Json :=
  .ofMembers [("metadata", template.metadata.toJson), ("spec", template.spec.toJson)]

def fields : List Json.Field :=
  [.defaulted "metadata" TemplateMetadata.ofJson, .defaulted "spec" PodSpec.ofJson]

def ofJson (value : Json) : Decoded PodTemplate := do
  let members ← value.decodeRecord "PodTemplate" fields
  let metadata ← Json.decodeMember members "metadata" TemplateMetadata.ofJson
  let spec ← Json.decodeMember members "spec" PodSpec.ofJson
  return ⟨metadata.getD .empty, spec.getD .empty⟩

end PodTemplate

end SliceControl
