import SliceControl.Label
import SliceControl.Resource

/-!
# Nodes

A node is a machine that hosts accelerator chips. Its labels say where it stands and whether it is
healthy; they are written by others and only read here.
-/

namespace SliceControl

/-- A machine that hosts accelerator chips. -/
structure Node where
  apiVersion : String
  kind : String
  metadata : Metadata
  deriving DecidableEq

namespace Node

def name (node : Node) : String := node.metadata.name

/-- The value of a label. -/
def label? (node : Node) (key : String) : Option String := node.metadata.labels.get? key

/-- Whether the node may host new slices. -/
def isHealthy (node : Node) : Bool := node.label? Label.health = some Label.healthy

def toJson (node : Node) : Json :=
  .ofMembers [("apiVersion", .string node.apiVersion), ("kind", .string node.kind),
    ("metadata", node.metadata.toJson)]

def fields : List Json.Field :=
  [.defaulted "apiVersion" Json.decodeString, .defaulted "kind" Json.decodeString,
    .required "metadata" (Metadata.ofJson .generated)]

def ofJson (drawn : Uid) (value : Json) : Decoded Node := do
  let members ← value.decodeRecord "Node" fields
  let apiVersion ← Json.decodeMember members "apiVersion" Json.decodeString
  let kind ← Json.decodeMember members "kind" Json.decodeString
  let metadata ← Json.decodeMember members "metadata" (Metadata.ofJson drawn)
  return {
    apiVersion := apiVersion.getD "v1"
    kind := kind.getD "Node"
    metadata := ← Json.required "metadata" metadata }

end Node

end SliceControl
