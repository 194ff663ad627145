import SliceControl.Text.Percent
import SliceControl.Text.Pieces

/-!
# Endpoints

The paths that the server knows, and what each method does there. The parameters of a path are
percent-encoded and may not be empty.
-/

namespace SliceControl.Api

open Text

/-- A path that the server knows. -/
inductive Endpoint where
  | health
  | status
  | mutate
  | slices
  | slice (name : String)
  | sliceConditions (name : String)
  | slicePlacement (name : String)
  | workloads
  | workload (space name : String)
  | workloadSlices (space name : String)
  | nodes
  | node (name : String)
  deriving DecidableEq

/-- What a request asks for. -/
inductive Action where
  | checkHealth
  | showStatus
  | mutateJob
  | listSlices
  | showSlice (name : String)
  | deleteSlice (name : String)
  | reportCondition (name : String)
  | reportPlacement (name : String)
  | listWorkloads
  | upsertWorkload
  | showWorkload (key : String)
  | deleteWorkload (key : String)
  | listOwnedSlices (key : String)
  | listNodes
  | registerNode
  | showNode (name : String)
  | removeNode (name : String)
  deriving DecidableEq

namespace Endpoint

/-- The endpoint of a path that is split at its slashes. -/
def ofSegments? : List String → Option Endpoint
  | ["health"] => some health
  | ["mutate"] => some mutate
  | ["v1", "status"] => some status
  | ["v1", "slices"] => some slices
  | ["v1", "slices", name] => some (slice name)
  | ["v1", "slices", name, "conditions"] => some (sliceConditions name)
  | ["v1", "slices", name, "placement"] => some (slicePlacement name)
  | ["v1", "workloads"] => some workloads
  | ["v1", "namespaces", space, "workloads", name] => some (workload space name)
  | ["v1", "namespaces", space, "workloads", name, "slices"] => some (workloadSlices space name)
  | ["v1", "nodes"] => some nodes
  | ["v1", "nodes", name] => some (node name)
  | _ => none

/-- The endpoint of a target, whose path ends before a question mark or a hash sign. Apart from the
slash in front, the path has no empty segment. -/
def ofTarget? (target : String) : Option Endpoint :=
  match target.toList.takeWhile fun character => character ≠ '?' && character ≠ '#' with
  | '/' :: path =>
    let segments := pieces '/' path
    if segments.any List.isEmpty then none else ofSegments? (segments.map String.ofList)
  | _ => none

/-- The endpoint with its parameters decoded, if they are UTF-8. -/
def decode? : Endpoint → Option Endpoint
  | slice name => (percentDecode? name).map slice
  | sliceConditions name => (percentDecode? name).map sliceConditions
  | slicePlacement name => (percentDecode? name).map slicePlacement
  | workload space name => do return workload (← percentDecode? space) (← percentDecode? name)
  | workloadSlices space name => do
    return workloadSlices (← percentDecode? space) (← percentDecode? name)
  | node name => (percentDecode? name).map node
  | other => some other

/-- What a method does at an endpoint, if anything. -/
def action? : Endpoint → String → Option Action
  | health, "GET" => some .checkHealth
  | status, "GET" => some .showStatus
  | mutate, "POST" => some .mutateJob
  | slices, "GET" => some .listSlices
  | slice name, "GET" => some (.showSlice name)
  | slice name, "DELETE" => some (.deleteSlice name)
  | sliceConditions name, "PUT" => some (.reportCondition name)
  | slicePlacement name, "PUT" => some (.reportPlacement name)
  | workloads, "GET" => some .listWorkloads
  | workloads, "PUT" => some .upsertWorkload
  | workload space name, "GET" => some (.showWorkload (space ++ "/" ++ name))
  | workload space name, "DELETE" => some (.deleteWorkload (space ++ "/" ++ name))
  | workloadSlices space name, "GET" => some (.listOwnedSlices (space ++ "/" ++ name))
  | nodes, "GET" => some .listNodes
  | nodes, "POST" => some .registerNode
  | node name, "GET" => some (.showNode name)
  | node name, "DELETE" => some (.removeNode name)
  | _, _ => none

end Endpoint

end SliceControl.Api
