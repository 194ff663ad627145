import SliceControl.Label
import SliceControl.Node

/-!
# Placements

The queue places a pod set by naming label levels, the coarsest first, and a list of domains, each
with one value for every level and the number of pods placed there. A placement is cut into one
piece for each replica, and each piece is mapped to the partitions of the nodes that it uses.
-/

namespace SliceControl

open Text

/-- A place and the number of pods in it. -/
structure Domain where
  values : List String
  count : UInt32
  deriving DecidableEq

/-- Where the pods of one pod set go. -/
structure Placement where
  levels : List String
  domains : List Domain
  deriving DecidableEq

/-- Why a placement cannot be mapped. -/
inductive PlacementError where
  | missingHostnameLevel
  | malformedDomain (index found expected : Nat)
  | podCountOverflow
  | podCountMismatch (assigned expected : Nat)
  | unevenReplicas (pods perReplica : Nat)
  deriving DecidableEq

def PlacementError.message : PlacementError → String
  | missingHostnameLevel => "topology assignment has no '" ++ Label.hostname ++ "' level"
  | malformedDomain index found expected =>
    s!"domain {index} has {found} values for {expected} levels"
  | podCountOverflow => "assignment places more than " ++ toString Numeral.max32 ++ " pods"
  | podCountMismatch assigned expected => s!"assignment places {assigned} pods, expected {expected}"
  | unevenReplicas pods perReplica =>
    s!"{pods} pods cannot be split into replicas of {perReplica}"

/-- The members of a list, each at its first appearance. -/
def distinct : List String → List String
  | [] => []
  | head :: rest => head :: (distinct rest).filter (· ≠ head)

namespace Placement

/-- The pods placed in a list of domains. -/
def podCount (domains : List Domain) : Nat :=
  domains.foldr (fun domain count => domain.count.toNat + count) 0

/-- The pods placed, which have to be countable in 32 bits. -/
def totalPods (placement : Placement) : Except PlacementError Nat :=
  let total := podCount placement.domains
  if total ≤ Numeral.max32 then .ok total else .error .podCountOverflow

/-- The position of a level. -/
def levelIndex? (placement : Placement) (level : String) : Option Nat :=
  placement.levels.findIdx? (· = level)

/-- Whether some domain names the node `host`. -/
def placesOn (placement : Placement) (host : String) : Bool :=
  match placement.levelIndex? Label.hostname with
  | some index => placement.domains.any fun domain => domain.values[index]? = some host
  | none => false

/-- The values that the domains have at a level, in order of first appearance. -/
def levelValues (placement : Placement) (level : String) : List String :=
  match placement.levelIndex? level with
  | some index => distinct (placement.domains.filterMap fun domain => domain.values[index]?)
  | none => []

/-! ## Cutting by replica -/

/-- The first `count` pods of a list of domains, and what is left. A domain that holds pods of both
is cut in two, and domains without pods are passed over. -/
def takePods (count : Nat) : List Domain → List Domain × List Domain
  | [] => ([], [])
  | domain :: rest =>
    if count = 0 then ([], domain :: rest)
    else if domain.count.toNat ≤ count then
      let (taken, left) := takePods (count - domain.count.toNat) rest
      (if domain.count = 0 then taken else domain :: taken, left)
    else
      ([⟨domain.values, UInt32.ofNat count⟩],
        ⟨domain.values, UInt32.ofNat (domain.count.toNat - count)⟩ :: rest)

/-- `number` successive pieces of `count` pods. -/
def pieces (count : Nat) : Nat → List Domain → List (List Domain)
  | 0, _ => []
  | number + 1, domains =>
    let (taken, left) := takePods count domains
    taken :: pieces count number left

/-- Cuts a placement into successive pieces of `podsPerReplica` pods. -/
def splitByReplica (placement : Placement) (podsPerReplica : Nat) :
    Except PlacementError (List Placement) := do
  let total ← placement.totalPods
  if podsPerReplica = 0 ∨ total % podsPerReplica ≠ 0 then
    throw (.unevenReplicas total podsPerReplica)
  return (pieces podsPerReplica (total / podsPerReplica) placement.domains).map
    fun domains => ⟨placement.levels, domains⟩

/-! ## Partitions -/

/-- The host that a domain names, where `index` is the position of the hostname level. -/
def hostOf (placement : Placement) (index : Nat) (entry : Domain × Nat) :
    Except PlacementError String :=
  match entry.1.values[index]? with
  | some host => .ok host
  | none => .error (.malformedDomain entry.2 entry.1.values.length placement.levels.length)

/-- The hosts that the domains name, in order. -/
def hosts (placement : Placement) : Except PlacementError (List String) :=
  match placement.levelIndex? Label.hostname with
  | some index => placement.domains.zipIdx.mapM (placement.hostOf index)
  | none => .error .missingHostnameLevel

/-- The value that a node has for a label; empty if there is no such node or label. -/
def nodeLabel (nodes : List Node) (label host : String) : String :=
  ((nodes.find? (·.name = host)).bind (·.label? label)).getD ""

/-- The values of a node label over all hosts, in order of first appearance. -/
def partitionIds (placement : Placement) (nodes : List Node) (label : String) :
    Except PlacementError (List String) :=
  placement.hosts.map fun hosts => distinct (hosts.map (nodeLabel nodes label))

end Placement

/-! ## JSON form -/

namespace Domain

def toJson (domain : Domain) : Json :=
  .ofMembers [("values", .ofStrings domain.values), ("count", .ofUInt32 domain.count)]

def fields : List Json.Field :=
  [.required "values" Json.decodeStrings, .required "count" Json.decodeUInt32]

def ofJson (value : Json) : Decoded Domain := do
  let members ← value.decodeRecord "TopologyDomain" fields
  let count ← Json.decodeMember members "count" Json.decodeUInt32
  let values ← Json.decodeMember members "values" Json.decodeStrings
  return {
    values := ← Json.required "values" values
    count := ← Json.required "count" count }

end Domain

namespace Placement

def toJson (placement : Placement) : Json :=
  .ofMembers [("levels", .ofStrings placement.levels),
    ("domains", .array (placement.domains.map Domain.toJson))]

def fields : List Json.Field :=
  [.required "levels" Json.decodeStrings, .required "domains" (Json.decodeList Domain.ofJson)]

def ofJson (value : Json) : Decoded Placement := do
  let members ← value.decodeRecord "TopologyAssignment" fields
  let domains ← Json.decodeMember members "domains" (Json.decodeList Domain.ofJson)
  let levels ← Json.decodeMember members "levels" Json.decodeStrings
  return {
    levels := ← Json.required "levels" levels
    domains := ← Json.required "domains" domains }

end Placement

end SliceControl
