import SliceControl.Slice.State
import SliceControl.Workload

/-!
# The store

The store holds slices by name, workloads by key and nodes by name, and lists for every workload key
the slices that it owns. An operation yields its result together with the store that it leaves and
the workload keys that it publishes; those are the workloads whose situation may have changed.
-/

namespace SliceControl

/-- What a failing operation was about. -/
inductive ResourceKind where
  | slice
  | node
  | workload
  | admissionCheck
  deriving DecidableEq

def ResourceKind.name : ResourceKind → String
  | slice => "slice"
  | node => "node"
  | workload => "workload"
  | admissionCheck => "admission check"

/-- Why a store operation fails. -/
inductive StoreError where
  | notFound (kind : ResourceKind) (name : String)
  | alreadyExists (kind : ResourceKind) (name : String)
  | immutable (name : String)
  | ownedElsewhere (name owner : String)
  | status (error : Regression)
  | transient (detail : String)
  deriving DecidableEq

namespace StoreError

/-- Whether the same call may succeed when it is repeated. -/
def isTransient : StoreError → Bool
  | transient _ => true
  | _ => false

def isNotFound : StoreError → Bool
  | notFound .. => true
  | _ => false

def isAlreadyExists : StoreError → Bool
  | alreadyExists .. => true
  | _ => false

def message : StoreError → String
  | notFound kind name => kind.name ++ " '" ++ name ++ "' not found"
  | alreadyExists kind name => kind.name ++ " '" ++ name ++ "' already exists"
  | immutable name => "spec of slice '" ++ name ++ "' is immutable"
  | ownedElsewhere name owner => "slice '" ++ name ++ "' belongs to workload '" ++ owner ++ "'"
  | status error => "status update rejected: " ++ error.message
  | transient detail => "transient store error: " ++ detail

end StoreError

/-- Slices, workloads, nodes, and the slices that each workload owns. -/
structure Store where
  slices : SortedMap Slice
  workloads : SortedMap Workload
  nodes : SortedMap Node
  owned : SortedMap NameSet
  deriving DecidableEq

/-- What an operation yields: its result, the store that it leaves, and the published keys. -/
structure Change (α : Type) where
  result : Except StoreError α
  store : Store
  published : List String

/-- Numbers for the status report. -/
structure StoreStats where
  nodes : Nat
  workloads : Nat
  admittedWorkloads : Nat
  slices : Nat
  readySlices : Nat
  failedSlices : Nat
  deriving DecidableEq

namespace Store

def empty : Store := ⟨.empty, .empty, .empty, .empty⟩

/-- An operation that fails and changes nothing. -/
def refuse {α : Type} (store : Store) (error : StoreError) : Change α := ⟨.error error, store, []⟩

/-! ## Nodes -/

/-- The keys of the workloads that are admitted onto `host`. -/
def hostUsers (store : Store) (host : String) : List String :=
  (store.workloads.entries.filter fun entry => entry.2.usesHost host).map Prod.fst

/-- Registers a node or replaces its labels. -/
def upsertNode (store : Store) (node : Node) : Change Unit :=
  let next := { store with nodes := store.nodes.insert node.name node }
  ⟨.ok (), next, next.hostUsers node.name⟩

def removeNode (store : Store) (name : String) : Change Node :=
  match store.nodes.get? name with
  | none => store.refuse (.notFound .node name)
  | some node =>
    let next := { store with nodes := store.nodes.erase name }
    ⟨.ok node, next, next.hostUsers name⟩

def node? (store : Store) (name : String) : Option Node := store.nodes.get? name

/-- All nodes by name. -/
def listNodes (store : Store) : List Node := store.nodes.values

/-! ## Workloads -/

/-- Creates or replaces a workload. -/
def upsertWorkload (store : Store) (workload : Workload) (now : Instant) : Change Workload :=
  let stamped := { workload with metadata := workload.metadata.stamped now }
  ⟨.ok stamped, { store with workloads := store.workloads.insert workload.key stamped },
    [workload.key]⟩

def workload? (store : Store) (key : String) : Option Workload := store.workloads.get? key

def removeWorkload (store : Store) (key : String) : Change Workload :=
  match store.workloads.get? key with
  | none => store.refuse (.notFound .workload key)
  | some workload =>
    ⟨.ok workload, { store with workloads := store.workloads.erase key }, [key]⟩

/-- All workloads by key. -/
def listWorkloads (store : Store) : List Workload := store.workloads.values

def workloadKeys (store : Store) : List String := store.workloads.keys

/-- Updates an admission check of a workload that carries it. -/
def updateCheck (store : Store) (key : String) (check : AdmissionCheck) : Change Unit :=
  match store.workloads.get? key with
  | none => store.refuse (.notFound .workload key)
  | some workload =>
    match workload.setCheck? check with
    | none => store.refuse (.notFound .admissionCheck check.name)
    | some updated =>
      ⟨.ok (), { store with workloads := store.workloads.insert key updated }, []⟩

/-! ## Slices -/

def slice? (store : Store) (name : String) : Option Slice := store.slices.get? name

/-- All slices by name. -/
def listSlices (store : Store) : List Slice := store.slices.values

/-- The names listed for an owner. -/
def ownedNames (store : Store) (key : String) : NameSet := (store.owned.get? key).getD .empty

/-- The slices that a workload owns, by name. -/
def ownedSlices (store : Store) (key : String) : List Slice :=
  (store.ownedNames key).toList.filterMap store.slice?

/-- Lists a slice under its owner. -/
def indexAdd (owned : SortedMap NameSet) (owner name : String) : SortedMap NameSet :=
  owned.insert owner (((owned.get? owner).getD .empty).add name)

/-- Strikes a slice from the list of its owner, and the owner once nothing is left. -/
def indexRemove (owned : SortedMap NameSet) (owner name : String) : SortedMap NameSet :=
  match owned.get? owner with
  | none => owned
  | some names =>
    let rest := names.erase name
    if rest.isEmpty then owned.erase owner else owned.insert owner rest

/-- Inserts a slice under a name that is free. -/
def insertSlice (store : Store) (slice : Slice) (now : Instant) : Change Slice :=
  if store.slices.contains slice.name then store.refuse (.alreadyExists .slice slice.name)
  else
    let stamped := { slice with metadata := slice.metadata.stamped now }
    let owned := match slice.ownerKey with
      | some owner => indexAdd store.owned owner slice.name
      | none => store.owned
    ⟨.ok stamped, { store with slices := store.slices.insert slice.name stamped, owned }, []⟩

/-- Inserts a slice, or confirms that the existing one has the same spec. -/
def applySlice (store : Store) (slice : Slice) (now : Instant) : Change Slice :=
  match store.slice? slice.name with
  | some existing =>
    if existing.spec = slice.spec then ⟨.ok existing, store, []⟩
    else store.refuse (.immutable slice.name)
  | none => store.insertSlice slice now

def removeSlice (store : Store) (name : String) : Change Slice :=
  match store.slices.get? name with
  | none => store.refuse (.notFound .slice name)
  | some slice =>
    let slices := store.slices.erase name
    match slice.ownerKey with
    | some owner =>
      ⟨.ok slice, { store with slices, owned := indexRemove store.owned owner name }, [owner]⟩
    | none => ⟨.ok slice, { store with slices }, []⟩

/-- Records a report of the health agent. -/
def setCondition (store : Store) (name : String) (condition : Condition) : Change Slice :=
  match store.slices.get? name with
  | none => store.refuse (.notFound .slice name)
  | some slice =>
    match slice.status.record condition with
    | .error error => store.refuse (.status error)
    | .ok status =>
      let updated := { slice with status }
      ⟨.ok updated, { store with slices := store.slices.insert name updated },
        updated.ownerKey.toList⟩

/-- Records where the hardware of a slice stands. -/
def setPlacement (store : Store) (name : String) (blockId : Option String)
    (subBlockIds : List String) : Change Slice :=
  match store.slices.get? name with
  | none => store.refuse (.notFound .slice name)
  | some slice =>
    let updated := { slice with status := { slice.status with blockId, subBlockIds } }
    ⟨.ok updated, { store with slices := store.slices.insert name updated }, []⟩

/-! ## Numbers -/

def stats (store : Store) (now : Instant) (timeout : Duration) : StoreStats :=
  let states := store.listSlices.map fun slice => slice.state now timeout
  { nodes := store.nodes.size
    workloads := store.workloads.size
    admittedWorkloads := store.listWorkloads.countP Workload.isAdmitted
    slices := states.length
    readySlices := states.countP SliceState.isReady
    failedSlices := states.countP SliceState.isError }

end Store

def StoreStats.toJson (stats : StoreStats) : Json :=
  .ofMembers [("nodes", .ofNat stats.nodes), ("workloads", .ofNat stats.workloads),
    ("admittedWorkloads", .ofNat stats.admittedWorkloads), ("slices", .ofNat stats.slices),
    ("readySlices", .ofNat stats.readySlices), ("failedSlices", .ofNat stats.failedSlices)]

end SliceControl
