import SliceControl.Admission.Review
import SliceControl.Api.Endpoint
import SliceControl.Api.Message
import SliceControl.Slice.View
import SliceControl.Store

/-!
# The server

Answers requests over the store: slices with their reports, workloads, nodes, the status, and
admission reviews. A request is refused for the first of these reasons: the path is unknown, the
method is not for this path, a parameter is not UTF-8, the body is not declared as JSON, is not
JSON, or does not decode.
-/

namespace SliceControl.Api

/-- Where the hardware of a slice stands, as it is reported. -/
structure PlacementReport where
  blockId : Option String
  subBlockIds : List String
  deriving DecidableEq

def PlacementReport.fields : List Json.Field :=
  [.defaulted "blockId" (Json.decodeNullable Json.decodeString),
    .defaulted "subBlockIds" Json.decodeStrings]

def PlacementReport.ofJson (value : Json) : Decoded PlacementReport := do
  let members ← value.decodeRecord "PlacementRequest" fields
  let blockId ← Json.decodeMember members "blockId" (Json.decodeNullable Json.decodeString)
  let subBlockIds ← Json.decodeMember members "subBlockIds" Json.decodeStrings
  return ⟨blockId.getD none, subBlockIds.getD []⟩

/-- The status of a response that reports a failure of the store. -/
def failureStatus : StoreError → Nat
  | .notFound .. => 404
  | .alreadyExists .. | .immutable _ | .ownedElsewhere .. | .status _ => 409
  | .transient _ => 503

/-- What the answers depend on besides the store. -/
structure Clock where
  now : Instant
  stalenessTimeout : Duration
  /-- What a resource that comes without an identifier gets. -/
  drawn : Uid

namespace Clock

def view (clock : Clock) (slice : Slice) : Json :=
  (SliceView.of slice clock.now clock.stalenessTimeout).toJson

def views (clock : Clock) (slices : List Slice) : Json :=
  listEnvelope "SliceList" (slices.map clock.view)

end Clock

/-! ## Shapes of responses -/

/-- A resource, or null and the status 404. -/
def showing {α : Type} (encode : α → Json) : Option α → Response
  | some resource => .json 200 (encode resource)
  | none => .json 404 .null

/-- The outcome of removing a resource. -/
def removing {α : Type} (message : String) : Except StoreError α → Response
  | .ok _ => .json 200 (OperationStatus.succeeded message).toJson
  | .error error => .json (failureStatus error) (OperationStatus.failed error.message).toJson

/-- The outcome of a report about a slice. -/
def reporting (clock : Clock) : Except StoreError Slice → Response
  | .ok slice => .json 200 (.ofMembers [("success", .bool true), ("slice", clock.view slice)])
  | .error error => .json (failureStatus error)
      (.ofMembers [("success", .bool false), ("error", .string error.message)])

/-! ## Answering -/

/-- A response with the store that it leaves and the keys that are published. -/
structure Answer where
  response : Response
  store : Store
  published : List String

namespace Answer

/-- A response that changes nothing. -/
def still (store : Store) (response : Response) : Answer := ⟨response, store, []⟩

def ofChange {α : Type} (respond : Except StoreError α → Response) (change : Change α) : Answer :=
  ⟨respond change.result, change.store, change.published⟩

end Answer

/-- Goes on with the decoded body, or refuses the request. -/
def withBody {α : Type} (request : Request) (store : Store) (decode : Json → Decoded α)
    (answer : α → Answer) : Answer :=
  match request.decode decode with
  | .ok value => answer value
  | .error response => .still store response

/-- Carries out what a request asks for. -/
def perform (clock : Clock) (store : Store) (request : Request) : Action → Answer
  | .checkHealth => .still store (.ofStatus 200)
  | .showStatus =>
    .still store (.json 200 (.ofMembers [("status", .string "ok"),
      ("stats", (store.stats clock.now clock.stalenessTimeout).toJson)]))
  | .mutateJob =>
    withBody request store Review.ofJson fun review =>
      .still store (.json 200 (review.answer clock.drawn).toJson)
  | .listSlices => .still store (.json 200 (clock.views store.listSlices))
  | .showSlice name => .still store (showing clock.view (store.slice? name))
  | .deleteSlice name => .ofChange (removing "Slice deleted") (store.removeSlice name)
  | .reportCondition name =>
    withBody request store Condition.ofJson fun condition =>
      .ofChange (reporting clock) (store.setCondition name condition)
  | .reportPlacement name =>
    withBody request store PlacementReport.ofJson fun report =>
      .ofChange (reporting clock) (store.setPlacement name report.blockId report.subBlockIds)
  | .listWorkloads =>
    .still store (.json 200
      (listEnvelope "WorkloadList" (store.listWorkloads.map Workload.toJson)))
  | .upsertWorkload =>
    withBody request store (Workload.ofJson clock.drawn) fun workload =>
      .ofChange (fun result => showing Workload.toJson result.toOption)
        (store.upsertWorkload workload clock.now)
  | .showWorkload key => .still store (showing Workload.toJson (store.workload? key))
  | .deleteWorkload key => .ofChange (removing "Workload deleted") (store.removeWorkload key)
  | .listOwnedSlices key => .still store (.json 200 (clock.views (store.ownedSlices key)))
  | .listNodes =>
    .still store (.json 200 (listEnvelope "NodeList" (store.listNodes.map Node.toJson)))
  | .registerNode =>
    withBody request store (Node.ofJson clock.drawn) fun node =>
      .ofChange (fun _ => .json 201
        (OperationStatus.succeeded ("Node " ++ node.name ++ " registered")).toJson)
        (store.upsertNode node)
  | .showNode name => .still store (showing Node.toJson (store.node? name))
  | .removeNode name => .ofChange (removing "Node removed") (store.removeNode name)

/-- Answers a request for an action, where `"HEAD"` is answered as `"GET"` is, without the body. -/
def route (clock : Clock) (store : Store) (request : Request) (method : String) : Answer :=
  match Endpoint.ofTarget? request.target with
  | none => .still store (.ofStatus 404)
  | some endpoint =>
    if (endpoint.action? method).isNone then .still store (.ofStatus 405)
    else match endpoint.decode?.bind fun decoded => decoded.action? method with
      | none => .still store (.ofStatus 400)
      | some action => perform clock store request action

/-- Answers a request. -/
def answer (clock : Clock) (store : Store) (request : Request) : Answer :=
  if request.method = "HEAD" then
    let answer := route clock store request "GET"
    { answer with response := .ofStatus answer.response.status }
  else route clock store request request.method

end SliceControl.Api
