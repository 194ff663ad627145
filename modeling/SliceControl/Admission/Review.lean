import SliceControl.Admission.Defaulting
import SliceControl.Json.Reader
import SliceControl.Json.Writer
import SliceControl.Text.Base64

/-!
# Admission reviews

A review carries a job to be admitted and is answered by the same envelope with a response. A job
that defaulting changes is admitted together with a patch, the base64 form of a JSON patch that
replaces the whole spec.
-/

namespace SliceControl

open Text

structure ReviewRequest where
  uid : String
  operation : String
  object : Json
  deriving DecidableEq

structure ReviewStatus where
  code : UInt16
  message : String
  deriving DecidableEq

structure ReviewResponse where
  uid : String
  allowed : Bool
  status : Option ReviewStatus
  patch : Option String
  patchType : Option String
  deriving DecidableEq

/-- A request for admission, or the answer to one. -/
structure Review where
  apiVersion : String
  kind : String
  request : Option ReviewRequest
  response : Option ReviewResponse
  deriving DecidableEq

namespace ReviewResponse

def allow (uid : String) : ReviewResponse := ⟨uid, true, none, none, none⟩

def deny (uid : String) (error : AdmissionError) : ReviewResponse :=
  ⟨uid, false, some ⟨error.code, error.message⟩, none, none⟩

/-- The patch as a JSON value. -/
def decodedPatch (response : ReviewResponse) : Option Json := do
  let patch ← response.patch
  let bytes ← Base64.decode? patch.toList
  let text ← String.fromUTF8? ⟨bytes.toArray⟩
  Json.parse? text

end ReviewResponse

/-- A JSON patch that replaces the spec. -/
def specPatch (spec : Json) : Json :=
  .array [.ofMembers [("op", .string "replace"), ("path", .string "/spec"), ("value", spec)]]

/-- The text of a patch as it is sent. -/
def encodePatch (patch : Json) : String :=
  String.ofList (Base64.encode patch.compact.toUTF8.toList)

namespace ReviewRequest

/-- Answers a request, with `drawn` as the identifier of a job that has none. -/
def respond (drawn : Uid) (request : ReviewRequest) : ReviewResponse :=
  match Job.ofJson drawn request.object with
  | .error error => .deny request.uid (.invalidRequest error.message)
  | .ok job =>
    match job.default with
    | .error error => .deny request.uid error
    | .ok defaulted =>
      if defaulted = job then .allow request.uid
      else
        { ReviewResponse.allow request.uid with
          patch := some (encodePatch (specPatch defaulted.spec.toJson))
          patchType := some "JSONPatch" }

end ReviewRequest

/-- Answers a review, with `drawn` as the identifier of a job that has none. -/
def Review.answer (drawn : Uid) (review : Review) : Review :=
  let response := match review.request with
    | some request => request.respond drawn
    | none => .deny "" (.invalidRequest "missing request")
  { review with request := none, response := some response }

/-! ## JSON form -/

namespace ReviewRequest

def toJson (request : ReviewRequest) : Json :=
  .ofMembers [("uid", .string request.uid), ("operation", .string request.operation),
    ("object", request.object)]

def fields : List Json.Field :=
  [.required "uid" Json.decodeString, .defaulted "operation" Json.decodeString,
    .defaulted "object" .ok]

def ofJson (value : Json) : Decoded ReviewRequest := do
  let members ← value.decodeRecord "AdmissionRequest" fields
  let object ← Json.decodeMember members "object" .ok
  let operation ← Json.decodeMember members "operation" Json.decodeString
  let uid ← Json.decodeMember members "uid" Json.decodeString
  return {
    uid := ← Json.required "uid" uid
    operation := operation.getD ""
    object := object.getD .null }

end ReviewRequest

namespace ReviewStatus

def toJson (status : ReviewStatus) : Json :=
  .ofMembers [("code", .ofUInt16 status.code), ("message", .string status.message)]

def fields : List Json.Field :=
  [.required "code" Json.decodeUInt16, .required "message" Json.decodeString]

def ofJson (value : Json) : Decoded ReviewStatus := do
  let members ← value.decodeRecord "AdmissionStatus" fields
  let code ← Json.decodeMember members "code" Json.decodeUInt16
  let message ← Json.decodeMember members "message" Json.decodeString
  return {
    code := ← Json.required "code" code
    message := ← Json.required "message" message }

end ReviewStatus

namespace ReviewResponse

def toJson (response : ReviewResponse) : Json :=
  .ofMembers ([("uid", .string response.uid), ("allowed", .bool response.allowed)] ++
    Json.optional "status" (response.status.map ReviewStatus.toJson) ++
    Json.optional "patch" (response.patch.map .string) ++
    Json.optional "patchType" (response.patchType.map .string))

def fields : List Json.Field :=
  [.required "uid" Json.decodeString, .required "allowed" Json.decodeBool,
    .defaulted "status" (Json.decodeNullable ReviewStatus.ofJson),
    .defaulted "patch" (Json.decodeNullable Json.decodeString),
    .defaulted "patchType" (Json.decodeNullable Json.decodeString)]

def ofJson (value : Json) : Decoded ReviewResponse := do
  let members ← value.decodeRecord "AdmissionResponse" fields
  let allowed ← Json.decodeMember members "allowed" Json.decodeBool
  let patch ← Json.decodeMember members "patch" (Json.decodeNullable Json.decodeString)
  let patchType ← Json.decodeMember members "patchType" (Json.decodeNullable Json.decodeString)
  let status ← Json.decodeMember members "status" (Json.decodeNullable ReviewStatus.ofJson)
  let uid ← Json.decodeMember members "uid" Json.decodeString
  return {
    uid := ← Json.required "uid" uid
    allowed := ← Json.required "allowed" allowed
    status := status.getD none
    patch := patch.getD none
    patchType := patchType.getD none }

end ReviewResponse

namespace Review

def toJson (review : Review) : Json :=
  .ofMembers ([("apiVersion", .string review.apiVersion), ("kind", .string review.kind)] ++
    Json.optional "request" (review.request.map ReviewRequest.toJson) ++
    Json.optional "response" (review.response.map ReviewResponse.toJson))

def fields : List Json.Field :=
  [.defaulted "apiVersion" Json.decodeString, .defaulted "kind" Json.decodeString,
    .defaulted "request" (Json.decodeNullable ReviewRequest.ofJson),
    .defaulted "response" (Json.decodeNullable ReviewResponse.ofJson)]

def ofJson (value : Json) : Decoded Review := do
  let members ← value.decodeRecord "AdmissionReview" fields
  let apiVersion ← Json.decodeMember members "apiVersion" Json.decodeString
  let kind ← Json.decodeMember members "kind" Json.decodeString
  let request ← Json.decodeMember members "request" (Json.decodeNullable ReviewRequest.ofJson)
  let response ← Json.decodeMember members "response" (Json.decodeNullable ReviewResponse.ofJson)
  return {
    apiVersion := apiVersion.getD "admission.k8s.io/v1"
    kind := kind.getD "AdmissionReview"
    request := request.getD none
    response := response.getD none }

end Review

end SliceControl
