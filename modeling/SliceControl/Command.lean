import SliceControl.Command.Client
import SliceControl.Command.Files
import SliceControl.Command.Invocation
import SliceControl.Config.Document
import SliceControl.Manifest
import SliceControl.Procedure
import SliceControl.Report
import SliceControl.Slice.Name

/-!
# The command line

What a command prints and which code it ends with. The configuration is loaded first, whatever the
command. A command reaches files, the server and the clock only through the requests below.
-/

namespace SliceControl.Command

/-- A request to what surrounds the command. -/
inductive Effect where
  | read (path : String)
  | fetch (address : String)
  | serve (config : Config)

/-- What a request is answered with; no response if nobody listens at the address. -/
def Effect.Reply : Effect → Type
  | read _ => Except FileFault String
  | fetch _ => Option Api.Response
  | serve _ => Except FileFault Unit

/-- A computation with such requests. -/
abbrev Run := Procedure Effect Effect.Reply

/-- What a command leaves behind. -/
structure Outcome where
  code : Nat
  output : String
  errors : String
  deriving DecidableEq

/-- Why a command fails. -/
inductive Failure where
  | loading (error : ConfigError)
  | loadingFile (fault : FileFault)
  | overrides (error : ConfigError)
  | topology (error : TopologyError)
  | file (path : String) (fault : FileFault)
  | manifest (path : String) (format : ManifestFormat)
  | client (fault : ClientFault)
  | server (what : String) (status : Nat)
  | items
  | serving (fault : FileFault)

namespace Failure

/-- A failure of the system, and its cause. -/
def system (fault : FileFault) : List String := ["IO error: " ++ fault.message, fault.message]

/-- What is told, followed by its causes. -/
def chain : Failure → List String
  | loading error => ["failed to load config", error.message]
  | loadingFile fault => "failed to load config" :: system fault
  | overrides error => ["Config error: " ++ error.message, error.message]
  | topology error => [error.message, error.message]
  | file path fault => ("failed to read " ++ path) :: system fault
  | manifest path .yaml => ["failed to read " ++ path, "Manifest error"]
  | manifest path .json => ["failed to read " ++ path, "JSON error"]
  | client fault => ("HTTP error: " ++ fault.chain.headD "") :: fault.chain
  | server what status =>
    ["Server error: Failed to " ++ what ++ ": " ++ toString status ++ " " ++ reason status]
  | items => ["JSON error"]
  | serving fault => system fault

end Failure

namespace Outcome

def printed (output : String) : Outcome := ⟨0, output, ""⟩

def failed (failure : Failure) : Outcome :=
  ⟨1, "", "Error: " ++ String.intercalate ": " failure.chain ++ "\n"⟩

end Outcome

/-! ## Requests -/

def readFile (path : String) : Run (Except FileFault String) :=
  Procedure.request (Effect.read path)

/-- The response of the server, as far as there is one. -/
def fetch (address : String) : Run (Except ClientFault Api.Response) := do
  match addressFault? address with
  | some fault => return .error fault
  | none =>
    match ← Procedure.request (Effect.fetch address) with
    | some response => return .ok (show Api.Response from response)
    | none => return .error (.refusedConnection address)

/-! ## Configuration -/

/-- The file that holds the configuration unless another one is named. -/
def defaultConfigFile (home : String) : String := home ++ "/.tpuslice/config.yaml"

/-- Loads the configuration. A file that is named has to be there. -/
def loadConfig (home : String) (named : Option String) : Run (Except Failure Config) := do
  match ← readFile (named.getD (defaultConfigFile home)) with
  | .ok text => return (Config.parse text).mapError .loading
  | .error fault =>
    if fault.isAbsent then
      match named with
      | some path => return .error (.loading (.notFound path))
      | none => return .ok .default
    else return .error (.loadingFile fault)

/-! ## Commands -/

/-- Reads a manifest. -/
def readManifest {α : Type} (kind : ManifestKind α) (path : String) : Run (Except Failure α) := do
  match ← readFile path with
  | .error fault => return .error (.file path fault)
  | .ok text =>
    let format := ManifestFormat.ofPath path
    match kind.read? .generated format text with
    | some value => return .ok value
    | none => return .error (.manifest path format)

/-- Asks the server for JSON, where `what` says what for. -/
def ask (server : Option String) (config : Config) (path what : String) :
    Run (Except Failure Json) := do
  match ← fetch (serverAddress server config ++ path) with
  | .error fault => return .error (.client fault)
  | .ok response =>
    if 200 ≤ response.status ∧ response.status < 300 then
      match response.body with
      | some body => return .ok body
      | none => return .error (.client .unreadableBody)
    else return .error (.server what response.status)

/-- Asks the server for a list. -/
def askItems {α : Type} (server : Option String) (config : Config) (path what : String)
    (decode : Json → Decoded α) : Run (Except Failure (List α)) := do
  match ← ask server config path what with
  | .error failure => return .error failure
  | .ok body =>
    return (Json.decodeList decode (Uid.leaveOut (body.member "items"))).mapError fun _ => .items

/-- The listing that was asked for. -/
def list (config : Config) (server : Option String) : Listing → Run (Except Failure String)
  | .slices => do
    return (← askItems server config "/v1/slices" "list slices" (SliceView.ofJson .generated)).map
      Report.slices
  | .workloads => do
    let read := Workload.ofJson .generated
    return (← askItems server config "/v1/workloads" "list workloads" read).map
      (Report.workloads config.checkName)
  | .nodes => do
    return (← askItems server config "/v1/nodes" "list nodes" (Node.ofJson .generated)).map
      Report.nodes

/-- What a command prints, or why it fails. -/
def perform (config : Config) : Request → Run (Except Failure Outcome)
  | .serve overrides =>
    match config.withOverrides overrides with
    | .error error => return .error (.overrides error)
    | .ok config => do
      match ← Procedure.request (Effect.serve config) with
      | .ok _ => return .ok (.printed "")
      | .error fault => return .error (.serving fault)
  | .topology shape =>
    return ((Topology.parse shape).map fun topology => .printed (Report.topology topology)).mapError
      .topology
  | .sliceName space job replicatedJob index =>
    return .ok (.printed ((SliceKey.mk space job replicatedJob index).sliceName ++ "\n"))
  | .state file timeoutSecs => do
    match ← readManifest .slice file with
    | .error failure => return .error failure
    | .ok slice =>
      let now ← Procedure.time
      let timeout := (timeoutSecs.map Duration.ofSeconds).getD config.stalenessTimeout
      return .ok (.printed (Slice.name slice ++ "\t" ++ (slice.state now timeout).name ++ "\n"))
  | .validate file => do
    match ← readManifest .job file with
    | .error failure => return .error failure
    | .ok job =>
      let verdict := Job.verdict job
      return .ok ⟨if verdict.isAdmitted then 0 else 2, Report.verdict verdict, ""⟩
  | .get listing server => do return (← list config server listing).map .printed
  | .status server => do
    return (← ask server config "/v1/status" "get status").map fun report =>
      .printed (Report.status report)

/-- Carries out an invocation. -/
def Invocation.run (home : String) (invocation : Invocation) : Run Outcome := do
  match ← loadConfig home invocation.configFile with
  | .error failure => return .failed failure
  | .ok config =>
    match ← perform config invocation.request with
    | .error failure => return .failed failure
    | .ok outcome => return outcome

/-- The name and version of the tool. -/
def versionText : String := "tpuslice 0.1.0\n"

def helpText : String :=
  "Provision TPU slices for admitted training jobs\n\n" ++
    "Usage: tpuslice [OPTIONS] <COMMAND>\n\n" ++
    "Commands: serve, topology, slice-name, state, validate, get, status\n"

end SliceControl.Command
