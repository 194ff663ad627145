import SliceControl.Command.Arguments
import SliceControl.Config
import SliceControl.Text.Numeral

/-!
# Invocations

The commands of the tool, with the flags and arguments that each takes.
-/

namespace SliceControl.Command

open Text

/-- What can be listed. -/
inductive Listing where
  | slices
  | workloads
  | nodes
  deriving DecidableEq

/-- A command with its arguments. -/
inductive Request where
  | serve (overrides : ConfigOverrides)
  | topology (shape : String)
  | sliceName (space job replicatedJob : String) (index : Nat)
  | state (file : String) (timeoutSecs : Option Nat)
  | validate (file : String)
  | get (listing : Listing) (server : Option String)
  | status (server : Option String)

/-- A command with what applies to every command. -/
structure Invocation where
  configFile : Option String
  request : Request

/-! ## Grammar -/

def helpFlag : Flag := ⟨"help", some 'h', false⟩

def versionFlag : Flag := ⟨"version", some 'V', false⟩

/-- The flags that every command takes. -/
def commonFlags : List Flag := [⟨"verbose", some 'v', false⟩, ⟨"config", none, true⟩, helpFlag]

def serverFlag : Flag := ⟨"server", none, true⟩

def getGrammar : Grammar :=
  let leaf := Grammar.positional (serverFlag :: commonFlags) 0
  .commands (serverFlag :: commonFlags)
    (["slices", "slice", "workloads", "workload", "wl", "nodes", "node"].map (·, leaf))

def serveFlags : List Flag :=
  [⟨"bind-addr", none, true⟩, ⟨"port", some 'p', true⟩, ⟨"check-name", none, true⟩,
    ⟨"workers", none, true⟩]

def grammar : Grammar :=
  .commands (versionFlag :: commonFlags)
    [("serve", .positional (serveFlags ++ commonFlags) 0), ("topology", .positional commonFlags 1),
      ("slice-name", .positional commonFlags 4),
      ("state", .positional (⟨"staleness-timeout-secs", none, true⟩ :: commonFlags) 1),
      ("validate", .positional commonFlags 1), ("get", getGrammar),
      ("status", .positional (serverFlag :: commonFlags) 0)]

/-! ## Values -/

/-- A number up to `limit`, after an optional sign; only zero may have a minus sign. -/
def readSigned? (limit : Nat) (text : String) : Option Nat :=
  match text.toList with
  | '-' :: digits => (Numeral.read? digits).filter (· = 0)
  | characters => Numeral.readBounded? limit characters

/-- A number up to the largest of 64 bits, after an optional plus sign. -/
def readUnsigned? (text : String) : Option Nat := Numeral.readBounded? Numeral.max64 text.toList

/-- The name of a file, which is not empty. -/
def readFileName? (text : String) : Option String := if text.isEmpty then none else some text

/-- The value of a flag if it is given; none if it cannot be read. -/
def Reading.optional? {α : Type} (reading : Reading) (long : String) (read : String → Option α) :
    Option (Option α) :=
  match reading.value? long with
  | none => some none
  | some text => (read text).map some

def Listing.ofName? (name : String) : Option Listing :=
  if name = "slices" || name = "slice" then some .slices
  else if name = "workloads" || name = "workload" || name = "wl" then some .workloads
  else if name = "nodes" || name = "node" then some .nodes
  else none

/-- The command that was read, if all values can be read. The value of a flag goes before
`serverVariable`, which stands in for the flag that names the server. -/
def Request.ofReading? (serverVariable : Option String) (reading : Reading) : Option Request := do
  let server := (reading.value? "server").orElse fun _ => serverVariable
  match reading.path.reverse, reading.positionals.reverse with
  | ["serve"], [] =>
    let port ← reading.optional? "port" (readSigned? Numeral.max16)
    let workers ← reading.optional? "workers" readUnsigned?
    return serve {
      bindAddr := reading.value? "bind-addr"
      port := port.map UInt16.ofNat
      checkName := reading.value? "check-name"
      workers := workers.map UInt64.ofNat }
  | ["topology"], [shape] => return topology shape
  | ["slice-name"], [space, job, replicatedJob, index] =>
    return sliceName space job replicatedJob (← readSigned? Numeral.max32 index)
  | ["state"], [file] =>
    return state (← readFileName? file)
      (← reading.optional? "staleness-timeout-secs" readUnsigned?)
  | ["validate"], [file] => return validate (← readFileName? file)
  | ["get", name], [] => return get (← Listing.ofName? name) server
  | ["status"], [] => return status server
  | _, _ => none

/-- The invocation that arguments stand for. -/
def Invocation.read (serverVariable : Option String) (arguments : List String) :
    Except Stop Invocation := do
  let reading ← grammar.read arguments
  match Request.ofReading? serverVariable reading,
      reading.optional? "config" readFileName? with
  | some request, some configFile => return ⟨configFile, request⟩
  | _, _ => throw .refused

end SliceControl.Command
