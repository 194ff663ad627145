import SliceControl.Json.Decode
import SliceControl.Pass
import SliceControl.Retry
import SliceControl.Text.Blank

/-!
# Configuration

The settings of the controller and its server. Every setting has a default, so an empty document is
a valid configuration. A configuration is accepted only if it names a check, both intervals are
positive, there is at least one worker, and a call is attempted at least once.
-/

namespace SliceControl

open Text

/-- The settings of the controller and its server. -/
structure Config where
  bindAddr : String
  port : UInt16
  /-- The admission check that the controller answers for. -/
  checkName : String
  stalenessTimeoutSecs : UInt64
  resyncIntervalSecs : UInt64
  workers : UInt64
  retry : RetryPolicy
  deriving DecidableEq

/-- Why a configuration is refused. -/
inductive ConfigError where
  | notFound (path : String)
  | unreadable
  | blankCheckName
  | noStalenessTimeout
  | noResyncInterval
  | noWorkers
  | noAttempts
  deriving DecidableEq

namespace ConfigError

/-- The rule that a configuration breaks. -/
def rule? : ConfigError → Option String
  | blankCheckName => some "admissionCheckName must not be empty"
  | noStalenessTimeout => some "stalenessTimeoutSecs must be positive"
  | noResyncInterval => some "resyncIntervalSecs must be positive"
  | noWorkers => some "workers must be at least 1"
  | noAttempts => some "retry.maxAttempts must be at least 1"
  | notFound _ | unreadable => none

def message : ConfigError → String
  | notFound path => "Config file not found: " ++ path
  | unreadable => "Failed to parse config"
  | error => "Invalid config: " ++ error.rule?.getD ""

end ConfigError

/-- Settings that replace those of the configuration. -/
structure ConfigOverrides where
  bindAddr : Option String
  port : Option UInt16
  checkName : Option String
  workers : Option UInt64

namespace Config

def default : Config := ⟨"0.0.0.0", 8181, "tpu-slice", 600, 30, 4, .default⟩

def stalenessTimeout (config : Config) : Duration :=
  .ofSeconds config.stalenessTimeoutSecs.toNat

def resyncInterval (config : Config) : Duration := .ofSeconds config.resyncIntervalSecs.toNat

/-- Address and port, joined by a colon. -/
def listenAddr (config : Config) : String := config.bindAddr ++ ":" ++ toString config.port.toNat

/-- The rules and what breaks them, in the order in which they are checked. -/
def rules (config : Config) : List (Bool × ConfigError) :=
  [(isBlankText config.checkName, .blankCheckName),
    (config.stalenessTimeoutSecs == 0, .noStalenessTimeout),
    (config.resyncIntervalSecs == 0, .noResyncInterval), (config.workers == 0, .noWorkers),
    (config.retry.maxAttempts == 0, .noAttempts)]

/-- The configuration, or the first rule that it breaks. -/
def validate (config : Config) : Except ConfigError Config :=
  match config.rules.find? Prod.fst with
  | some (_, error) => .error error
  | none => .ok config

/-- The configuration with some settings replaced, if it is valid. -/
def withOverrides (config : Config) (overrides : ConfigOverrides) : Except ConfigError Config :=
  validate { config with
    bindAddr := overrides.bindAddr.getD config.bindAddr
    port := overrides.port.getD config.port
    checkName := overrides.checkName.getD config.checkName
    workers := overrides.workers.getD config.workers }

/-- What a pass needs to know. -/
def passSettings (config : Config) : PassSettings :=
  ⟨config.checkName, config.stalenessTimeout, config.resyncInterval, config.retry⟩

def toJson (config : Config) : Json :=
  .ofMembers [("bindAddr", .string config.bindAddr), ("port", .ofUInt16 config.port),
    ("admissionCheckName", .string config.checkName),
    ("stalenessTimeoutSecs", .ofUInt64 config.stalenessTimeoutSecs),
    ("resyncIntervalSecs", .ofUInt64 config.resyncIntervalSecs),
    ("workers", .ofUInt64 config.workers), ("retry", config.retry.toJson)]

def fields : List Json.Field :=
  [.defaulted "bindAddr" Json.decodeString, .defaulted "port" Json.decodeUInt16,
    .defaulted "admissionCheckName" Json.decodeString,
    .defaulted "stalenessTimeoutSecs" Json.decodeUInt64,
    .defaulted "resyncIntervalSecs" Json.decodeUInt64, .defaulted "workers" Json.decodeUInt64,
    .defaulted "retry" RetryPolicy.ofJson]

def ofJson (value : Json) : Decoded Config := do
  let members ← value.decodeRecord "ControllerConfig" fields
  let checkName ← Json.decodeMember members "admissionCheckName" Json.decodeString
  let bindAddr ← Json.decodeMember members "bindAddr" Json.decodeString
  let port ← Json.decodeMember members "port" Json.decodeUInt16
  let resync ← Json.decodeMember members "resyncIntervalSecs" Json.decodeUInt64
  let retry ← Json.decodeMember members "retry" RetryPolicy.ofJson
  let staleness ← Json.decodeMember members "stalenessTimeoutSecs" Json.decodeUInt64
  let workers ← Json.decodeMember members "workers" Json.decodeUInt64
  return {
    bindAddr := bindAddr.getD default.bindAddr
    port := port.getD default.port
    checkName := checkName.getD default.checkName
    stalenessTimeoutSecs := staleness.getD default.stalenessTimeoutSecs
    resyncIntervalSecs := resync.getD default.resyncIntervalSecs
    workers := workers.getD default.workers
    retry := retry.getD default.retry }

end Config

end SliceControl
