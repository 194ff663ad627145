import SliceControl.Config
import SliceControl.Yaml.Reader
import SliceControl.Yaml.Schema

/-!
# Configuration documents

A configuration is written in YAML. A blank text stands for the defaults.
-/

namespace SliceControl.Config

open Text
open Yaml (Schema)

def retrySchema : Schema :=
  .record [("maxAttempts", .value), ("initialBackoffMs", .value), ("maxBackoffMs", .value)] false

def schema : Schema :=
  .record [("bindAddr", .text), ("port", .value), ("admissionCheckName", .text),
    ("stalenessTimeoutSecs", .value), ("resyncIntervalSecs", .value), ("workers", .value),
    ("retry", retrySchema)] false

/-- The configuration that a document holds, before it is checked. -/
def read? (text : String) : Option Config := do
  let document ← Yaml.parse? text
  (ofJson (← document.toJson? schema)).toOption

/-- The valid configuration that a text holds. -/
def parse (text : String) : Except ConfigError Config :=
  if isBlankText text then .ok default
  else match read? text with
    | some config => config.validate
    | none => .error .unreadable

end SliceControl.Config
