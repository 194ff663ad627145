import SliceControl.Command
import Std.Time.DateTime.Timestamp

/-!
# The command-line program

Carries out the effects of a command: files are read from the disk, and the clock is that of the
system. There is no network here, so every server counts as unreachable and none can be started.
-/

namespace SliceControl.Main

open Command

def readFile (path : String) : IO (Except FileFault String) := do
  try
    return .ok (← IO.FS.readFile path)
  catch error =>
    return .error (match error with
      | .noFileOrDirectory .. => .missing
      | .inappropriateType .. => .isDirectory
      | _ => .notText)

def readClock : IO Instant := do
  return .ofNanos (← Std.Time.Timestamp.now).toNanosecondsSinceUnixEpoch.val

/-- Carries out a computation with effects. -/
def carryOut {α : Type} : Run α → IO α
  | .done result => return result
  | .call (.read path) next => do carryOut (next (← readFile path))
  | .call (.fetch _) next => carryOut (next none)
  | .call (.serve _) next => carryOut (next (.error .unavailable))
  | .sleep millis next => do
    IO.sleep (UInt32.ofNat millis)
    carryOut next
  | .clock next => do carryOut (next (← readClock))

/-- Runs the tool and gives the code that it ends with. -/
def run (arguments : List String) : IO UInt32 := do
  match Invocation.read (← IO.getEnv "TPUSLICE_SERVER") arguments with
  | .error .version => IO.print versionText; return 0
  | .error .help => IO.print helpText; return 0
  | .error .refused => IO.eprint helpText; return 2
  | .ok invocation =>
    let outcome ← carryOut (invocation.run ((← IO.getEnv "HOME").getD "."))
    IO.print outcome.output
    IO.eprint outcome.errors
    return UInt32.ofNat outcome.code

end SliceControl.Main

def main (arguments : List String) : IO UInt32 := SliceControl.Main.run arguments
