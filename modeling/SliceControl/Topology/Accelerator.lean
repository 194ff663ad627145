import SliceControl.Json.Decode

/-!
# Accelerators

The accelerator generations that slices can be built from, by the names that node selectors use.
-/

namespace SliceControl

/-- An accelerator generation. -/
inductive Accelerator where
  | tpuV7x
  deriving DecidableEq

/-- A name that is no supported accelerator. -/
structure UnsupportedAccelerator where
  name : String
  deriving DecidableEq

namespace Accelerator

def name : Accelerator → String
  | tpuV7x => "tpu-v7x"

def parse (text : String) : Except UnsupportedAccelerator Accelerator :=
  if text = "tpu-v7x" then .ok tpuV7x else .error ⟨text⟩

def toJson (accelerator : Accelerator) : Json := .string accelerator.name

def ofJson : Json → Decoded Accelerator := Json.decodeVariant [("tpu-v7x", tpuV7x)]

end Accelerator

def UnsupportedAccelerator.message (error : UnsupportedAccelerator) : String :=
  "unsupported accelerator type '" ++ error.name ++ "'"

end SliceControl
