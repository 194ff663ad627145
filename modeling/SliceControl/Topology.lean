import SliceControl.Label
import SliceControl.Text.Numeral
import SliceControl.Text.Pieces

/-!
# Topologies

A requested shape is written as three dimensions joined by `x`, such as `4x4x8`. A shape is either
one of four fixed parts of a cube, or a block of whole cubes: every dimension a non-zero multiple of
four, in non-decreasing order, and within the extent of its axis. Every other text is refused with
the first fault that it has.
-/

namespace SliceControl

open Text

/-- The three dimensions of a shape, in chips. -/
structure Dims where
  x : Nat
  y : Nat
  z : Nat
  deriving DecidableEq

namespace Dims

def toList (dims : Dims) : List Nat := [dims.x, dims.y, dims.z]

/-- The form in which shapes are written. -/
def write (dims : Dims) : String :=
  String.ofList
    (Numeral.digits dims.x ++ 'x' :: Numeral.digits dims.y ++ 'x' :: Numeral.digits dims.z)

end Dims

/-- What is wrong with a shape. -/
inductive ShapeFault where
  | dimensionCount (found : Nat)
  | notInteger (index : Nat) (token : String)
  | outOfRange (index : Nat) (token : String)
  | zeroDimension
  | notMultiple (dimension : Nat)
  | decreasing
  | beyondAxis (dimension axis maximum : Nat)
  deriving DecidableEq

/-- A text that is no shape. -/
structure TopologyError where
  shape : String
  fault : ShapeFault
  deriving DecidableEq

/-- The size class of a shape. -/
inductive SizeClass where
  /-- One or more whole cubes. -/
  | superslice
  /-- A fixed part of one cube. -/
  | subslice
  deriving DecidableEq

/-- A shape that can be provided. -/
structure Topology where
  dims : Dims
  sizeClass : SizeClass
  deriving DecidableEq

namespace Topology

/-- Chips in one cube. -/
def chipsPerCube : Nat := 64

/-- Every dimension of a block of cubes is a multiple of this. -/
def cubeEdge : Nat := 4

/-- The extent of each axis. -/
def axisMaxima : List Nat := [16, 24, 24]

/-- The shapes that are parts of one cube. -/
def subsliceShapes : List Dims := [⟨2, 2, 1⟩, ⟨2, 2, 2⟩, ⟨2, 2, 4⟩, ⟨2, 4, 4⟩]

/-! ## Reading a shape -/

/-- Reads the dimension at position `index`. -/
def readDimension (index : Nat) (token : List Char) : Except ShapeFault Nat :=
  match Numeral.read? token with
  | none => .error (.notInteger index (String.ofList token))
  | some dimension =>
    if dimension ≤ Numeral.max32 then .ok dimension
    else .error (.outOfRange index (String.ofList token))

/-- Reads the three dimensions of a shape. -/
def readDims (shape : String) : Except ShapeFault Dims :=
  match pieces 'x' shape.toList with
  | [first, second, third] => do
    let x ← readDimension 0 first
    let y ← readDimension 1 second
    let z ← readDimension 2 third
    return ⟨x, y, z⟩
  | tokens => .error (.dimensionCount tokens.length)

/-- The first dimension beyond the extent of its axis, with the axis and its extent. -/
def beyondAxis? (dims : Dims) : Option ShapeFault :=
  ((dims.toList.zip axisMaxima).zipIdx.find? fun entry => entry.1.2 < entry.1.1).map
    fun entry => .beyondAxis entry.1.1 entry.2 entry.1.2

/-- What keeps dimensions from being a block of cubes. -/
def blockFault? (dims : Dims) : Option ShapeFault :=
  if dims.toList.contains 0 then some .zeroDimension
  else match dims.toList.find? (fun dimension => dimension % cubeEdge ≠ 0) with
    | some dimension => some (.notMultiple dimension)
    | none =>
      if dims.y < dims.x ∨ dims.z < dims.y then some .decreasing else beyondAxis? dims

/-- The shape with the given dimensions. -/
def ofDims (dims : Dims) : Except ShapeFault Topology :=
  if dims ∈ subsliceShapes then .ok ⟨dims, .subslice⟩
  else match blockFault? dims with
    | some fault => .error fault
    | none => .ok ⟨dims, .superslice⟩

/-- Reads a shape. -/
def parse (shape : String) : Except TopologyError Topology :=
  match readDims shape >>= ofDims with
  | .ok topology => .ok topology
  | .error fault => .error ⟨shape, fault⟩

/-- The dimensions and the class of a text, all zeros and no class if it is no shape. -/
def classify (shape : String) : Dims × Option SizeClass × Option TopologyError :=
  match parse shape with
  | .ok topology => (topology.dims, some topology.sizeClass, none)
  | .error fault => (⟨0, 0, 0⟩, none, some fault)

/-! ## Measures -/

/-- The number of chips. -/
def chips (topology : Topology) : Nat := topology.dims.x * topology.dims.y * topology.dims.z

/-- The number of units that a shape occupies: its cubes, or the one part of a cube. -/
def cubes (topology : Topology) : Nat :=
  match topology.sizeClass with
  | .superslice => topology.chips / chipsPerCube
  | .subslice => 1

/-- The number of chips that each unit has to have in use. -/
def unitChips (topology : Topology) : Nat :=
  match topology.sizeClass with
  | .superslice => chipsPerCube
  | .subslice => topology.chips

def isSuperslice (topology : Topology) : Bool := topology.sizeClass = .superslice

/-- The form in which shapes are written. -/
def write (topology : Topology) : String := topology.dims.write

/-- The node label whose value names one fine unit of placement: a sub-block for whole cubes, and
the partition of exactly this shape otherwise. -/
def sliceLevelLabel (topology : Topology) : String :=
  match topology.sizeClass with
  | .superslice => Label.subBlock
  | .subslice => Label.partition topology.write

end Topology

/-! ## Wording -/

/-- How a class is called; a text that is no shape has none. -/
def SizeClass.name : Option SizeClass → String
  | some .superslice => "Superslice"
  | some .subslice => "Subslice"
  | none => "Invalid"

def ShapeFault.reason : ShapeFault → String
  | dimensionCount found => s!"expected 3 dimensions, found {found}"
  | notInteger index token => s!"dimension {index} ('{token}') is not an integer"
  | outOfRange index token => s!"dimension {index} ('{token}') is out of range"
  | zeroDimension => "dimensions must be non-zero"
  | notMultiple dimension => s!"dimension {dimension} is not a multiple of 4"
  | decreasing => "dimensions must be non-decreasing"
  | beyondAxis dimension axis maximum =>
    s!"dimension {dimension} exceeds the axis {axis} maximum of {maximum}"

def TopologyError.reason (error : TopologyError) : String := error.fault.reason

def TopologyError.message (error : TopologyError) : String :=
  "invalid topology '" ++ error.shape ++ "': " ++ error.reason

end SliceControl
