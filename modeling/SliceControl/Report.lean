import SliceControl.Admission.Verdict
import SliceControl.Node
import SliceControl.Report.Table
import SliceControl.Slice.View
import SliceControl.Workload

/-!
# Reports

What is printed for people: tables of slices, workloads and nodes, a summary of the cluster, the
sizes of a topology, and the verdict on a job.
-/

namespace SliceControl.Report

/-- A text, or a dash where there is nothing to show. -/
def orDash (text : Option String) : String :=
  match text with
  | some text => if text.isEmpty then "-" else text
  | none => "-"

/-! ## Tables of resources -/

/-- The partitions that a slice is confined to: every value that its selector names, except for the
block. -/
def partitions (slice : Slice) : String :=
  String.intercalate "," ((slice.spec.nodeSelector.entries.filter fun entry =>
    entry.1 ≠ Label.block).flatMap Prod.snd)

def slices (views : List SliceView) : String :=
  Table.render ⟨["name", "state", "topology", "owner", "partitions"], views.map fun view =>
    [view.name, view.state.name, view.slice.spec.topology, orDash view.slice.ownerKey,
      orDash (some (partitions view.slice))]⟩

/-- Workloads with the check that the controller answers for. -/
def workloads (checkName : String) (workloads : List Workload) : String :=
  Table.render ⟨["workload", "admitted", "check", "message"], workloads.map fun workload =>
    let check := workload.check? checkName
    [workload.key, if workload.isAdmitted then "yes" else "no",
      (check.map (·.state.name)).getD "-", orDash (check.map (·.message))]⟩

def nodes (nodes : List Node) : String :=
  Table.render ⟨["name", "block", "sub-block", "health"], nodes.map fun node =>
    [node.name, orDash (node.label? Label.block), orDash (node.label? Label.subBlock),
      orDash (node.label? Label.health)]⟩

/-! ## Single results -/

/-- Lines of a name and what stands for it. -/
def lines (entries : List (String × String)) : String :=
  String.join (entries.map fun entry => Table.fill 11 entry.1 ++ entry.2 ++ "\n")

def topology (topology : Topology) : String :=
  lines [("Topology:", topology.write), ("Class:", SizeClass.name (some topology.sizeClass)),
    ("Chips:", toString topology.chips), ("Cubes:", toString topology.cubes),
    ("Placement:", topology.sliceLevelLabel)]

/-- The status of the cluster as the server reports it; numbers that are missing count as zero. -/
def status (report : Json) : String :=
  let count (key : String) : String :=
    toString ((((report.member "stats").member key).natural?).getD 0)
  lines [("Status:", ((report.member "status").text?).getD "unknown"), ("Nodes:", count "nodes"),
    ("Workloads:", count "workloads" ++ " (" ++ count "admittedWorkloads" ++ " admitted)"),
    ("Slices:", count "slices" ++ " (" ++ count "readySlices" ++ " ready, " ++
      count "failedSlices" ++ " failed)")]

def placement (group : GroupPlacement) : String :=
  "  " ++ group.name ++ ": topology " ++ group.topology ++ ", slice size " ++ group.sliceSize ++
    ", placed by " ++ group.label ++ "\n"

def verdict (verdict : Verdict) : String :=
  match verdict.result with
  | .error error => "✗ " ++ verdict.job ++ " rejected: " ++ error.message ++ "\n"
  | .ok [] => "✓ " ++ verdict.job ++ " admitted\n  no replica groups request TPU slices\n"
  | .ok groups => "✓ " ++ verdict.job ++ " admitted\n" ++ String.join (groups.map placement)

end SliceControl.Report
