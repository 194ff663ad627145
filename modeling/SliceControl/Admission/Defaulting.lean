import SliceControl.Job

/-!
# Defaulting of jobs

A queued job is changed on admission. Every replica group that asks for a slice gets the annotations
by which the queue places it, and a requirement for healthy nodes unless it already constrains
health. A group is refused unless each of its replicas uses whole cubes, with as many pods in each.
-/

namespace SliceControl

open Text

/-- Why a job is refused. -/
inductive AdmissionError where
  | partialCubes (group : String) (perCube required : Nat)
  | unevenParallelism (group : String) (parallelism cubes : Nat)
  | invalidRequest (detail : String)
  deriving DecidableEq

namespace AdmissionError

def message : AdmissionError → String
  | partialCubes group perCube required =>
    s!"replicated job '{group}' uses {perCube} chips per cube, " ++
      s!"but each cube must be fully used ({required} chips)"
  | unevenParallelism group parallelism cubes =>
    s!"replicated job '{group}' has parallelism {parallelism}, " ++
      s!"which does not divide evenly over {cubes} cubes"
  | invalidRequest detail => "malformed admission request: " ++ detail

/-- The status code of the answer. -/
def code : AdmissionError → UInt16
  | invalidRequest _ => 400
  | _ => 403

end AdmissionError

namespace ReplicaGroup

/-- The number of pods in one cube, if the group uses whole cubes. -/
def podsPerCube (group : ReplicaGroup) (topology : Topology) : Except AdmissionError Nat :=
  let total := group.parallelism * group.podTemplate.chipsPerPod
  let perCube := total / topology.cubes
  if Numeral.max64 < total then
    .error (.invalidRequest
      ("replicated job '" ++ group.name ++ "' requests more chips than can be counted"))
  else if total % topology.cubes ≠ 0 ∨ perCube ≠ topology.unitChips then
    .error (.partialCubes group.name perCube topology.unitChips)
  else if group.parallelism % topology.cubes ≠ 0 then
    .error (.unevenParallelism group.name group.parallelism topology.cubes)
  else .ok (group.parallelism / topology.cubes)

end ReplicaGroup

namespace PodTemplate

/-- Sets the annotations by which the queue places the pods. -/
def annotateForQueue (template : PodTemplate) (topology : Topology) (podsPerCube : Nat) :
    PodTemplate :=
  ((template.annotate Label.requiredTopology Label.block).annotate
    Label.sliceRequiredTopology topology.sliceLevelLabel).annotate
      Label.sliceSize (String.ofList (Numeral.digits podsPerCube))

/-- The requirement for a healthy node. -/
def healthyNode : Requirement := ⟨Label.health, "In", [Label.healthy]⟩

/-- Demands healthy nodes, unless the template already constrains health. -/
def requireHealthyNodes (template : PodTemplate) : PodTemplate :=
  if template.constrainsLabel Label.health then template else template.requireLabel healthyNode

end PodTemplate

namespace ReplicaGroup

/-- Defaults one group. -/
def default (group : ReplicaGroup) : Except AdmissionError ReplicaGroup :=
  match group.podTemplate.requestedSlice? with
  | none => .ok group
  | some (topology, _) =>
    (group.podsPerCube topology).map fun podsPerCube =>
      group.setPodTemplate
        (group.podTemplate.annotateForQueue topology podsPerCube).requireHealthyNodes

end ReplicaGroup

/-- Defaults a job, or says what is wrong with its first group that is refused. -/
def Job.default (job : Job) : Except AdmissionError Job :=
  if job.isQueued then
    (job.spec.groups.mapM ReplicaGroup.default).map fun groups =>
      { job with spec := { job.spec with groups } }
  else .ok job

end SliceControl
