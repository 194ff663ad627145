import SliceControl.Admission.Defaulting

/-!
# Verdicts

Whether a job would be admitted, and how the groups that ask for slices would be placed.
-/

namespace SliceControl

/-- How a replica group is placed. -/
structure GroupPlacement where
  name : String
  topology : String
  sliceSize : String
  /-- The level that holds all pods of one unit. -/
  label : String
  deriving DecidableEq

/-- The placement that the annotations of a group ask for, if they are complete. -/
def ReplicaGroup.placement? (group : ReplicaGroup) : Option GroupPlacement := do
  let template := group.podTemplate
  return ⟨group.name, ← template.topologyText?, ← template.annotation? Label.sliceSize,
    ← template.annotation? Label.sliceRequiredTopology⟩

/-- The outcome of defaulting a job. -/
structure Verdict where
  job : String
  result : Except AdmissionError (List GroupPlacement)

/-- The verdict on a job. -/
def Job.verdict (job : Job) : Verdict :=
  ⟨job.metadata.qualifiedName,
    job.default.map fun defaulted => defaulted.spec.groups.filterMap ReplicaGroup.placement?⟩

namespace Verdict

def isAdmitted (verdict : Verdict) : Bool := verdict.result.toOption.isSome

/-- The placements, none if the job is rejected. -/
def placements (verdict : Verdict) : List GroupPlacement := verdict.result.toOption.getD []

/-- Why the job is rejected. -/
def rejection? (verdict : Verdict) : Option String :=
  match verdict.result with
  | .ok _ => none
  | .error error => some error.message

end Verdict

end SliceControl
