import SliceControl.Proofs.Job.Codec
import SliceControl.Proofs.Slice.Codec
import SliceControl.Proofs.Workload.Codec

/-!
# Resources read back

Whatever form a resource is given in, with members in another order, defaults left out or spelled
out, null for what is missing, identifiers and times in any accepted notation, it is written in one
form, and that form reads back as the same resource.
-/

namespace SliceControl

open Json

/-- What is written for a record reads back as the record, and writing what was read changes
nothing. -/
def ReadsBack {α : Type} (decode : Json → Decoded α) (encode : α → Json) (record : α) : Prop :=
  decode (encode record) = .ok record ∧
    ∀ again, decode (encode record) = .ok again → encode again = encode record

theorem readsBack_of_eq {α : Type} {decode : Json → Decoded α} {encode : α → Json} {record : α}
    (h : decode (encode record) = .ok record) : ReadsBack decode encode record := by
  refine ⟨h, fun again hagain ↦ ?_⟩
  rw [h] at hagain
  cases hagain
  rfl

/-! ## Every kind of resource -/

/-- A resource that was decoded reads back if it came with an identifier of its own and if its times
fall into the years 0 to 9999, whichever identifiers are drawn the first and the second time. An
identifier that the program left open is the only one that is not written in a form that reads. -/
theorem resources_readBack (drawn again : Uid) :
    (∀ value slice, Slice.ofJson drawn value = .ok slice → slice.metadata.uid ≠ .generated →
      (∀ time ∈ slice.times, time.HasFourDigitYear) →
        ReadsBack (Slice.ofJson again) Slice.toJson slice) ∧
    (∀ value workload, Workload.ofJson drawn value = .ok workload →
      workload.metadata.uid ≠ .generated → (∀ time ∈ workload.times, time.HasFourDigitYear) →
        ReadsBack (Workload.ofJson again) Workload.toJson workload) ∧
    (∀ value node, Node.ofJson drawn value = .ok node → node.metadata.uid ≠ .generated →
      (∀ time ∈ node.metadata.times, time.HasFourDigitYear) →
        ReadsBack (Node.ofJson again) Node.toJson node) ∧
    (∀ value job, Job.ofJson drawn value = .ok job → job.metadata.uid ≠ .generated →
      (∀ time ∈ job.metadata.times, time.HasFourDigitYear) →
        ReadsBack (Job.ofJson again) Job.toJson job) := by
  refine ⟨fun value slice _ huid htimes ↦ ?_, fun value workload h huid htimes ↦ ?_,
    fun value node _ huid htimes ↦ ?_, fun value job h huid htimes ↦ ?_⟩
  · obtain ⟨hmetadata, hstatus⟩ := List.forall_mem_append.mp htimes
    exact readsBack_of_eq (Slice.ofJson_toJson ⟨huid, hmetadata⟩ hstatus again)
  · have hpodSets := @Workload.kept_of_ofJson _ 0 value drawn workload isHereditary_true trivial h
    obtain ⟨hmetadata, hstatus⟩ := List.forall_mem_append.mp htimes
    exact readsBack_of_eq (Workload.ofJson_toJson ⟨huid, hmetadata⟩ hpodSets hstatus again)
  · exact readsBack_of_eq (Node.ofJson_toJson ⟨huid, htimes⟩ again)
  · have hspec := @Job.kept_of_ofJson _ 0 value drawn job isHereditary_true trivial h
    exact readsBack_of_eq (Job.ofJson_toJson ⟨huid, htimes⟩ hspec again)

/-! ## One resource of each kind -/

namespace Sample

def givenUid : Uid := .given ("6ba7b8109dad11d180b400c04fd430c8".toList.filterMap Uid.hexValue?) rfl

/-- Metadata with an identifier in upper case and without hyphens, with an owner, and with a time
that is not in UTC. -/
def givenMetadata : Json :=
  .object [("uid", .string "6BA7B8109DAD11D180B400C04FD430C8"), ("name", .string "a"),
    ("labels", .object [("team", .string "t"), ("zone", .string "z")]),
    ("ownerReferences", .array [.object [("name", .string "train"), ("kind", .string "JobSet"),
      ("apiVersion", .string "jobset.x-k8s.io/v1alpha2")]]),
    ("creationTimestamp", .string "2026-03-01T00:30:00.25+01:30"), ("deletionTimestamp", .null),
    ("generation", .ofUInt32 3)]

/-- The same as an array, with a braced identifier and without the time of a deletion. -/
def listedMetadata : Json :=
  .array [.string "a", .null, .string "\x7b6ba7b810-9dad-11d1-80b4-00c04fd430c8\x7d",
    .object [("zone", .string "z"), ("team", .string "t")], .object [],
    .array [.array [.string "jobset.x-k8s.io/v1alpha2", .string "JobSet", .string "train"]],
    .string "2026-02-28T23:00:00.250Z"]

def readMetadata : Metadata :=
  { Metadata.named "a" with
    uid := givenUid
    labels := SortedMap.ofList [("team", "t"), ("zone", "z")]
    ownerReferences := [⟨"jobset.x-k8s.io/v1alpha2", "JobSet", "train", false⟩]
    creationTimestamp := some (.ofNanos 1772319600250000000) }

/-- A slice with a condition whose status is written as an object and whose time falls into a leap
second. -/
def givenSlice : Json :=
  .object [("kind", .string "Slice"), ("apiVersion", .string "slice.tpu.dev/v1alpha1"),
    ("metadata", givenMetadata),
    ("spec", .object [("topology", .string "4x4x4"), ("acceleratorType", .string "tpu-v7x"),
      ("nodeSelector", .object [(Label.block, .array [.string "b0"])])]),
    ("status", .object [("blockId", .null), ("conditions", .array [.object [
      ("type", .string "Ready"), ("status", .object [("Unknown", .null)]),
      ("reason", .string "Active"),
      ("lastTransitionTime", .string "2026-03-01t00:59:60.25+01:00")]])])]

def readSlice : Slice :=
  ⟨"slice.tpu.dev/v1alpha1", "Slice", readMetadata,
    ⟨.tpuV7x, "4x4x4", SortedMap.ofList [(Label.block, ["b0"])]⟩,
    ⟨[⟨"Ready", .unknown, "Active", "", ⟨1772323199, 1250000000, by decide, by decide⟩⟩], none,
      []⟩⟩

/-- A template with nodes to choose, a container, and members that no record of it knows. The
selector of the nodes and the resources of the container are arrays. -/
def givenTemplate : Json :=
  .object [("spec", .object [
    ("nodeSelector", .object [(Label.accelerator, .string "tpu-v7x")]),
    ("containers", .array [.object [("name", .string "trainer"), ("image", .string "i"),
      ("resources", .array [.object [(Label.chipResource, .string "4")]])]]),
    ("affinity", .object [("nodeAffinity", .object [(NodeAffinity.requiredKey, .array [.array [
      .object [("matchExpressions", .array [.object [("key", .string Label.health),
        ("values", .array [.string Label.healthy]), ("operator", .string "In")]])]]])])]),
    ("hostNetwork", .bool true)])]

def readTemplate : PodTemplate :=
  ⟨.empty, ⟨SortedMap.ofList [(Label.accelerator, "tpu-v7x")],
    some ⟨some ⟨some ⟨[⟨[⟨Label.health, "In", [Label.healthy]⟩], .empty⟩]⟩, .empty⟩, .empty⟩,
    [⟨"trainer", ⟨SortedMap.ofList [(Label.chipResource, .string "4")], .empty⟩,
      SortedMap.ofList [("image", .string "i")]⟩],
    SortedMap.ofList [("hostNetwork", .bool true)]⟩⟩

/-- A workload with an admission and a check. -/
def givenWorkload : Json :=
  .object [("metadata", listedMetadata),
    ("spec", .object [("podSets", .array [.object [("name", .string "workers"),
      ("count", .ofUInt32 4), ("template", givenTemplate)]])]),
    ("status", .object [
      ("admission", .object [("podSetAssignments", .array [.object [("name", .string "workers"),
        ("count", .ofUInt32 4), ("topologyAssignment", .object [
          ("domains", .array [.object [("count", .ofUInt32 4),
            ("values", .array [.string "n0"])]]),
          ("levels", .array [.string Label.hostname])])]])]),
      ("admissionChecks", .array [.object [("name", .string "tpu-slice"),
        ("state", .string "Retry"),
        ("lastTransitionTime", .string "2026-02-28 23:00:00.25 UTC")]])])]

def readWorkload : Workload :=
  ⟨"kueue.x-k8s.io/v1beta1", "Workload", readMetadata, [⟨"workers", 4, readTemplate⟩],
    ⟨some ⟨"", [⟨"workers", 4, some ⟨[Label.hostname], [⟨["n0"], 4⟩]⟩⟩]⟩,
      [⟨"tpu-slice", .retry, "", some (.ofNanos 1772319600250000000)⟩], false⟩⟩

def givenNode : Json := .object [("metadata", givenMetadata)]

def readNode : Node := ⟨"v1", "Node", readMetadata⟩

/-- A job as an array. -/
def givenJob : Json :=
  .array [.string "jobset.x-k8s.io/v1alpha2", .string "JobSet", listedMetadata,
    .object [("suspend", .bool true), ("replicatedJobs", .array [.object [
      ("name", .string "workers"), ("template", .object [
        ("spec", .object [("parallelism", .null), ("template", givenTemplate)])])]])]]

def readJob : Job :=
  ⟨"jobset.x-k8s.io/v1alpha2", "JobSet", readMetadata,
    ⟨[⟨"workers", 1, ⟨⟨none, readTemplate, .empty⟩, .empty⟩, .empty⟩],
      SortedMap.ofList [("suspend", .bool true)]⟩⟩

end Sample

theorem resources_readBack_sample :
    (∀ again, ReadsBack (Slice.ofJson again) Slice.toJson Sample.readSlice) ∧
      (∀ again, ReadsBack (Workload.ofJson again) Workload.toJson Sample.readWorkload) ∧
      (∀ again, ReadsBack (Node.ofJson again) Node.toJson Sample.readNode) ∧
      ∀ again, ReadsBack (Job.ofJson again) Job.toJson Sample.readJob := by
  have hall (again : Uid) := resources_readBack .generated again
  refine ⟨fun again ↦ (hall again).1 Sample.givenSlice _ ?_ ?_ ?_,
    fun again ↦ (hall again).2.1 Sample.givenWorkload _ ?_ ?_ ?_,
    fun again ↦ (hall again).2.2.1 Sample.givenNode _ ?_ ?_ ?_,
    fun again ↦ (hall again).2.2.2 Sample.givenJob _ ?_ ?_ ?_⟩
  all_goals decide +kernel

end SliceControl
