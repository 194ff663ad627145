import SliceControl.Proofs.PodTemplate.Codec
import SliceControl.Proofs.Resource.Codec
import SliceControl.Workload

/-!
# Workloads read back

Placements and assignments always read back from what they were written as, checks read back if
their times fall into the years that are written with four digits, and the templates of the pod sets
read back if they were decoded.
-/

namespace SliceControl

open Json

variable {good : Nat → Json → Prop} {depth : Nat} {value : Json}

/-! ## Placements -/

theorem Domain.ofJson_toJson (domain : Domain) : ofJson domain.toJson = .ok domain := by
  obtain ⟨values, count⟩ := domain
  obtain ⟨members, hmembers, hget⟩ := exists_decodeRecord "TopologyDomain" fields
    [("values", .ofStrings values), ("count", .ofUInt32 count)]
  have hvalues : members.get? "values" = some (.ofStrings values) := by simp [hget]
  have hcount : members.get? "count" = some (.ofUInt32 count) := by simp [hget]
  have hstrings : decodeStrings (.ofStrings values) = .ok values := decodeList_map fun _ _ ↦ rfl
  simp only [ofJson, bind_eq_ok_iff]
  exact ⟨members, hmembers, _, decodeMember_eq_ok_some hcount (decodeUInt32_ofUInt32 count), _,
    decodeMember_eq_ok_some hvalues hstrings, _, rfl, _, rfl, rfl⟩

theorem Placement.ofJson_toJson (placement : Placement) :
    ofJson placement.toJson = .ok placement := by
  obtain ⟨levels, domains⟩ := placement
  obtain ⟨members, hmembers, hget⟩ := exists_decodeRecord "TopologyAssignment" fields
    [("levels", .ofStrings levels), ("domains", .array (domains.map Domain.toJson))]
  have hlevels : members.get? "levels" = some (.ofStrings levels) := by simp [hget]
  have hdomains : members.get? "domains" = some (.array (domains.map Domain.toJson)) := by
    simp [hget]
  have hstrings : decodeStrings (.ofStrings levels) = .ok levels := decodeList_map fun _ _ ↦ rfl
  have hlist : decodeList Domain.ofJson (.array (domains.map Domain.toJson)) = .ok domains :=
    decodeList_map fun domain _ ↦ domain.ofJson_toJson
  simp only [ofJson, bind_eq_ok_iff]
  exact ⟨members, hmembers, _, decodeMember_eq_ok_some hdomains hlist, _,
    decodeMember_eq_ok_some hlevels hstrings, _, rfl, _, rfl, rfl⟩

theorem PodSetAssignment.ofJson_toJson (assignment : PodSetAssignment) :
    ofJson assignment.toJson = .ok assignment := by
  obtain ⟨name, count, placement⟩ := assignment
  obtain ⟨members, hmembers, hget⟩ := exists_decodeRecord "PodSetAssignment" fields
    ([("name", .string name), ("count", .ofUInt32 count)] ++
      optional "topologyAssignment" (placement.map Placement.toJson))
  have hname : members.get? "name" = some (.string name) := by simp [hget]
  have hcount : members.get? "count" = some (.ofUInt32 count) := by simp [hget]
  have hplacement : Reads members "topologyAssignment" (decodeNullable Placement.ofJson) none
      placement :=
    reads_optional (by simp [hget]) (fun _ ↦ Json.noConfusion)
      fun found _ ↦ found.ofJson_toJson
  obtain ⟨found, hfound, hread⟩ := hplacement
  simp only [ofJson, bind_eq_ok_iff]
  exact ⟨members, hmembers, _, decodeMember_eq_ok_some hcount (decodeUInt32_ofUInt32 count), _,
    decodeMember_eq_ok_some hname rfl, found, hfound, _, rfl, by rw [hread]; rfl⟩

theorem Admission.ofJson_toJson (admission : Admission) :
    ofJson admission.toJson = .ok admission := by
  obtain ⟨queue, assignments⟩ := admission
  obtain ⟨members, hmembers, hget⟩ := exists_decodeRecord "Admission" fields
    [("clusterQueue", .string queue),
      ("podSetAssignments", .array (assignments.map PodSetAssignment.toJson))]
  have hqueue : members.get? "clusterQueue" = some (.string queue) := by simp [hget]
  have hassignments : members.get? "podSetAssignments" =
      some (.array (assignments.map PodSetAssignment.toJson)) := by
    simp [hget]
  have hlist : decodeList PodSetAssignment.ofJson
      (.array (assignments.map PodSetAssignment.toJson)) = .ok assignments :=
    decodeList_map fun assignment _ ↦ assignment.ofJson_toJson
  simp only [ofJson, bind_eq_ok_iff]
  exact ⟨members, hmembers, _, decodeMember_eq_ok_some hqueue rfl, _,
    decodeMember_eq_ok_some hassignments hlist, rfl⟩

/-! ## Checks and status -/

theorem CheckState.ofJson_toJson (state : CheckState) : ofJson state.toJson = .ok state := by
  cases state <;> rfl

namespace AdmissionCheck

/-- The time of the last transition, if the check records one. -/
def times (check : AdmissionCheck) : List Instant := check.lastTransitionTime.toList

theorem ofJson_toJson {check : AdmissionCheck} (h : ∀ time ∈ check.times, time.HasFourDigitYear) :
    ofJson check.toJson = .ok check := by
  obtain ⟨name, state, message, time⟩ := check
  obtain ⟨members, hmembers, hget⟩ := exists_decodeRecord "AdmissionCheckState" fields
    ([("name", .string name), ("state", state.toJson), ("message", .string message)] ++
      optional "lastTransitionTime" (time.map Instant.toJson))
  have hname : members.get? "name" = some (.string name) := by simp [hget]
  have hstate : members.get? "state" = some state.toJson := by simp [hget]
  have hmessage : members.get? "message" = some (.string message) := by simp [hget]
  have htime : Reads members "lastTransitionTime" (decodeNullable Instant.ofJson) none time :=
    reads_optional (by simp [hget]) (fun _ ↦ Json.noConfusion)
      fun found hfound ↦ Instant.ofJson_toJson (h found (by simp [times, hfound]))
  obtain ⟨found, hfound, hread⟩ := htime
  simp only [ofJson, bind_eq_ok_iff]
  exact ⟨members, hmembers, found, hfound, _, decodeMember_eq_ok_some hmessage rfl, _,
    decodeMember_eq_ok_some hname rfl, _, decodeMember_eq_ok_some hstate state.ofJson_toJson, _,
    rfl, by rw [hread]; rfl⟩

end AdmissionCheck

namespace WorkloadStatus

/-- The times of the last transitions that the checks record. -/
def times (status : WorkloadStatus) : List Instant := status.checks.flatMap AdmissionCheck.times

theorem ofJson_toJson {status : WorkloadStatus}
    (h : ∀ time ∈ status.times, time.HasFourDigitYear) :
    ofJson status.toJson = .ok status := by
  obtain ⟨admission, checks, finished⟩ := status
  obtain ⟨members, hmembers, hget⟩ := exists_decodeRecord "WorkloadStatus" fields
    (optional "admission" (admission.map Admission.toJson) ++
      [("admissionChecks", .array (checks.map AdmissionCheck.toJson)),
        ("finished", .bool finished)])
  have hadmission : Reads members "admission" (decodeNullable Admission.ofJson) none admission :=
    reads_optional (by simp [hget]) (fun _ ↦ Json.noConfusion)
      fun found _ ↦ found.ofJson_toJson
  have hchecks : members.get? "admissionChecks" =
      some (.array (checks.map AdmissionCheck.toJson)) := by
    simp [hget]
  have hfinished : members.get? "finished" = some (.bool finished) := by simp [hget]
  have hlist : decodeList AdmissionCheck.ofJson (.array (checks.map AdmissionCheck.toJson)) =
      .ok checks :=
    decodeList_map fun check hmem ↦ AdmissionCheck.ofJson_toJson
      fun time htime ↦ h time (List.mem_flatMap.mpr ⟨check, hmem, htime⟩)
  obtain ⟨found, hfound, hread⟩ := hadmission
  simp only [ofJson, bind_eq_ok_iff]
  exact ⟨members, hmembers, found, hfound, _, decodeMember_eq_ok_some hchecks hlist, _,
    decodeMember_eq_ok_some hfinished rfl, by rw [hread]; rfl⟩

end WorkloadStatus

/-! ## Pod sets -/

namespace PodSet

theorem kept_of_ofJson {podSet : PodSet} (hgood : IsHereditary good) (h : good depth value)
    (hpodSet : ofJson value = .ok podSet) : podSet.template.Kept good (depth - 1) := by
  simp only [ofJson, bind_eq_ok_iff] at hpodSet
  obtain ⟨members, hmembers, _, -, _, -, found, hfound, _, -, _, -, template, htemplate, hresult⟩ :=
    hpodSet
  cases hresult
  obtain ⟨member, hmember, hdecoded⟩ := exists_of_required hfound htemplate
  exact PodTemplate.kept_of_ofJson hgood (good_of_decodeRecord hgood h hmembers _ member hmember)
    hdecoded

theorem ofJson_toJson {podSet : PodSet} (h : podSet.template.Kept good depth) :
    ofJson podSet.toJson = .ok podSet := by
  obtain ⟨name, count, template⟩ := podSet
  obtain ⟨members, hmembers, hget⟩ := exists_decodeRecord "PodSet" fields
    [("name", .string name), ("count", .ofUInt32 count), ("template", template.toJson)]
  have hname : members.get? "name" = some (.string name) := by simp [hget]
  have hcount : members.get? "count" = some (.ofUInt32 count) := by simp [hget]
  have htemplate : members.get? "template" = some template.toJson := by simp [hget]
  simp only [ofJson, bind_eq_ok_iff]
  exact ⟨members, hmembers, _, decodeMember_eq_ok_some hcount (decodeUInt32_ofUInt32 count), _,
    decodeMember_eq_ok_some hname rfl, _,
    decodeMember_eq_ok_some htemplate (PodTemplate.ofJson_toJson h), _, rfl, _, rfl, _, rfl, rfl⟩

end PodSet

/-! ## Workloads -/

namespace Workload

/-- The times that a workload records. -/
def times (workload : Workload) : List Instant := workload.metadata.times ++ workload.status.times

theorem kept_of_specOfJson {podSets : List PodSet} (hgood : IsHereditary good)
    (h : good depth value) (hpodSets : specOfJson value = .ok podSets) :
    ∀ podSet ∈ podSets, podSet.template.Kept good (depth - 1 - 1 - 1) := by
  simp only [specOfJson, bind_eq_ok_iff] at hpodSets
  obtain ⟨members, hmembers, found, hfound, hresult⟩ := hpodSets
  cases hresult
  exact of_decodeList (good_of_decodeRecord hgood h hmembers) hgood hfound
    (PodSet.kept_of_ofJson hgood)

theorem specOfJson_specToJson {podSets : List PodSet}
    (h : ∀ podSet ∈ podSets, podSet.template.Kept good depth) :
    specOfJson (specToJson podSets) = .ok podSets := by
  obtain ⟨members, hmembers, hget⟩ := exists_decodeRecord "WorkloadSpec" specFields
    [("podSets", .array (podSets.map PodSet.toJson))]
  have hpodSets : members.get? "podSets" = some (.array (podSets.map PodSet.toJson)) := by
    simp [hget]
  have hlist : decodeList PodSet.ofJson (.array (podSets.map PodSet.toJson)) = .ok podSets :=
    decodeList_map fun podSet hmem ↦ PodSet.ofJson_toJson (h podSet hmem)
  simp only [specOfJson, bind_eq_ok_iff]
  exact ⟨members, hmembers, _, decodeMember_eq_ok_some hpodSets hlist, rfl⟩

theorem kept_of_ofJson {drawn : Uid} {workload : Workload} (hgood : IsHereditary good)
    (h : good depth value) (hworkload : ofJson drawn value = .ok workload) :
    ∀ podSet ∈ workload.podSets, podSet.template.Kept good (depth - 1 - 1 - 1 - 1) := by
  simp only [ofJson, bind_eq_ok_iff] at hworkload
  obtain ⟨members, hmembers, _, -, _, -, _, -, found, hfound, _, -, _, -, podSets, hpodSets,
    hresult⟩ := hworkload
  cases hresult
  obtain ⟨spec, hspec, hdecoded⟩ := exists_of_required hfound hpodSets
  exact kept_of_specOfJson hgood (good_of_decodeRecord hgood h hmembers _ spec hspec) hdecoded

theorem ofJson_toJson {workload : Workload} (hmetadata : workload.metadata.Legible)
    (hpodSets : ∀ podSet ∈ workload.podSets, podSet.template.Kept good depth)
    (hstatus : ∀ time ∈ workload.status.times, time.HasFourDigitYear) (drawn : Uid) :
    ofJson drawn workload.toJson = .ok workload := by
  obtain ⟨apiVersion, kind, metadata, podSets, status⟩ := workload
  obtain ⟨members, hmembers, hget⟩ := exists_decodeRecord "Workload" fields
    [("apiVersion", .string apiVersion), ("kind", .string kind), ("metadata", metadata.toJson),
      ("spec", specToJson podSets), ("status", status.toJson)]
  have hversion : members.get? "apiVersion" = some (.string apiVersion) := by simp [hget]
  have hkind : members.get? "kind" = some (.string kind) := by simp [hget]
  have hmetadataMember : members.get? "metadata" = some metadata.toJson := by simp [hget]
  have hspec : members.get? "spec" = some (specToJson podSets) := by simp [hget]
  have hstatusMember : members.get? "status" = some status.toJson := by simp [hget]
  simp only [ofJson, bind_eq_ok_iff]
  exact ⟨members, hmembers, _, decodeMember_eq_ok_some hversion rfl, _,
    decodeMember_eq_ok_some hkind rfl, _,
    decodeMember_eq_ok_some hmetadataMember (Metadata.ofJson_toJson hmetadata drawn), _,
    decodeMember_eq_ok_some hspec (specOfJson_specToJson hpodSets), _,
    decodeMember_eq_ok_some hstatusMember (WorkloadStatus.ofJson_toJson hstatus), _, rfl, _, rfl,
    rfl⟩

end Workload

end SliceControl
