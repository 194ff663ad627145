import SliceControl.Proofs.Resource.Codec
import SliceControl.Slice

/-!
# Slices read back

The spec of a slice always reads back from what it was written as. Its status and its metadata read
back if their times fall into the years that are written with four digits.
-/

namespace SliceControl

open Json

/-! ## Specs -/

theorem Accelerator.ofJson_toJson (accelerator : Accelerator) :
    ofJson accelerator.toJson = .ok accelerator := by
  cases accelerator
  rfl

theorem SliceSpec.ofJson_toJson (spec : SliceSpec) : ofJson spec.toJson = .ok spec := by
  obtain ⟨accelerator, topology, selector⟩ := spec
  obtain ⟨members, hmembers, hget⟩ := exists_decodeRecord "SliceSpec" fields
    [("acceleratorType", accelerator.toJson), ("topology", .string topology),
      ("nodeSelector", .ofMap (selector.mapValues Json.ofStrings))]
  have haccelerator : members.get? "acceleratorType" = some accelerator.toJson := by simp [hget]
  have htopology : members.get? "topology" = some (.string topology) := by simp [hget]
  have hselector : members.get? "nodeSelector" =
      some (.ofMap (selector.mapValues Json.ofStrings)) := by
    simp [hget]
  have hvalues : decodeMap decodeStrings (.ofMap (selector.mapValues Json.ofStrings)) =
      .ok selector :=
    decodeMap_mapValues Json.ofStrings (fun _ ↦ decodeList_map fun _ _ ↦ rfl) selector
  simp only [ofJson, bind_eq_ok_iff]
  exact ⟨members, hmembers, _,
    decodeMember_eq_ok_some haccelerator accelerator.ofJson_toJson, _,
    decodeMember_eq_ok_some hselector hvalues, _, decodeMember_eq_ok_some htopology rfl, _, rfl, _,
    rfl, rfl⟩

/-! ## Conditions and status -/

theorem ConditionStatus.ofJson_toJson (status : ConditionStatus) :
    ofJson status.toJson = .ok status := by
  cases status <;> rfl

theorem Condition.ofJson_toJson {condition : Condition}
    (h : condition.lastTransitionTime.HasFourDigitYear) :
    ofJson condition.toJson = .ok condition := by
  obtain ⟨type, status, reason, message, time⟩ := condition
  obtain ⟨members, hmembers, hget⟩ := exists_decodeRecord "SliceCondition" fields
    [("type", .string type), ("status", status.toJson), ("reason", .string reason),
      ("message", .string message), ("lastTransitionTime", time.toJson)]
  have htype : members.get? "type" = some (.string type) := by simp [hget]
  have hstatus : members.get? "status" = some status.toJson := by simp [hget]
  have hreason : members.get? "reason" = some (.string reason) := by simp [hget]
  have hmessage : members.get? "message" = some (.string message) := by simp [hget]
  have htime : members.get? "lastTransitionTime" = some time.toJson := by simp [hget]
  simp only [ofJson, bind_eq_ok_iff]
  exact ⟨members, hmembers, _, decodeMember_eq_ok_some htime (Instant.ofJson_toJson h), _,
    decodeMember_eq_ok_some hmessage rfl, _, decodeMember_eq_ok_some hreason rfl, _,
    decodeMember_eq_ok_some hstatus status.ofJson_toJson, _, decodeMember_eq_ok_some htype rfl, _,
    rfl, _, rfl, _, rfl, _, rfl, rfl⟩

namespace SliceStatus

/-- The times of the last transitions that a status records. -/
def times (status : SliceStatus) : List Instant := status.conditions.map (·.lastTransitionTime)

theorem ofJson_toJson {status : SliceStatus} (h : ∀ time ∈ status.times, time.HasFourDigitYear) :
    ofJson status.toJson = .ok status := by
  obtain ⟨conditions, blockId, subBlockIds⟩ := status
  obtain ⟨members, hmembers, hget⟩ := exists_decodeRecord "SliceStatus" fields
    ([("conditions", .array (conditions.map Condition.toJson))] ++
      optional "blockId" (blockId.map .string) ++
      unlessEmpty "subBlockIds" subBlockIds.isEmpty (.ofStrings subBlockIds))
  have hconditions : members.get? "conditions" =
      some (.array (conditions.map Condition.toJson)) := by
    simp [hget]
  have hblockMember : members.get? "blockId" = blockId.map Json.string := by simp [hget]
  have hblock : Reads members "blockId" (decodeNullable decodeString) none blockId :=
    reads_optional hblockMember (fun _ ↦ Json.noConfusion) fun _ _ ↦ rfl
  have hsubBlocks : Reads members "subBlockIds" decodeStrings [] subBlockIds :=
    reads_strings (by simp [hget])
  have hlist : decodeList Condition.ofJson (.array (conditions.map Condition.toJson)) =
      .ok conditions :=
    decodeList_map fun condition hmem ↦ Condition.ofJson_toJson
      (h condition.lastTransitionTime (List.mem_map_of_mem hmem))
  obtain ⟨foundBlock, hfoundBlock, hreadBlock⟩ := hblock
  obtain ⟨foundSubBlocks, hfoundSubBlocks, hreadSubBlocks⟩ := hsubBlocks
  simp only [ofJson, bind_eq_ok_iff]
  exact ⟨members, hmembers, foundBlock, hfoundBlock, _, decodeMember_eq_ok_some hconditions hlist,
    foundSubBlocks, hfoundSubBlocks, by rw [hreadBlock, hreadSubBlocks]; rfl⟩

end SliceStatus

/-! ## Slices -/

namespace Slice

/-- The times that a slice records. -/
def times (slice : Slice) : List Instant := slice.metadata.times ++ slice.status.times

theorem ofJson_toJson {slice : Slice} (hmetadata : slice.metadata.Legible)
    (hstatus : ∀ time ∈ slice.status.times, time.HasFourDigitYear) (drawn : Uid) :
    ofJson drawn slice.toJson = .ok slice := by
  obtain ⟨apiVersion, kind, metadata, spec, status⟩ := slice
  obtain ⟨members, hmembers, hget⟩ := exists_decodeRecord "Slice" fields
    [("apiVersion", .string apiVersion), ("kind", .string kind), ("metadata", metadata.toJson),
      ("spec", spec.toJson), ("status", status.toJson)]
  have hversion : members.get? "apiVersion" = some (.string apiVersion) := by simp [hget]
  have hkind : members.get? "kind" = some (.string kind) := by simp [hget]
  have hmetadataMember : members.get? "metadata" = some metadata.toJson := by simp [hget]
  have hspec : members.get? "spec" = some spec.toJson := by simp [hget]
  have hstatusMember : members.get? "status" = some status.toJson := by simp [hget]
  simp only [ofJson, bind_eq_ok_iff]
  exact ⟨members, hmembers, _, decodeMember_eq_ok_some hversion rfl, _,
    decodeMember_eq_ok_some hkind rfl, _,
    decodeMember_eq_ok_some hmetadataMember (Metadata.ofJson_toJson hmetadata drawn), _,
    decodeMember_eq_ok_some hspec spec.ofJson_toJson, _,
    decodeMember_eq_ok_some hstatusMember (SliceStatus.ofJson_toJson hstatus), _, rfl, _, rfl, _,
    rfl, _, rfl, rfl⟩

end Slice

end SliceControl
