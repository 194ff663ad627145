import SliceControl.Node
import SliceControl.Proofs.Json.Records
import SliceControl.Proofs.Time.Stamp
import SliceControl.Proofs.Uid

/-!
# Metadata read back

The metadata of a resource read back from what they were written as, if they came with an identifier
and their times fall into the years that are written with four digits. An identifier that the
program left open is written as a word that is none, and a year outside this range is written with a
sign.
-/

namespace SliceControl

open Json

/-! ## Times -/

namespace Instant

/-- The year of an instant in UTC. -/
def year (instant : Instant) : Int := (Time.Date.ofDays (instant.seconds / Time.daySeconds)).year

/-- Whether the year of an instant is written with four digits and no sign. -/
def HasFourDigitYear (instant : Instant) : Prop := 0 ≤ instant.year ∧ instant.year ≤ 9999

instance (instant : Instant) : Decidable instant.HasFourDigitYear :=
  inferInstanceAs (Decidable (_ ∧ _))

theorem ofJson_toJson {instant : Instant} (h : instant.HasFourDigitYear) :
    ofJson instant.toJson = .ok instant := by
  refine bind_eq_ok_iff.mpr ⟨_, rfl, ?_⟩
  rw [Time.readStamp?_writeStamp h.1 h.2]

end Instant

/-! ## Owners -/

theorem OwnerReference.ofJson_toJson (owner : OwnerReference) :
    ofJson owner.toJson = .ok owner := by
  obtain ⟨apiVersion, kind, name, controller⟩ := owner
  obtain ⟨members, hmembers, hget⟩ := exists_decodeRecord "OwnerReference" fields
    [("apiVersion", .string apiVersion), ("kind", .string kind), ("name", .string name),
      ("controller", .bool controller)]
  have hversion : members.get? "apiVersion" = some (.string apiVersion) := by simp [hget]
  have hkind : members.get? "kind" = some (.string kind) := by simp [hget]
  have hname : members.get? "name" = some (.string name) := by simp [hget]
  have hcontroller : members.get? "controller" = some (.bool controller) := by simp [hget]
  simp only [ofJson, bind_eq_ok_iff]
  exact ⟨members, hmembers, _, decodeMember_eq_ok_some hversion rfl, _,
    decodeMember_eq_ok_some hcontroller rfl, _, decodeMember_eq_ok_some hkind rfl, _,
    decodeMember_eq_ok_some hname rfl, _, rfl, _, rfl, _, rfl, rfl⟩

/-! ## Metadata -/

namespace Metadata

/-- The times that metadata record. -/
def times (metadata : Metadata) : List Instant :=
  metadata.creationTimestamp.toList ++ metadata.deletionTimestamp.toList

/-- What is written for the metadata reads back: an identifier that was given, and times of the
years 0 to 9999. -/
structure Legible (metadata : Metadata) : Prop where
  uid : metadata.uid ≠ .generated
  times : ∀ time ∈ metadata.times, time.HasFourDigitYear

theorem ofJson_toJson {metadata : Metadata} (h : metadata.Legible) (drawn : Uid) :
    ofJson drawn metadata.toJson = .ok metadata := by
  obtain ⟨name, space, uid, labels, annotations, owners, creation, deletion⟩ := metadata
  obtain ⟨huid, htimes⟩ := h
  obtain ⟨members, hmembers, hget⟩ := exists_decodeRecord "ObjectMeta" fields
    ([("name", .string name)] ++ optional "namespace" (space.map .string) ++
      [("uid", uid.toJson), ("labels", .ofTexts labels), ("annotations", .ofTexts annotations)] ++
      unlessEmpty "ownerReferences" owners.isEmpty (.array (owners.map OwnerReference.toJson)) ++
      optional "creationTimestamp" (creation.map Instant.toJson) ++
      optional "deletionTimestamp" (deletion.map Instant.toJson))
  have hname : members.get? "name" = some (.string name) := by simp [hget]
  have hspaceMember : members.get? "namespace" = space.map Json.string := by simp [hget]
  have hspace : Reads members "namespace" (decodeNullable decodeString) none space :=
    reads_optional hspaceMember (fun _ ↦ Json.noConfusion) fun _ _ ↦ rfl
  have huidMember : members.get? "uid" = some uid.toJson := by simp [hget]
  have hlabels : members.get? "labels" = some (.ofTexts labels) := by simp [hget]
  have hannotations : members.get? "annotations" = some (.ofTexts annotations) := by simp [hget]
  have howners : Reads members "ownerReferences" (decodeList OwnerReference.ofJson) [] owners :=
    reads_list (by simp [hget]) fun owner _ ↦ owner.ofJson_toJson
  have hcreation : Reads members "creationTimestamp" (decodeNullable Instant.ofJson) none
      creation :=
    reads_optional (by simp [hget]) (fun _ ↦ Json.noConfusion)
      fun time htime ↦ Instant.ofJson_toJson (htimes time (by simp [times, htime]))
  have hdeletion : Reads members "deletionTimestamp" (decodeNullable Instant.ofJson) none
      deletion :=
    reads_optional (by simp [hget]) (fun _ ↦ Json.noConfusion)
      fun time htime ↦ Instant.ofJson_toJson (htimes time (by simp [times, htime]))
  obtain ⟨foundSpace, hfoundSpace, hreadSpace⟩ := hspace
  obtain ⟨foundOwners, hfoundOwners, hreadOwners⟩ := howners
  obtain ⟨foundCreation, hfoundCreation, hreadCreation⟩ := hcreation
  obtain ⟨foundDeletion, hfoundDeletion, hreadDeletion⟩ := hdeletion
  simp only [ofJson, bind_eq_ok_iff]
  exact ⟨members, hmembers, _,
    decodeMember_eq_ok_some hannotations (decodeTexts_ofTexts annotations), _, hfoundCreation, _,
    hfoundDeletion, _, decodeMember_eq_ok_some hlabels (decodeTexts_ofTexts labels), _,
    decodeMember_eq_ok_some hname rfl, _, hfoundSpace, _, hfoundOwners, _,
    decodeMember_eq_ok_some huidMember (Uid.ofJson_toJson huid), _, rfl,
    by rw [hreadSpace, hreadOwners, hreadCreation, hreadDeletion]; rfl⟩

/-- Metadata with an identifier that is not the drawn one read the same whatever is drawn. -/
theorem ofJson_of_uid_ne {value : Json} {metadata : Metadata} {drawn : Uid}
    (h : ofJson drawn value = .ok metadata) (huid : metadata.uid ≠ drawn) (other : Uid) :
    ofJson other value = .ok metadata := by
  simp only [ofJson, bind_eq_ok_iff] at h ⊢
  obtain ⟨members, hmembers, annotations, hannotations, creation, hcreation, deletion, hdeletion,
    labels, hlabels, foundName, hfoundName, space, hspace, owners, howners, found, hfound, name,
    hname, hresult⟩ := h
  cases hresult
  cases found with
  | none => exact absurd rfl huid
  | some uid =>
    exact ⟨members, hmembers, annotations, hannotations, creation, hcreation, deletion, hdeletion,
      labels, hlabels, foundName, hfoundName, space, hspace, owners, howners, some uid, hfound,
      name, hname, rfl⟩

end Metadata

/-! ## Nodes -/

theorem Node.ofJson_toJson {node : Node} (h : node.metadata.Legible) (drawn : Uid) :
    ofJson drawn node.toJson = .ok node := by
  obtain ⟨apiVersion, kind, metadata⟩ := node
  obtain ⟨members, hmembers, hget⟩ := exists_decodeRecord "Node" fields
    [("apiVersion", .string apiVersion), ("kind", .string kind), ("metadata", metadata.toJson)]
  have hversion : members.get? "apiVersion" = some (.string apiVersion) := by simp [hget]
  have hkind : members.get? "kind" = some (.string kind) := by simp [hget]
  have hmetadata : members.get? "metadata" = some metadata.toJson := by simp [hget]
  simp only [ofJson, bind_eq_ok_iff]
  exact ⟨members, hmembers, _, decodeMember_eq_ok_some hversion rfl, _,
    decodeMember_eq_ok_some hkind rfl, _,
    decodeMember_eq_ok_some hmetadata (Metadata.ofJson_toJson h drawn), _, rfl, rfl⟩

end SliceControl
