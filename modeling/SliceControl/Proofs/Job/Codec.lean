import SliceControl.Job
import SliceControl.Proofs.PodTemplate.Codec
import SliceControl.Proofs.Resource.Codec

/-!
# Jobs read back

A job reads back from what it was written as, and what is written for its spec is tidy if what it
keeps aside is.

An object that reads as a job reads as the same job with another spec once its spec is replaced.
-/

namespace SliceControl

open Json

variable {good : Nat → Json → Prop} {reals : Bool} {depth : Nat} {value : Json}

/-! ## Groups -/

namespace GroupTemplateSpec

/-- What is kept aside is good, here and in the template of the pods. -/
structure Kept (good : Nat → Json → Prop) (depth : Nat) (spec : GroupTemplateSpec) : Prop where
  extra : Keeps good depth ["parallelism", "template"] spec.extra
  template : spec.template.Kept good (depth - 1)

theorem kept_empty (good : Nat → Json → Prop) (depth : Nat) :
    Kept good depth ⟨none, .empty, .empty⟩ :=
  ⟨keeps_empty good depth _, PodTemplate.kept_empty good _⟩

theorem kept_of_ofJson {spec : GroupTemplateSpec} (hgood : IsHereditary good)
    (h : good depth value) (hspec : ofJson value = .ok spec) : spec.Kept good depth := by
  simp only [ofJson, bind_eq_ok_iff] at hspec
  obtain ⟨members, hmembers, parallelism, -, template, htemplate, hresult⟩ := hspec
  cases hresult
  have hgoods := good_of_decodeMembers hgood h hmembers
  refine ⟨keeps_unknownMembers hgoods _, ?_⟩
  exact decodeMember_getD htemplate (PodTemplate.kept_empty good _)
    fun member _ hmember ↦ PodTemplate.kept_of_ofJson hgood (hgoods _ member hmember)

theorem ofJson_toJson {spec : GroupTemplateSpec} (h : spec.Kept good depth) :
    ofJson spec.toJson = .ok spec := by
  obtain ⟨parallelism, template, extra⟩ := spec
  obtain ⟨members, hmembers, hget, hextra⟩ := h.extra.exists_decodeMembers "JobTemplateSpec"
    (optional "parallelism" (parallelism.map ofUInt32) ++ [("template", template.toJson)])
    (by simp +contextual [or_imp])
  have hparallelism : Reads members "parallelism" (decodeNullable decodeUInt32) none parallelism :=
    reads_optional (by simp [hget]) (fun _ ↦ Json.noConfusion) fun _ _ ↦ decodeUInt32_ofUInt32 _
  have htemplate : members.get? "template" = some template.toJson := by simp [hget]
  obtain ⟨found, hfound, hread⟩ := hparallelism
  simp only [ofJson, bind_eq_ok_iff]
  exact ⟨members, hmembers, found, hfound, _,
    decodeMember_eq_ok_some htemplate (PodTemplate.ofJson_toJson h.template),
    by rw [hread, hextra]; rfl⟩

theorem tidy_toJson {spec : GroupTemplateSpec} (h : spec.Kept (Tidy reals) depth)
    (hdepth : 11 ≤ depth) : spec.toJson.Tidy reals depth := by
  have htemplate : spec.template.toJson.Tidy reals (depth - 1) :=
    PodTemplate.tidy_toJson h.template (by omega)
  apply Tidy.withExtra (by omega) h.extra
  simp +contextual [or_imp, htemplate, ofUInt32]

end GroupTemplateSpec

namespace GroupTemplate

/-- What is kept aside is good, here and in the spec. -/
structure Kept (good : Nat → Json → Prop) (depth : Nat) (template : GroupTemplate) : Prop where
  extra : Keeps good depth ["spec"] template.extra
  spec : template.spec.Kept good (depth - 1)

theorem kept_of_ofJson {template : GroupTemplate} (hgood : IsHereditary good)
    (h : good depth value) (htemplate : ofJson value = .ok template) :
    template.Kept good depth := by
  simp only [ofJson, bind_eq_ok_iff] at htemplate
  obtain ⟨members, hmembers, spec, hspec, hresult⟩ := htemplate
  cases hresult
  have hgoods := good_of_decodeMembers hgood h hmembers
  refine ⟨keeps_unknownMembers hgoods _, ?_⟩
  exact decodeMember_getD hspec (GroupTemplateSpec.kept_empty good _)
    fun member _ hmember ↦ GroupTemplateSpec.kept_of_ofJson hgood (hgoods _ member hmember)

theorem ofJson_toJson {template : GroupTemplate} (h : template.Kept good depth) :
    ofJson template.toJson = .ok template := by
  obtain ⟨spec, extra⟩ := template
  obtain ⟨members, hmembers, hget, hextra⟩ := h.extra.exists_decodeMembers "JobTemplate"
    [("spec", spec.toJson)] (by simp)
  have hspec : members.get? "spec" = some spec.toJson := by simp [hget]
  simp only [ofJson, bind_eq_ok_iff]
  exact ⟨members, hmembers, _,
    decodeMember_eq_ok_some hspec (GroupTemplateSpec.ofJson_toJson h.spec), by rw [hextra]; rfl⟩

theorem tidy_toJson {template : GroupTemplate} (h : template.Kept (Tidy reals) depth)
    (hdepth : 12 ≤ depth) : template.toJson.Tidy reals depth := by
  have hspec : template.spec.toJson.Tidy reals (depth - 1) :=
    GroupTemplateSpec.tidy_toJson h.spec (by omega)
  exact .withExtra (by omega) h.extra (by simp [hspec])

end GroupTemplate

namespace ReplicaGroup

/-- What is kept aside is good, in the group and in its template. -/
structure Kept (good : Nat → Json → Prop) (depth : Nat) (group : ReplicaGroup) : Prop where
  extra : Keeps good depth ["name", "replicas", "template"] group.extra
  template : group.template.Kept good (depth - 1)

theorem kept_of_ofJson {group : ReplicaGroup} (hgood : IsHereditary good) (h : good depth value)
    (hgroup : ofJson value = .ok group) : group.Kept good depth := by
  simp only [ofJson, bind_eq_ok_iff] at hgroup
  obtain ⟨members, hmembers, name, -, replicas, -, template, htemplate, _, -, found, hfound,
    hresult⟩ := hgroup
  cases hresult
  have hgoods := good_of_decodeMembers hgood h hmembers
  refine ⟨keeps_unknownMembers hgoods _, ?_⟩
  exact decodeMember_required htemplate hfound
    fun member hmember ↦ GroupTemplate.kept_of_ofJson hgood (hgoods _ member hmember)

theorem ofJson_toJson {group : ReplicaGroup} (h : group.Kept good depth) :
    ofJson group.toJson = .ok group := by
  obtain ⟨name, replicas, template, extra⟩ := group
  obtain ⟨members, hmembers, hget, hextra⟩ := h.extra.exists_decodeMembers "ReplicatedJob"
    [("name", .string name), ("replicas", .ofUInt32 replicas), ("template", template.toJson)]
    (by simp)
  have hname : members.get? "name" = some (.string name) := by simp [hget]
  have hreplicas : members.get? "replicas" = some (.ofUInt32 replicas) := by simp [hget]
  have htemplate : members.get? "template" = some template.toJson := by simp [hget]
  simp only [ofJson, bind_eq_ok_iff]
  exact ⟨members, hmembers, _, decodeMember_eq_ok_some hname rfl, _,
    decodeMember_eq_ok_some hreplicas (decodeUInt32_ofUInt32 replicas), _,
    decodeMember_eq_ok_some htemplate (GroupTemplate.ofJson_toJson h.template), _, rfl, _, rfl,
    by rw [hextra]; rfl⟩

theorem tidy_toJson {group : ReplicaGroup} (h : group.Kept (Tidy reals) depth)
    (hdepth : 13 ≤ depth) : group.toJson.Tidy reals depth := by
  have htemplate : group.template.toJson.Tidy reals (depth - 1) :=
    GroupTemplate.tidy_toJson h.template (by omega)
  exact .withExtra (by omega) h.extra (by simp [htemplate, ofUInt32])

end ReplicaGroup

/-! ## Specs -/

namespace JobSpec

/-- What is kept aside is good, in the spec and in its groups. -/
structure Kept (good : Nat → Json → Prop) (depth : Nat) (spec : JobSpec) : Prop where
  extra : Keeps good depth ["replicatedJobs"] spec.extra
  groups : ∀ group ∈ spec.groups, group.Kept good (depth - 1 - 1)

theorem kept_of_ofJson {spec : JobSpec} (hgood : IsHereditary good) (h : good depth value)
    (hspec : ofJson value = .ok spec) : spec.Kept good depth := by
  simp only [ofJson, bind_eq_ok_iff] at hspec
  obtain ⟨members, hmembers, groups, hgroups, hresult⟩ := hspec
  cases hresult
  have hgoods := good_of_decodeMembers hgood h hmembers
  refine ⟨keeps_unknownMembers hgoods _, ?_⟩
  exact of_decodeList hgoods hgood hgroups (ReplicaGroup.kept_of_ofJson hgood)

theorem ofJson_toJson {spec : JobSpec} (h : spec.Kept good depth) :
    ofJson spec.toJson = .ok spec := by
  obtain ⟨groups, extra⟩ := spec
  obtain ⟨members, hmembers, hget, hextra⟩ := h.extra.exists_decodeMembers "JobSpec"
    [("replicatedJobs", .array (groups.map ReplicaGroup.toJson))] (by simp)
  have hgroups : members.get? "replicatedJobs" =
      some (.array (groups.map ReplicaGroup.toJson)) := by
    simp [hget]
  have hlist : decodeList ReplicaGroup.ofJson (.array (groups.map ReplicaGroup.toJson)) =
      .ok groups :=
    decodeList_map fun group hmem ↦ ReplicaGroup.ofJson_toJson (h.groups group hmem)
  simp only [ofJson, bind_eq_ok_iff]
  exact ⟨members, hmembers, _, decodeMember_eq_ok_some hgroups hlist, by rw [hextra]; rfl⟩

theorem tidy_toJson {spec : JobSpec} (h : spec.Kept (Tidy reals) depth) (hdepth : 15 ≤ depth) :
    spec.toJson.Tidy reals depth := by
  have hgroups : (Json.array (spec.groups.map ReplicaGroup.toJson)).Tidy reals (depth - 1) := by
    apply Tidy.array (by omega)
    rw [List.forall_mem_map]
    exact fun group hmem ↦ ReplicaGroup.tidy_toJson (h.groups group hmem) (by omega)
  exact .withExtra (by omega) h.extra (by simp [hgroups])

end JobSpec

/-! ## Jobs -/

theorem Job.ofJson_toJson {job : Job}
    (hmetadata : job.metadata.Legible) (hspec : job.spec.Kept good depth) (drawn : Uid) :
    Job.ofJson drawn job.toJson = .ok job := by
  obtain ⟨apiVersion, kind, metadata, spec⟩ := job
  obtain ⟨members, hmembers, hget⟩ := exists_decodeRecord "Job" Job.fields
    [("apiVersion", .string apiVersion), ("kind", .string kind), ("metadata", metadata.toJson),
      ("spec", spec.toJson)]
  have hversion : members.get? "apiVersion" = some (.string apiVersion) := by simp [hget]
  have hkind : members.get? "kind" = some (.string kind) := by simp [hget]
  have hmetadataMember : members.get? "metadata" = some metadata.toJson := by simp [hget]
  have hspecMember : members.get? "spec" = some spec.toJson := by simp [hget]
  simp only [Job.ofJson, bind_eq_ok_iff]
  exact ⟨members, hmembers, _, decodeMember_eq_ok_some hversion rfl, _,
    decodeMember_eq_ok_some hkind rfl, _,
    decodeMember_eq_ok_some hmetadataMember (Metadata.ofJson_toJson hmetadata drawn), _,
    decodeMember_eq_ok_some hspecMember (JobSpec.ofJson_toJson hspec), _, rfl, _, rfl, _, rfl, _,
    rfl, rfl⟩

theorem Job.kept_of_ofJson {drawn : Uid} {job : Job} (hgood : IsHereditary good)
    (h : good depth value) (hjob : Job.ofJson drawn value = .ok job) :
    job.spec.Kept good (depth - 1) := by
  simp only [Job.ofJson, bind_eq_ok_iff] at hjob
  obtain ⟨members, hmembers, _, -, _, -, _, -, spec, hspec, _, -, _, -, _, -, found, hfound,
    hresult⟩ := hjob
  cases hresult
  have hgoods := good_of_decodeRecord hgood h hmembers
  exact decodeMember_required hspec hfound
    fun member hmember ↦ JobSpec.kept_of_ofJson hgood (hgoods _ member hmember)

/-- A job with an identifier that is not the drawn one reads the same whatever is drawn. -/
theorem Job.ofJson_of_uid_ne {drawn : Uid} {job : Job} (h : Job.ofJson drawn value = .ok job)
    (huid : job.metadata.uid ≠ drawn) (other : Uid) : Job.ofJson other value = .ok job := by
  simp only [Job.ofJson, bind_eq_ok_iff] at h ⊢
  obtain ⟨members, hmembers, version, hversion, kind, hkind, found, hfound, spec, hspec,
    foundVersion, hfoundVersion, foundKind, hfoundKind, metadata, hmetadata, foundSpec, hfoundSpec,
    hresult⟩ := h
  cases hresult
  obtain ⟨member, hmember, hdecoded⟩ := exists_of_required hfound hmetadata
  exact ⟨members, hmembers, version, hversion, kind, hkind, some metadata,
    decodeMember_eq_ok_some hmember (Metadata.ofJson_of_uid_ne hdecoded huid other), spec, hspec,
    foundVersion, hfoundVersion, foundKind, hfoundKind, metadata, rfl, foundSpec, hfoundSpec, rfl⟩

/-! ## Replacing the spec of an object -/

/-- An object with one of its members replaced. There is no such object if the member is missing. -/
def Json.replaceMember? (value : Json) (key : String) (member : Json) : Option Json :=
  match value with
  | object entries =>
    let members := SortedMap.ofList entries
    if members.contains key then some (.ofMap (members.insert key member)) else none
  | _ => none

/-- An object that reads as a job has a spec. -/
theorem Job.exists_spec_of_ofJson {drawn : Uid} {entries : List (String × Json)} {job : Job}
    (h : Job.ofJson drawn (object entries) = .ok job) :
    ∃ member, (SortedMap.ofList entries).get? "spec" = some member ∧
      JobSpec.ofJson member = .ok job.spec := by
  simp only [Job.ofJson, bind_eq_ok_iff] at h
  obtain ⟨members, hmembers, _, -, _, -, _, -, found, hfound, _, -, _, -, _, -, spec, hspec,
    hresult⟩ := h
  cases hresult
  cases hmembers
  exact exists_of_required hfound hspec

theorem Json.replaceMember?_of_get? {entries : List (String × Json)} {key : String} {member : Json}
    (h : (SortedMap.ofList entries).get? key = some member) (replacement : Json) :
    (object entries).replaceMember? key replacement =
      some (.ofMap ((SortedMap.ofList entries).insert key replacement)) :=
  if_pos (by rw [SortedMap.contains, h, Option.isSome_some])

/-- An object that reads as a job reads as the same job with another spec once its spec is
replaced. -/
theorem Job.ofJson_insert_spec {drawn : Uid} {entries : List (String × Json)} {replacement : Json}
    {job : Job} {spec : JobSpec} (h : Job.ofJson drawn (object entries) = .ok job)
    (hspec : JobSpec.ofJson replacement = .ok spec) :
    Job.ofJson drawn (.ofMap ((SortedMap.ofList entries).insert "spec" replacement)) =
      .ok { job with spec } := by
  simp only [Job.ofJson, bind_eq_ok_iff] at h
  obtain ⟨members, hmembers, apiVersion, hapiVersion, kind, hkind, metadata, hmetadata, found,
    hfound, _, hversion, _, hname, _, hmeta, old, hold, hjob⟩ := h
  cases hjob
  cases hmembers
  have hother {α : Type} {decode : Json → Decoded α} {key : String} (hkey : "spec" ≠ key) :
      decodeMember ((SortedMap.ofList entries).insert "spec" replacement) key decode =
        decodeMember (SortedMap.ofList entries) key decode := by
    rw [decodeMember, decodeMember, SortedMap.get?_insert, if_neg hkey]
  have hreplaced : ((SortedMap.ofList entries).insert "spec" replacement).get? "spec" =
      some replacement := by
    rw [SortedMap.get?_insert, if_pos rfl]
  simp only [Job.ofJson, bind_eq_ok_iff]
  exact ⟨_, decodeRecord_ofMap _ _ _, apiVersion, (hother (by decide)).trans hapiVersion, kind,
    (hother (by decide)).trans hkind, metadata, (hother (by decide)).trans hmetadata, _,
    decodeMember_eq_ok_some hreplaced hspec, _, hversion, _, hname, _, hmeta, _, rfl, rfl⟩

end SliceControl
