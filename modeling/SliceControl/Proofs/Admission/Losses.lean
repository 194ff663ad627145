import SliceControl.Proofs.Admission.Patch
import SliceControl.Proofs.PodTemplate.Fate

/-!
# What a patch loses

A patch replaces the whole spec of a submitted object by what is written for the defaulted job. So a
part of the spec comes through if the records that it is decoded into have a place for it, and
defaulting changes it only in the templates of the groups that ask for slices. What a template, a
node selector, a requirement or the resources of a container hold besides the members that are
known is lost, and the patch removes it from the object.
-/

namespace SliceControl

open Json SortedMap

variable {value : Json} {demanded : Bool}

/-! ## Groups -/

namespace GroupTemplateSpec

def fate (demanded : Bool) : Fate :=
  .record [("parallelism", .kept), ("template", PodTemplate.fate demanded)] .kept

theorem carries {spec : GroupTemplateSpec} {template : PodTemplate} (h : ofJson value = .ok spec)
    (htemplate : spec.template.Becomes demanded template) :
    Carries (fate demanded) value (some { spec with template }.toJson) := by
  simp only [ofJson, bind_eq_ok_iff] at h
  obtain ⟨members, hmembers, foundParallelism, hfoundParallelism, foundTemplate, hfoundTemplate,
    hresult⟩ := h
  cases hresult
  refine carries_withExtra hmembers rfl (by simp +contextual [or_imp]) ?_
  refine List.forall_mem_cons.mpr ⟨fun part hpart hvacant ↦ ?_,
    List.forall_mem_singleton.mpr fun part hpart _ ↦ ?_⟩
  · obtain ⟨nullable, rfl, hnullable⟩ := exists_of_get? hfoundParallelism hpart
    obtain ⟨parallelism, rfl, hparallelism⟩ := exists_of_decodeNullable hnullable hvacant
    exact carries_of_eq_some (by simp [ofUInt32_of_decodeUInt32 hparallelism])
  · obtain ⟨original, rfl, horiginal⟩ := exists_of_get? hfoundTemplate hpart
    simpa using PodTemplate.carries horiginal htemplate

end GroupTemplateSpec

namespace GroupTemplate

def fate (demanded : Bool) : Fate := .record [("spec", GroupTemplateSpec.fate demanded)] .kept

theorem carries {group : GroupTemplate} {template : PodTemplate} (h : ofJson value = .ok group)
    (htemplate : group.spec.template.Becomes demanded template) :
    Carries (fate demanded) value
      (some { group with spec := { group.spec with template } }.toJson) := by
  simp only [ofJson, bind_eq_ok_iff] at h
  obtain ⟨members, hmembers, found, hfound, hresult⟩ := h
  cases hresult
  refine carries_withExtra hmembers rfl (by simp)
    (List.forall_mem_singleton.mpr fun part hpart _ ↦ ?_)
  obtain ⟨spec, rfl, hspec⟩ := exists_of_get? hfound hpart
  simpa using GroupTemplateSpec.carries hspec htemplate

end GroupTemplate

namespace ReplicaGroup

/-- The other group is the same, with another template. -/
def Becomes (demanded : Bool) (group other : ReplicaGroup) : Prop :=
  ∃ template, group.podTemplate.Becomes demanded template ∧ other = group.setPodTemplate template

def fate (demanded : Bool) : Fate :=
  .record [("name", .kept), ("replicas", .kept), ("template", GroupTemplate.fate demanded)] .kept

theorem carries {group other : ReplicaGroup} (h : ofJson value = .ok group)
    (hother : group.Becomes demanded other) :
    Carries (fate demanded) value (some other.toJson) := by
  obtain ⟨template, htemplate, rfl⟩ := hother
  simp only [ofJson, bind_eq_ok_iff] at h
  obtain ⟨members, hmembers, foundName, hfoundName, foundReplicas, hfoundReplicas, foundTemplate,
    hfoundTemplate, name, hname, found, hfound, hresult⟩ := h
  cases hresult
  refine carries_withExtra hmembers rfl (by simp) ?_
  refine List.forall_mem_cons.mpr ⟨fun part hpart _ ↦ ?_, List.forall_mem_cons.mpr
    ⟨fun part hpart _ ↦ ?_, List.forall_mem_singleton.mpr fun part hpart _ ↦ ?_⟩⟩
  · obtain ⟨text, rfl, htext⟩ := exists_of_get? hfoundName hpart
    cases hname
    exact carries_of_eq_some (by simp [setPodTemplate, string_of_decodeString htext])
  · obtain ⟨replicas, rfl, hreplicas⟩ := exists_of_get? hfoundReplicas hpart
    exact carries_of_eq_some (by simp [setPodTemplate, ofUInt32_of_decodeUInt32 hreplicas])
  · obtain ⟨original, rfl, horiginal⟩ := exists_of_get? hfoundTemplate hpart
    cases hfound
    simpa [setPodTemplate] using GroupTemplate.carries horiginal htemplate

/-- Whether a group asks for a slice that can be provided. -/
def asksForSlice (group : ReplicaGroup) : Bool := group.podTemplate.requestedSlice?.isSome

theorem becomes_of_default {group other : ReplicaGroup} (h : group.default = .ok other) :
    group.Becomes group.asksForSlice other := by
  rcases ReplicaGroup.default_eq_ok_iff.mp h with
    ⟨-, rfl⟩ | ⟨topology, accelerator, podsPerCube, hrequest, -, rfl⟩
  · exact ⟨other.podTemplate, other.podTemplate.becomes_self _, rfl⟩
  · have hasks : group.asksForSlice = true := by rw [asksForSlice, hrequest, Option.isSome_some]
    rw [hasks]
    exact ⟨_, group.podTemplate.becomes_defaulted topology podsPerCube, rfl⟩

end ReplicaGroup

/-! ## Specs -/

namespace JobSpec

/-- The fate of a spec, where the groups at some positions ask for slices. -/
def fate (demanded : Nat → Bool) : Fate :=
  .record [("replicatedJobs", .items fun index ↦ ReplicaGroup.fate (demanded index))] .kept

theorem carries {demanded : Nat → Bool} {spec : JobSpec} {groups : List ReplicaGroup}
    (h : ofJson value = .ok spec) (hlength : groups.length = spec.groups.length)
    (hgroups : ∀ (index : Nat) (group other : ReplicaGroup), spec.groups[index]? = some group →
      groups[index]? = some other → group.Becomes (demanded index) other) :
    Carries (fate demanded) value (some { spec with groups }.toJson) := by
  simp only [ofJson, bind_eq_ok_iff] at h
  obtain ⟨members, hmembers, found, hfound, hresult⟩ := h
  cases hresult
  refine carries_withExtra hmembers rfl (by simp)
    (List.forall_mem_singleton.mpr fun part hpart _ ↦ ?_)
  obtain ⟨originals, rfl, horiginals⟩ := exists_of_get? hfound hpart
  have hitems : Carries (.items fun index ↦ ReplicaGroup.fate (demanded index)) part
      (some (.array (groups.map ReplicaGroup.toJson))) :=
    carries_items horiginals hlength fun index item group other hgroup hother hdecoded ↦
      ReplicaGroup.carries hdecoded (hgroups index group other hgroup hother)
  simpa using hitems

end JobSpec

namespace Job

/-- The fate of the spec of a job under defaulting. -/
def specFate (job : Job) : Fate :=
  JobSpec.fate fun index ↦ (job.spec.groups[index]?).any ReplicaGroup.asksForSlice

/-- Where a job is defaulted, its groups are defaulted one by one. -/
theorem carries_of_default {job defaulted : Job} (hspec : JobSpec.ofJson value = .ok job.spec)
    (hdefault : job.default = .ok defaulted) (hchanged : defaulted ≠ job) :
    Carries job.specFate value (some defaulted.spec.toJson) := by
  rcases default_eq_ok_iff.mp hdefault with ⟨-, rfl⟩ | ⟨-, groups, hgroups, rfl⟩
  · exact absurd rfl hchanged
  · refine JobSpec.carries hspec (length_of_mapM_eq_ok hgroups)
      fun index group other hgroup hother ↦ ?_
    obtain ⟨result, hresult, hsame⟩ := exists_getElem?_of_mapM_eq_ok hgroups hgroup
    cases hother.symm.trans hresult
    rw [hgroup, Option.any_some]
    exact ReplicaGroup.becomes_of_default hsame

end Job

/-! ## Patches -/

theorem ReviewRequest.exists_of_patch_respond {request : ReviewRequest} {drawn : Uid} {job : Job}
    {text : String} (hjob : Job.ofJson drawn request.object = .ok job)
    (hpatch : (request.respond drawn).patch = some text) :
    ∃ defaulted, job.default = .ok defaulted ∧ defaulted ≠ job ∧
      text = encodePatch (specPatch defaulted.spec.toJson) := by
  rw [respond, hjob] at hpatch
  dsimp only at hpatch
  split at hpatch
  · cases hpatch
  · next defaulted hdefault =>
    split_ifs at hpatch with hsame
    · cases hpatch
    · exact ⟨defaulted, hdefault, hsame, (Option.some.inj hpatch).symm⟩

/-- An object whose spec is replaced has the new spec. -/
theorem Json.at?_spec_replaced {entries : List (String × Json)} {member : Json} (spec : Json)
    (hmember : (ofList entries).get? "spec" = some member) :
    ∃ patched, (object entries).replaceMember? "spec" spec = some patched ∧
      ∀ path, (object entries).at? (.member "spec" :: path) = member.at? path ∧
        patched.at? (.member "spec" :: path) = spec.at? path := by
  refine ⟨_, replaceMember?_of_get? hmember spec, fun path ↦ ⟨?_, ?_⟩⟩
  · show ((ofList entries).get? "spec").bind _ = _
    rw [hmember, Option.bind_some]
  · show ((ofList ((ofList entries).insert "spec" spec).entries).get? "spec").bind _ = _
    rw [ofList_entries, get?_insert, if_pos rfl, Option.bind_some]

/-- A job reads from an object or from an array. -/
theorem Job.cases_of_ofJson {drawn : Uid} {job : Job} (h : Job.ofJson drawn value = .ok job) :
    (∃ entries, value = object entries) ∨ ∃ items, value = array items := by
  obtain ⟨members, hmembers, -⟩ := bind_eq_ok_iff.mp h
  exact (cases_of_decodeRecord hmembers).imp (fun ⟨entries, hentries, _⟩ ↦ ⟨entries, hentries⟩)
    fun ⟨items, hitems, _⟩ ↦ ⟨items, hitems⟩

/-- Whoever applies the patch to the submitted object replaces its spec by that of the defaulted
job, and every part of the old spec that holds something meets its fate. It is found in the new spec
just as it was, unless it is an annotation for the queue in a group that asks for a slice, or a list
of expressions that such a group has and that may gain the requirement for a healthy node. What no
record has a place for is not found any more, nor is what stood at a position of an array that was
written for a record. To a job that is itself written as an array the patch cannot be applied. -/
theorem Review.patch_carries {review : Review} {request : ReviewRequest} {drawn : Uid} {job : Job}
    {response : ReviewResponse} {text : String} (hrequest : review.request = some request)
    (hjob : Job.ofJson drawn request.object = .ok job)
    (hresponse : (review.answer drawn).response = some response)
    (hpatch : response.patch = some text) :
    ∃ defaulted, job.default = .ok defaulted ∧
      text = encodePatch (specPatch defaulted.spec.toJson) ∧
      (∀ depth, request.object.Tidy false depth → 16 ≤ depth → depth < maxDepth →
        response.decodedPatch = some (specPatch defaulted.spec.toJson)) ∧
      ((∃ items, request.object = .array items) ∧
          request.object.replaceMember? "spec" defaulted.spec.toJson = none ∨
        ∃ patched, request.object.replaceMember? "spec" defaulted.spec.toJson = some patched ∧
          ∀ path part, request.object.at? (.member "spec" :: path) = some part →
            part.isVacant = false →
            (job.specFate.along path).Met part (patched.at? (.member "spec" :: path))) := by
  have hanswer : response = request.respond drawn := by
    rw [answer, hrequest] at hresponse
    exact (Option.some.inj hresponse).symm
  rw [hanswer] at hpatch ⊢
  obtain ⟨defaulted, hdefault, hchanged, htext⟩ :=
    ReviewRequest.exists_of_patch_respond hjob hpatch
  refine ⟨defaulted, hdefault, htext, fun depth htidy hroom hdepth ↦ ?_, ?_⟩
  · have hkept := Job.kept_of_ofJson (Tidy.isHereditary false) htidy hjob
    obtain ⟨spec, rfl, hkeptSpec⟩ := Job.exists_spec_of_default hkept hdefault
    have hspecTidy : spec.toJson.Tidy false (depth - 1) := JobSpec.tidy_toJson hkeptSpec (by omega)
    exact ReviewResponse.decodedPatch_of_tidy (tidy_specPatch hspecTidy) (by omega)
      (htext ▸ hpatch)
  · rcases Job.cases_of_ofJson hjob with ⟨entries, hobject⟩ | ⟨items, hitems⟩
    · rw [hobject] at hjob ⊢
      obtain ⟨member, hmember, hspec⟩ := Job.exists_spec_of_ofJson hjob
      obtain ⟨patched, hpatched, hparts⟩ := Json.at?_spec_replaced defaulted.spec.toJson hmember
      refine .inr ⟨patched, hpatched, fun path part hpart hvacant ↦ ?_⟩
      rw [(hparts path).1] at hpart
      rw [(hparts path).2]
      exact Job.carries_of_default hspec hdefault hchanged path part hpart hvacant
    · rw [hitems]
      exact .inl ⟨⟨items, rfl⟩, rfl⟩

/-! ## A container that claims a device -/

namespace Sample

/-- The resources of a container that claims a device besides its chips. -/
def claimingResources : Json :=
  .object [("limits", .object [(Label.chipResource, .string "4")]),
    ("claims", .array [.object [("name", .string "fabric")]])]

/-- The sample job as somebody submits it whose containers claim a device. -/
def claimingObject : Json :=
  .object [("apiVersion", .string "jobset.x-k8s.io/v1alpha2"), ("kind", .string "JobSet"),
    ("metadata", .object [("name", .string "train"), ("uid", submittedJob.metadata.uid.toJson),
      ("labels", .object [(Label.queueName, .string "queue")])]),
    ("spec", .object [("replicatedJobs", .array [.object [("name", .string "workers"),
      ("replicas", .ofUInt32 2), ("template", .object [("spec", .object [
        ("parallelism", .ofUInt32 32), ("template", .object [
          ("metadata", .object [("annotations", .object [(Label.topology, .string "4x4x8")])]),
          ("spec", .object [
            ("nodeSelector", .object [(Label.accelerator, .string "tpu-v7x")]),
            ("containers", .array [.object [("name", .string "trainer"),
              ("resources", claimingResources)]])])])])])]])])]

def claimingRequest : ReviewRequest := ⟨"r2", "CREATE", claimingObject⟩

def claimingReview : Review :=
  ⟨"admission.k8s.io/v1", "AdmissionReview", some claimingRequest, none⟩

/-- The resources of the container, seen from the spec. -/
def resourcesPath : Path :=
  [.member "replicatedJobs", .item 0, .member "template", .member "spec", .member "template",
    .member "spec", .member "containers", .item 0, .member "resources"]

theorem claimingObject_reads (drawn : Uid) :
    Job.ofJson drawn claimingRequest.object = .ok submittedJob :=
  Job.ofJson_of_uid_ne (by decide +kernel : Job.ofJson .generated _ = .ok submittedJob)
    (by decide) drawn

theorem respond_claimingRequest (drawn : Uid) :
    claimingRequest.respond drawn =
      ⟨"r2", true, none, some (encodePatch (specPatch admittedJob.spec.toJson)),
        some "JSONPatch"⟩ :=
  ReviewRequest.respond_of_changed (claimingObject_reads drawn) submittedJob_default admittedJob_ne

end Sample

/-- The limit on the chips comes through and the claim does not. -/
theorem Review.patch_carries_sample :
    ∃ patched, Sample.claimingObject.replaceMember? "spec" Sample.admittedJob.spec.toJson =
        some patched ∧
      (∃ limit, patched.at? (.member "spec" :: (Sample.resourcesPath ++
          [.member "limits", .member Label.chipResource])) = some limit ∧
        (string "4").Alike limit) ∧
      patched.at? (.member "spec" :: (Sample.resourcesPath ++ [.member "claims"])) = none := by
  have hanswered : (Sample.claimingReview.answer .generated).response =
      some (Sample.claimingRequest.respond .generated) := rfl
  obtain ⟨defaulted, hdefault, -, -, hfate⟩ :=
    Review.patch_carries rfl (Sample.claimingObject_reads .generated) hanswered
      (congrArg ReviewResponse.patch (Sample.respond_claimingRequest .generated))
  cases Sample.submittedJob_default.symm.trans hdefault
  obtain ⟨⟨items, hitems⟩, -⟩ | ⟨patched, hpatched, hparts⟩ := hfate
  · cases hitems
  have hlimit := hparts (Sample.resourcesPath ++ [.member "limits", .member Label.chipResource])
    (string "4") (by decide +kernel) rfl
  have hclaims := hparts (Sample.resourcesPath ++ [.member "claims"])
    (.array [.object [("name", .string "fabric")]]) (by decide +kernel) rfl
  have hkept : Sample.submittedJob.specFate.along (Sample.resourcesPath ++
      [.member "limits", .member Label.chipResource]) = .kept := rfl
  have hlost : Sample.submittedJob.specFate.along (Sample.resourcesPath ++ [.member "claims"]) =
      .lost := rfl
  rw [hkept] at hlimit
  rw [hlost] at hclaims
  exact ⟨patched, hpatched, hlimit, hclaims⟩

/-- The submitted containers claim a device. Where the patch is applied, they do not any more. -/
theorem Review.patch_drops_claims :
    (∀ drawn, Job.ofJson drawn Sample.claimingObject = .ok Sample.submittedJob) ∧
      ∃ response patched,
        (Sample.claimingReview.answer .generated).response = some response ∧
        response.patch = some (encodePatch (specPatch Sample.admittedJob.spec.toJson)) ∧
        Sample.claimingObject.replaceMember? "spec" Sample.admittedJob.spec.toJson =
          some patched ∧
        Sample.claimingObject.at? (.member "spec" :: (Sample.resourcesPath ++
            [.member "claims"])) = some (.array [.object [("name", .string "fabric")]]) ∧
        patched.at? (.member "spec" :: (Sample.resourcesPath ++ [.member "claims"])) = none := by
  refine ⟨Sample.claimingObject_reads, _, _, rfl, ?_, rfl, ?_, ?_⟩
  · exact congrArg ReviewResponse.patch (Sample.respond_claimingRequest .generated)
  · decide +kernel
  · decide +kernel

end SliceControl
