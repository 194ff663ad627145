import SliceControl.Admission.Review
import SliceControl.Proofs.Admission.Agreement
import SliceControl.Proofs.Job.Codec
import SliceControl.Proofs.Json.Reading
import SliceControl.Proofs.Text.Base64

/-!
# The patch that admits a job

The answer to a review says what defaulting makes of its job. A job that is changed comes with a
patch, and whoever decodes the patch, replaces the spec of the submitted object by its value and
reads the result gets the defaulted job.

Reading a job keeps aside what it does not know, defaulting leaves this alone, and writing puts it
back. So the argument follows what is kept aside from the text of a review, which bounds its depth,
to the text of the patch, which has to be read again.
-/

namespace SliceControl

open Json Text

variable {good : Nat → Json → Prop} {depth : Nat}

/-! ## Defaulting keeps what was kept aside -/

theorem of_getD {α : Type} {motive : α → Prop} {found : Option α} {default : α}
    (hdefault : motive default) (h : ∀ value, found = some value → motive value) :
    motive (found.getD default) := by
  cases found with
  | none => exact hdefault
  | some value => exact h value rfl

namespace PodTemplate

variable {template : PodTemplate}

theorem Kept.annotateForQueue (h : template.Kept good depth) (topology : Topology)
    (podsPerCube : Nat) : (template.annotateForQueue topology podsPerCube).Kept good depth :=
  ⟨h.metadata, h.spec⟩

theorem kept_addToTerms (requirement : Requirement) {terms : List SelectorTerm}
    (h : ∀ term ∈ terms, term.Kept good depth) :
    ∀ term ∈ addToTerms requirement terms, term.Kept good depth := by
  unfold addToTerms
  rw [List.forall_mem_map]
  intro term hterm
  split_ifs at hterm
  · rw [List.mem_singleton.mp hterm]
    exact keeps_empty good depth _
  · exact h term hterm

theorem Kept.requireLabel (h : template.Kept good depth) (requirement : Requirement) :
    (template.requireLabel requirement).Kept good depth := by
  let affinity := template.spec.affinity.getD .empty
  let nodes := affinity.nodeAffinity.getD .empty
  let required := nodes.required.getD .empty
  have haffinity : affinity.Kept good (depth - 1 - 1) :=
    of_getD (Affinity.kept_empty good _) h.spec.affinity
  have hnodes : nodes.Kept good (depth - 1 - 1 - 1) :=
    of_getD (NodeAffinity.kept_empty good _) haffinity.nodeAffinity
  have hrequired : required.Kept good (depth - 1 - 1 - 1 - 1) :=
    of_getD (NodeSelector.kept_empty good _) hnodes.required
  have hterms := kept_addToTerms requirement hrequired
  refine ⟨h.metadata, h.spec.extra, ?_, h.spec.containers⟩
  rintro _ ⟨⟩
  refine ⟨haffinity.extra, ?_⟩
  rintro _ ⟨⟩
  refine ⟨hnodes.extra, ?_⟩
  rintro _ ⟨⟩
  exact hterms

theorem Kept.requireHealthyNodes (h : template.Kept good depth) :
    template.requireHealthyNodes.Kept good depth := by
  unfold PodTemplate.requireHealthyNodes
  split_ifs
  · exact h
  · exact h.requireLabel healthyNode

end PodTemplate

theorem ReplicaGroup.Kept.default {group defaulted : ReplicaGroup} (h : group.Kept good depth)
    (hdefault : group.default = .ok defaulted) : defaulted.Kept good depth := by
  rcases ReplicaGroup.default_eq_ok_iff.mp hdefault with
    ⟨-, rfl⟩ | ⟨topology, _, podsPerCube, -, -, rfl⟩
  · exact h
  · have htemplate := (h.template.spec.template.annotateForQueue topology
      podsPerCube).requireHealthyNodes
    exact ⟨h.extra, h.template.extra, h.template.spec.extra, htemplate⟩

/-- Defaulting changes the spec only, and it leaves alone what the spec keeps aside. -/
theorem Job.exists_spec_of_default {job defaulted : Job} (h : job.spec.Kept good depth)
    (hdefault : job.default = .ok defaulted) :
    ∃ spec : JobSpec, defaulted = { job with spec } ∧ spec.Kept good depth := by
  rcases Job.default_eq_ok_iff.mp hdefault with ⟨-, rfl⟩ | ⟨-, groups, hgroups, rfl⟩
  · exact ⟨defaulted.spec, rfl, h⟩
  · refine ⟨_, rfl, h.extra, fun group hgroup ↦ ?_⟩
    obtain ⟨original, horiginal, hsame⟩ := exists_of_mem_mapM hgroups hgroup
    exact (h.groups original horiginal).default hsame

/-! ## The patch as a text -/

theorem tidy_specPatch {reals : Bool} {spec : Json} (h : spec.Tidy reals depth) :
    (specPatch spec).Tidy reals (depth + 2) := by
  have hoperation : (ofMembers [("op", .string "replace"), ("path", .string "/spec"),
      ("value", spec)]).Tidy reals (depth + 1) :=
    .ofMembers (by omega) (by simp [h])
  exact .array (by omega) (by simpa using hoperation)

namespace ReviewResponse

/-- What is decoded from a patch is what its text reads as. -/
theorem decodedPatch_eq {response : ReviewResponse} {patch : Json}
    (hpatch : response.patch = some (encodePatch patch)) :
    response.decodedPatch = Json.parse? patch.compact := by
  have hbytes : Base64.decode? (encodePatch patch).toList = some patch.compact.toUTF8.toList := by
    rw [encodePatch, String.toList_ofList, Base64.decode?_encode]
  unfold decodedPatch
  simp only [hpatch, hbytes, fromUTF8?_toUTF8, Option.bind_eq_bind, Option.bind_some]

/-- A patch without reals survives its way through text and base64. -/
theorem decodedPatch_of_tidy {response : ReviewResponse} {patch : Json}
    (h : patch.Tidy false depth) (hdepth : depth ≤ maxDepth)
    (hpatch : response.patch = some (encodePatch patch)) : response.decodedPatch = some patch := by
  rw [decodedPatch_eq hpatch, h.parse?_compact hdepth]

/-! ## Answers -/

variable (response : ReviewResponse)

/-- The response refuses a job and gives the reason. -/
structure Refuses (error : AdmissionError) : Prop where
  refused : response.allowed = false
  reason : response.status = some ⟨error.code, error.message⟩
  unpatched : response.patch = none ∧ response.patchType = none

/-- The response admits a job as it is. -/
structure Admits : Prop where
  allowed : response.allowed = true
  unpatched : response.patch = none ∧ response.patchType = none

/-- The response admits an object together with a patch. -/
structure AdmitsWith (patch : Json) : Prop where
  allowed : response.allowed = true
  patchType : response.patchType = some "JSONPatch"
  patch : response.patch = some (encodePatch patch)

/-- The patch of the response is read as one that replaces the spec of an object, and the object
that comes out reads as `job`. -/
def PatchesTo (object : Json) (job : Job) : Prop :=
  ∃ spec patched, response.decodedPatch = some (specPatch spec) ∧
    object.replaceMember? "spec" spec = some patched ∧ ∀ drawn, Job.ofJson drawn patched = .ok job

end ReviewResponse

namespace ReviewRequest

variable {request : ReviewRequest} {drawn : Uid} {job : Job}

theorem uid_respond (drawn : Uid) (request : ReviewRequest) :
    (request.respond drawn).uid = request.uid := by
  unfold respond
  split
  · rfl
  · split
    · rfl
    · split_ifs <;> rfl

theorem refuses_respond (hjob : Job.ofJson drawn request.object = .ok job) {error : AdmissionError}
    (hdefault : job.default = .error error) : (request.respond drawn).Refuses error := by
  have hrespond : request.respond drawn = .deny request.uid error := by
    rw [respond, hjob]
    dsimp only
    rw [hdefault]
  rw [hrespond]
  exact ⟨rfl, rfl, rfl, rfl⟩

theorem respond_of_unchanged (hjob : Job.ofJson drawn request.object = .ok job)
    (hdefault : job.default = .ok job) : request.respond drawn = .allow request.uid := by
  rw [respond, hjob]
  dsimp only
  rw [hdefault]
  exact if_pos rfl

theorem respond_of_changed (hjob : Job.ofJson drawn request.object = .ok job) {defaulted : Job}
    (hdefault : job.default = .ok defaulted) (hchanged : defaulted ≠ job) :
    request.respond drawn = ⟨request.uid, true, none,
      some (encodePatch (specPatch defaulted.spec.toJson)), some "JSONPatch"⟩ := by
  rw [respond, hjob]
  dsimp only
  rw [hdefault]
  exact if_neg hchanged

theorem admits_respond (hjob : Job.ofJson drawn request.object = .ok job)
    (hdefault : job.default = .ok job) : (request.respond drawn).Admits := by
  rw [respond_of_unchanged hjob hdefault]
  exact ⟨rfl, rfl, rfl⟩

theorem admitsWith_respond (hjob : Job.ofJson drawn request.object = .ok job) {defaulted : Job}
    (hdefault : job.default = .ok defaulted) (hchanged : defaulted ≠ job) :
    (request.respond drawn).AdmitsWith (specPatch defaulted.spec.toJson) := by
  rw [respond_of_changed hjob hdefault hchanged]
  exact ⟨rfl, rfl, rfl⟩

end ReviewRequest

/-- A patch can be read if the object leaves room for one container more. -/
theorem ReviewResponse.AdmitsWith.patchesTo {response : ReviewResponse} {job defaulted : Job}
    {entries : List (String × Json)}
    (h : response.AdmitsWith (specPatch defaulted.spec.toJson))
    (hjob : ∀ drawn, Job.ofJson drawn (object entries) = .ok job)
    (hdefault : job.default = .ok defaulted) (htidy : (object entries).Tidy false depth)
    (hroom : 16 ≤ depth) (hdepth : depth < maxDepth) :
    response.PatchesTo (object entries) defaulted := by
  have hkept : job.spec.Kept (Tidy false) (depth - 1) :=
    Job.kept_of_ofJson (Tidy.isHereditary false) htidy (hjob .generated)
  obtain ⟨spec, rfl, hspec⟩ := Job.exists_spec_of_default hkept hdefault
  have hspecTidy : spec.toJson.Tidy false (depth - 1) := JobSpec.tidy_toJson hspec (by omega)
  have hdecoded : response.decodedPatch = some (specPatch spec.toJson) :=
    decodedPatch_of_tidy (tidy_specPatch hspecTidy) (by omega) h.patch
  obtain ⟨member, hmember, -⟩ := Job.exists_spec_of_ofJson (hjob .generated)
  exact ⟨spec.toJson, _, hdecoded, replaceMember?_of_get? hmember spec.toJson, fun drawn ↦
    Job.ofJson_insert_spec (hjob drawn) (JobSpec.ofJson_toJson hspec)⟩

namespace Review

variable {text : String} {value : Json} {review : Review} {request : ReviewRequest} {job : Job}

/-- The object of a review that was read from a text is an ordered value and leaves room for the
patch. -/
theorem tidy_object (htext : Json.parse? text = some value)
    (hreview : Review.ofJson value = .ok review) (hrequest : review.request = some request)
    (hwhole : request.object.hasReal = false) : request.object.Tidy false (maxDepth - 1) := by
  simp only [Review.ofJson, bind_eq_ok_iff] at hreview
  obtain ⟨members, hmembers, _, -, _, -, found, hfound, _, -, hresult⟩ := hreview
  cases hresult
  have hgoods := good_of_decodeRecord (Tidy.isHereditary true) (tidy_of_parse? htext) hmembers
  have hobject : request.object.Tidy true (maxDepth - 1 - 1) := by
    refine of_decodeNullable (motive := fun request ↦ request.object.Tidy true (maxDepth - 1 - 1))
      hgoods hfound ?_ hrequest
    intro member request hmember hdecoded
    simp only [ReviewRequest.ofJson, bind_eq_ok_iff] at hdecoded
    obtain ⟨inner, hinner, object, hobject, _, -, _, -, _, -, hresult⟩ := hdecoded
    cases hresult
    refine decodeMember_getD hobject .null fun item found hitem hsame ↦ ?_
    cases hsame
    exact good_of_decodeRecord (Tidy.isHereditary true) hmember hinner _ _ hitem
  exact (hobject.of_hasReal hwhole).succ

/-- The answer to a review is the defaulting of its job, where the identifier of the job is its own
and none that is drawn. A job that is changed comes with a patch. Whoever applies the patch gets the
defaulted job, as long as the submitted job is an object, since an array has no member to replace,
and is not nested so deeply that the patch is beyond what is read. -/
theorem answer_is_defaulting (hrequest : review.request = some request)
    (hjob : ∀ drawn, Job.ofJson drawn request.object = .ok job) (drawn : Uid) :
    ∃ response, review.answer drawn = ⟨review.apiVersion, review.kind, none, some response⟩ ∧
      response.uid = request.uid ∧
      (∀ error, job.default = .error error → response.Refuses error) ∧
      (job.default = .ok job → response.Admits) ∧
      ∀ defaulted, job.default = .ok defaulted → defaulted ≠ job →
        response.AdmitsWith (specPatch defaulted.spec.toJson) ∧
        ∀ entries, request.object = .object entries →
          request.object.Tidy false (maxDepth - 1) →
            response.PatchesTo request.object defaulted := by
  refine ⟨request.respond drawn, ?_, request.uid_respond drawn, ?_, ?_, ?_⟩
  · rw [answer, hrequest]
  · exact fun error ↦ ReviewRequest.refuses_respond (hjob drawn)
  · exact ReviewRequest.admits_respond (hjob drawn)
  · intro defaulted hdefault hchanged
    have hadmits := ReviewRequest.admitsWith_respond (hjob drawn) hdefault hchanged
    refine ⟨hadmits, fun entries hentries htidy ↦ ?_⟩
    rw [hentries] at hjob htidy ⊢
    exact hadmits.patchesTo hjob hdefault htidy (by decide) (by decide)

end Review

namespace Sample

/-- The sample job as it is submitted, with an identifier. -/
def submittedJob : Job :=
  { trainingJob with metadata.uid := .given (List.replicate 32 10) rfl }

/-- A review of an object. -/
def reviewOf (object : Json) : Review :=
  ⟨"admission.k8s.io/v1", "AdmissionReview", some ⟨"r1", "CREATE", object⟩, none⟩

def admittedJob : Job := { submittedJob with spec.groups := [defaultedGroup] }

theorem submittedJob_reads (drawn : Uid) :
    Job.ofJson drawn submittedJob.toJson = .ok submittedJob :=
  Job.ofJson_of_uid_ne (by decide +kernel : Job.ofJson .generated _ = .ok submittedJob)
    (by decide) drawn

theorem submittedJob_default : submittedJob.default = .ok admittedJob := by
  decide +kernel

theorem admittedJob_ne : admittedJob ≠ submittedJob := by
  decide +kernel

end Sample

theorem answer_is_defaulting_sample :
    ∃ response, (Sample.reviewOf Sample.submittedJob.toJson).answer .generated =
        ⟨"admission.k8s.io/v1", "AdmissionReview", none, some response⟩ ∧
      response.AdmitsWith (specPatch Sample.admittedJob.spec.toJson) ∧
      response.PatchesTo Sample.submittedJob.toJson Sample.admittedJob := by
  let review := Sample.reviewOf Sample.submittedJob.toJson
  have htext : Json.parse? review.toJson.compact = some review.toJson := by
    have htidy : review.toJson.Tidy false maxDepth := by decide +kernel
    exact htidy.parse?_compact (Nat.le_refl maxDepth)
  have hreview : Review.ofJson review.toJson = .ok review := by decide +kernel
  obtain ⟨response, hanswer, -, -, -, hadmits⟩ :=
    @Review.answer_is_defaulting review _ _ rfl Sample.submittedJob_reads .generated
  obtain ⟨hwith, hpatches⟩ := hadmits _ Sample.submittedJob_default Sample.admittedJob_ne
  exact ⟨response, hanswer, hwith,
    hpatches _ rfl (Review.tidy_object htext hreview rfl (by decide +kernel))⟩

namespace Sample

/-- The submitted job as an array of its members. -/
def listedJob : Json :=
  .array [.string submittedJob.apiVersion, .string submittedJob.kind, submittedJob.metadata.toJson,
    submittedJob.spec.toJson]

/-- Arrays in one another, so many around the innermost one. -/
def nest : Nat → Json
  | 0 => .array []
  | around + 1 => .array [nest around]

theorem tidy_nest (around : Nat) : (nest around).Tidy false (around + 1) := by
  induction around with
  | zero => exact fun _ hitem ↦ absurd hitem List.not_mem_nil
  | succ around ih => exact List.forall_mem_singleton.mpr ih

/-- Too many open arrays are refused. -/
theorem foldlM_step_nest {around : Nat} {stack : List Frame} (h : maxDepth ≤ stack.length + around)
    (rest : List Token) : (tokensOnto (nest around) rest).foldlM Build.step (.expected stack) =
      none := by
  induction around generalizing stack rest with
  | zero =>
    have hfull : Build.step (.expected stack) .openArray = none := if_neg (Nat.not_lt.mpr h)
    show (Token.openArray :: _).foldlM Build.step (.expected stack) = none
    rw [List.foldlM_cons, hfull]
    rfl
  | succ around ih =>
    have hinner : (tokensOnto (nest around) (itemsOnto [] rest)).foldlM Build.step
        (.expected (.items [] :: stack)) = none := ih (by rw [List.length_cons]; omega) _
    show (Token.openArray :: _).foldlM Build.step (.expected stack) = none
    rw [List.foldlM_cons]
    by_cases hroom : stack.length < maxDepth
    · rw [show Build.step (.expected stack) .openArray = some (.firstItem stack) from if_pos hroom]
      exact (foldlM_step_firstItem _ _ _).trans hinner
    · rw [show Build.step (.expected stack) .openArray = none from if_neg hroom]
      rfl

/-- The submitted job with a note that is nested as deeply as a text may be. -/
def deepJob : Job :=
  { submittedJob with spec.extra := SortedMap.ofList [("note", nest 124)] }

def admittedDeepJob : Job := { deepJob with spec.groups := [defaultedGroup] }

theorem listedJob_reads (drawn : Uid) : Job.ofJson drawn listedJob = .ok submittedJob :=
  Job.ofJson_of_uid_ne (by decide +kernel : Job.ofJson .generated listedJob = .ok submittedJob)
    (by decide) drawn

theorem deepJob_kept : deepJob.spec.Kept (Tidy false) (maxDepth - 1) := by
  have htidy : submittedJob.toJson.Tidy false maxDepth := by decide +kernel
  have hkept := Job.kept_of_ofJson (Tidy.isHereditary false) htidy (submittedJob_reads .generated)
  refine ⟨⟨by simp [deepJob], fun key value hvalue ↦ ?_⟩, hkept.groups⟩
  obtain ⟨-, rfl⟩ : "note" = key ∧ value = nest 124 := by simpa [deepJob] using hvalue.symm
  exact tidy_nest 124

theorem deepJob_default : deepJob.default = .ok admittedDeepJob := by
  rcases Job.default_eq_ok_iff.mp submittedJob_default with
    ⟨-, hsame⟩ | ⟨hqueued, groups, hgroups, hsame⟩
  · exact absurd hsame admittedJob_ne
  · have hdefaulted : groups = [defaultedGroup] := congrArg (·.spec.groups) hsame.symm
    exact Job.default_eq_ok_iff.mpr (.inr ⟨hqueued, groups, hgroups, by rw [hdefaulted]; rfl⟩)

theorem deepJob_reads (drawn : Uid) : Job.ofJson drawn deepJob.toJson = .ok deepJob :=
  Job.ofJson_toJson ⟨by decide, by decide⟩ deepJob_kept drawn

theorem tidy_deepJob : deepJob.toJson.Tidy false maxDepth := by
  have hmetadata : deepJob.metadata.toJson.Tidy false (maxDepth - 1) := by decide +kernel
  have hspec : deepJob.spec.toJson.Tidy false (maxDepth - 1) :=
    JobSpec.tidy_toJson deepJob_kept (by decide)
  exact .ofMembers (by decide) (by simp [hmetadata, hspec])

/-- A note comes before the groups, and three containers are open around it in a patch. -/
theorem exists_foldlM_step_patch (note groups : Json) : ∃ (stack : List Frame) (rest : List Token),
    stack.length = 3 ∧
      (tokens (specPatch (.ofMembers [("note", note), ("replicatedJobs", groups)]))).foldlM
        Build.step (.expected []) = (tokensOnto note rest).foldlM Build.step (.expected stack) := by
  have hspecNames : ["note", "replicatedJobs"].Pairwise (· < ·) := by decide
  have hspec : Json.ofMembers [("note", note), ("replicatedJobs", groups)] =
      .object [("note", note), ("replicatedJobs", groups)] :=
    congrArg object (SortedMap.entries_ofList (List.pairwise_map.mp hspecNames))
  have hpatchNames : ["op", "path", "value"].Pairwise (· < ·) := by decide
  have hpatch (spec : Json) : specPatch spec = .array [.object [("op", .string "replace"),
      ("path", .string "/spec"), ("value", spec)]] :=
    congrArg (fun members ↦ array [object members])
      (SortedMap.entries_ofList (List.pairwise_map.mp hpatchNames))
  rw [hspec, hpatch]
  exact ⟨[.members [] "note",
      .members [("path", .string "/spec"), ("op", .string "replace")] "value", .items []],
    membersOnto [("replicatedJobs", groups)] (membersOnto [] (itemsOnto [] [])), rfl, rfl⟩

theorem admittedDeepJob_unread :
    Json.parse? (specPatch admittedDeepJob.spec.toJson).compact = none := by
  obtain ⟨spec, hsame, hkept⟩ := Job.exists_spec_of_default deepJob_kept deepJob_default
  have htidy : admittedDeepJob.spec.toJson.Tidy false (maxDepth - 1) :=
    hsame ▸ JobSpec.tidy_toJson hkept (by decide)
  have hspec : admittedDeepJob.spec.toJson = .ofMembers [("note", nest 124),
      ("replicatedJobs", .array (admittedDeepJob.spec.groups.map ReplicaGroup.toJson))] := rfl
  obtain ⟨stack, rest, hlength, hrun⟩ := exists_foldlM_step_patch (nest 124)
    (.array (admittedDeepJob.spec.groups.map ReplicaGroup.toJson))
  have hfull : maxDepth ≤ stack.length + 124 := by rw [hlength]; decide
  rw [(tidy_specPatch htidy).parse?_compact_eq, ofTokens?, hspec, hrun,
    foldlM_step_nest hfull]

end Sample

/-- A job that is submitted as an array gets a patch that replaces a member, of which an array has
none. A job that is nested to the limit gets a patch that is nested beyond it and does not read. -/
theorem Review.answer_misses_object :
    (∀ drawn, Job.ofJson drawn Sample.listedJob = .ok Sample.submittedJob) ∧
      Sample.listedJob.Tidy false maxDepth ∧
      (∃ response, ((Sample.reviewOf Sample.listedJob).answer .generated).response = some response ∧
        response.AdmitsWith (specPatch Sample.admittedJob.spec.toJson) ∧
        ¬response.PatchesTo Sample.listedJob Sample.admittedJob) ∧
      (∀ drawn, Job.ofJson drawn Sample.deepJob.toJson = .ok Sample.deepJob) ∧
      Sample.deepJob.toJson.Tidy false maxDepth ∧
      ∃ response, ((Sample.reviewOf Sample.deepJob.toJson).answer .generated).response =
          some response ∧
        response.AdmitsWith (specPatch Sample.admittedDeepJob.spec.toJson) ∧
        ¬response.PatchesTo Sample.deepJob.toJson Sample.admittedDeepJob := by
  have hne : Sample.admittedDeepJob ≠ Sample.deepJob := by
    intro hsame
    have hgroups : Sample.admittedJob.spec.groups = Sample.submittedJob.spec.groups :=
      congrArg (·.spec.groups) hsame
    exact absurd hgroups (by decide +kernel)
  have hlisted := @ReviewRequest.admitsWith_respond ⟨"r1", "CREATE", Sample.listedJob⟩ .generated _
    (Sample.listedJob_reads _) _ Sample.submittedJob_default Sample.admittedJob_ne
  have hdeep := @ReviewRequest.admitsWith_respond ⟨"r1", "CREATE", Sample.deepJob.toJson⟩
    .generated _ (Sample.deepJob_reads _) _ Sample.deepJob_default hne
  refine ⟨Sample.listedJob_reads, by decide +kernel, ⟨_, rfl, hlisted, ?_⟩, Sample.deepJob_reads,
    Sample.tidy_deepJob, ⟨_, rfl, hdeep, ?_⟩⟩
  · rintro ⟨spec, patched, -, hpatched, -⟩
    cases hpatched
  · rintro ⟨spec, patched, hdecoded, -, -⟩
    have hunread := (ReviewResponse.decodedPatch_eq hdeep.patch).trans Sample.admittedDeepJob_unread
    cases hunread.symm.trans hdecoded

end SliceControl
