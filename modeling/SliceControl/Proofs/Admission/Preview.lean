import SliceControl.Admission.Verdict
import SliceControl.Manifest
import SliceControl.Proofs.Admission.Patch

/-!
# The verdict as a preview of the answer

The verdict on the job of a manifest foretells how a review of the same job will be answered. Both
default the job, so they agree on whether it is admitted and on the reason if it is not.

They do not find the groups in the same way. Defaulting goes by what a group asks for and by whether
the job is queued, and the verdict lists the groups whose annotations are complete in the result.
Every defaulted group is listed, but a group that was left alone is listed as well if somebody else
has annotated it.
-/

namespace SliceControl

/-! ## Placements of groups -/

namespace GroupPlacement

/-- The placement is the one that the annotations of a group ask for. -/
structure Describes (placement : GroupPlacement) (group : ReplicaGroup) : Prop where
  name : placement.name = group.name
  topology : group.podTemplate.annotation? Label.topology = some placement.topology
  sliceSize : group.podTemplate.annotation? Label.sliceSize = some placement.sliceSize
  label : group.podTemplate.annotation? Label.sliceRequiredTopology = some placement.label

theorem describes_iff {placement : GroupPlacement} {group : ReplicaGroup} :
    placement.Describes group ↔ group.placement? = some placement := by
  unfold ReplicaGroup.placement? PodTemplate.topologyText?
  simp only [Option.bind_eq_bind, Option.bind_eq_some_iff]
  constructor
  · intro h
    refine ⟨_, h.topology, _, h.sliceSize, _, h.label, ?_⟩
    rw [← h.name]
    rfl
  · rintro ⟨topology, htopology, sliceSize, hsize, label, hlabel, hplacement⟩
    cases hplacement
    exact ⟨rfl, htopology, hsize, hlabel⟩

end GroupPlacement

theorem PodTemplate.sliceRequiredTopology_defaulted (template : PodTemplate) (topology : Topology)
    (podsPerCube : Nat) :
    (template.defaulted topology podsPerCube).annotation? Label.sliceRequiredTopology =
      some topology.sliceLevelLabel := by
  have hsize : Label.sliceSize ≠ Label.sliceRequiredTopology := by decide
  unfold defaulted
  rw [annotation?, metadata_requireHealthyNodes]
  show (template.annotateForQueue topology podsPerCube).annotation? _ = _
  simp [annotateForQueue, hsize]

/-- A group that asks for a slice is annotated with its whole placement. -/
theorem ReplicaGroup.placement?_isSome_of_default {group defaulted : ReplicaGroup}
    (hrequest : group.podTemplate.requestedSlice?.isSome = true)
    (hdefault : group.default = .ok defaulted) : defaulted.placement?.isSome = true := by
  rcases ReplicaGroup.default_eq_ok_iff.mp hdefault with
    ⟨hnone, -⟩ | ⟨topology, accelerator, podsPerCube, hslice, -, rfl⟩
  · cases hnone ▸ hrequest
  · have hkept := PodTemplate.requestedSlice?_defaulted group.podTemplate topology podsPerCube
    obtain ⟨text, htext, -⟩ :=
      (PodTemplate.asksFor_iff.mpr ⟨accelerator, hkept.trans hslice⟩).shape
    have hdescribes : GroupPlacement.Describes
        ⟨group.name, text, String.ofList (Text.Numeral.digits podsPerCube),
          topology.sliceLevelLabel⟩
        (group.setPodTemplate (group.podTemplate.defaulted topology podsPerCube)) :=
      ⟨rfl, htext, PodTemplate.sliceSize_defaulted ..,
        PodTemplate.sliceRequiredTopology_defaulted ..⟩
    exact Option.isSome_iff_exists.mpr ⟨_, GroupPlacement.describes_iff.mp hdescribes⟩

/-! ## Defaulted groups -/

/-- What becomes of a group: with a placement if it is defaulted, and as it was otherwise. -/
structure ReplicaGroup.Follows (group original : ReplicaGroup) (defaulted : Bool) : Prop where
  placed : defaulted = true → group.placement?.isSome = true
  kept : defaulted = false → group = original

namespace Job

/-- Whether admission defaults a group of the job: the job is queued, and the group asks for a slice
that can be provided. -/
def defaults (job : Job) (group : ReplicaGroup) : Bool :=
  job.isQueued && group.podTemplate.requestedSlice?.isSome

/-- The groups of a job that admission defaults, in order, as they stand in its output. -/
def defaultedGroups (job output : Job) : List ReplicaGroup :=
  ((job.spec.groups.zip output.spec.groups).filter fun pair ↦ job.defaults pair.1).map Prod.snd

variable {job output : Job}

theorem forall₂_of_default (h : job.default = .ok output) :
    List.Forall₂ (fun original group ↦ group.Follows original (job.defaults original))
      job.spec.groups output.spec.groups := by
  rcases default_eq_ok_iff.mp h with ⟨hunqueued, rfl⟩ | ⟨hqueued, groups, hgroups, rfl⟩
  · refine List.forall₂_same.mpr fun group _ ↦ ⟨fun hdefaults ↦ ?_, fun _ ↦ rfl⟩
    cases hunqueued.symm.trans (Bool.and_eq_true_iff.mp hdefaults).1
  · refine (forall₂_of_mapM_eq_ok hgroups).imp fun original group hdefault ↦ ?_
    simp only [defaults, hqueued, Bool.true_and]
    refine ⟨fun hrequest ↦ ReplicaGroup.placement?_isSome_of_default hrequest hdefault, ?_⟩
    intro hnone
    rcases ReplicaGroup.default_eq_ok_iff.mp hdefault with ⟨-, hsame⟩ | ⟨_, _, _, hslice, -, -⟩
    · exact hsame
    · rw [hslice] at hnone
      cases hnone

theorem default_eq_with_spec (h : job.default = .ok output) :
    ∃ spec : JobSpec, output = { job with spec } := by
  rcases default_eq_ok_iff.mp h with ⟨-, rfl⟩ | ⟨-, groups, -, rfl⟩
  · exact ⟨output.spec, rfl⟩
  · exact ⟨_, rfl⟩

end Job

section Listing

variable {defaults : ReplicaGroup → Bool} {originals groups : List ReplicaGroup}

/-- No defaulted group is left out of the list of placements. -/
theorem length_defaulted_le
    (h : List.Forall₂ (fun original group ↦ group.Follows original (defaults original))
      originals groups) :
    ((originals.zip groups).filter fun pair ↦ defaults pair.1).length ≤
      (groups.filterMap ReplicaGroup.placement?).length := by
  induction h with
  | nil => exact Nat.le_refl _
  | @cons original group _ _ hgroup _ ih =>
    rw [List.zip_cons_cons, List.filter_cons, List.filterMap_cons]
    by_cases hdefaults : defaults original = true
    · obtain ⟨placement, hplacement⟩ := Option.isSome_iff_exists.mp (hgroup.placed hdefaults)
      simp only [hdefaults, if_true, hplacement, List.length_cons]
      omega
    · simp only [hdefaults, if_false, Bool.false_eq_true]
      cases group.placement? with
      | none => exact ih
      | some placement =>
        simp only [List.length_cons]
        omega

/-- The placements that are listed are those of the defaulted groups, unless another group has a
placement of its own: it would make the list too long. -/
theorem forall₂_describes_iff
    (h : List.Forall₂ (fun original group ↦ group.Follows original (defaults original))
      originals groups) :
    List.Forall₂ GroupPlacement.Describes (groups.filterMap ReplicaGroup.placement?)
        (((originals.zip groups).filter fun pair ↦ defaults pair.1).map Prod.snd) ↔
      ∀ original ∈ originals, defaults original = false → original.placement? = none := by
  induction h with
  | nil => simp
  | @cons original group _ _ hgroup hrest ih =>
    rw [List.zip_cons_cons, List.filter_cons, List.filterMap_cons, List.forall_mem_cons, ← ih]
    cases hdefaults : defaults original with
    | true =>
      obtain ⟨placement, hplacement⟩ := Option.isSome_iff_exists.mp (hgroup.placed hdefaults)
      have hdescribes : placement.Describes group := GroupPlacement.describes_iff.mpr hplacement
      simp [hplacement, hdescribes]
    | false =>
      obtain rfl := hgroup.kept hdefaults
      cases hplacement : group.placement? with
      | none => simp
      | some placement =>
        refine iff_of_false ?_ (by simp)
        intro hlisted
        have hsame := hlisted.length_eq
        have hbound := length_defaulted_le hrest
        simp only [Bool.false_eq_true, if_false, List.length_cons, List.length_map] at hsame
        omega

end Listing

/-! ## The verdict beside the answer -/

theorem Job.verdict_of_refused {job : Job} {error : AdmissionError}
    (h : job.default = .error error) :
    job.verdict.isAdmitted = false ∧ job.verdict.rejection? = some error.message := by
  simp [Verdict.isAdmitted, Verdict.rejection?, verdict, h, Except.map, Except.toOption]

theorem Job.verdict_of_admitted {job output : Job} (h : job.default = .ok output) :
    job.verdict.isAdmitted = true ∧ job.verdict.rejection? = none ∧
      job.verdict.placements = output.spec.groups.filterMap ReplicaGroup.placement? := by
  simp [Verdict.isAdmitted, Verdict.rejection?, Verdict.placements, verdict, h, Except.map,
    Except.toOption]

/-- The response admits a job and makes `output` of it: without a patch the job itself, and else the
job with the spec of the patch. -/
structure ReviewResponse.Yields (response : ReviewResponse) (job output : Job) : Prop where
  allowed : response.allowed = true
  unrefused : response.status = none
  output : (response.patch = none ∧ output = job) ∨
    ∃ spec : JobSpec, response.patch = some (encodePatch (specPatch spec.toJson)) ∧
      output = { job with spec }

theorem ReviewRequest.yields_respond {request : ReviewRequest} {drawn : Uid} {job output : Job}
    (hjob : Job.ofJson drawn request.object = .ok job) (hdefault : job.default = .ok output) :
    (request.respond drawn).Yields job output := by
  obtain ⟨spec, rfl⟩ := Job.default_eq_with_spec hdefault
  by_cases hsame : { job with spec } = job
  · rw [respond_of_unchanged hjob (hsame ▸ hdefault)]
    exact ⟨rfl, rfl, .inl ⟨rfl, hsame⟩⟩
  · rw [respond_of_changed hjob hdefault hsame]
    exact ⟨rfl, rfl, .inr ⟨spec, rfl, rfl⟩⟩

/-- A verdict does not depend on the identifier of the job. -/
theorem Job.verdict_eq_of_uid (job : Job) (other : Uid) :
    { job with metadata.uid := other }.verdict = job.verdict := by
  have hqueued : { job with metadata.uid := other }.isQueued = job.isQueued := rfl
  unfold verdict Job.default
  rw [hqueued]
  congr 1
  cases job.isQueued with
  | false => rfl
  | true => cases job.spec.groups.mapM ReplicaGroup.default <;> rfl

/-- The verdict on a job says of a review of the same job whether it is admitted, and the reason if
it is not, also where both draw an identifier of their own for it. What it lists are the defaulted
groups in order, each with its placement in the output of the review, exactly if every group that is
not defaulted lacks one of the annotations that make a placement. -/
theorem verdict_previews_answer {review : Review} {request : ReviewRequest} {drawn : Uid}
    {job : Job} (hrequest : review.request = some request)
    (hjob : Job.ofJson drawn request.object = .ok job) :
    (∀ other, { job with metadata.uid := other }.verdict = job.verdict) ∧
    ∃ response, (review.answer drawn).response = some response ∧
      job.verdict.isAdmitted = response.allowed ∧
      job.verdict.rejection? = response.status.map ReviewStatus.message ∧
      (response.allowed = true → ∃ output, response.Yields job output ∧
        (List.Forall₂ GroupPlacement.Describes job.verdict.placements
            (job.defaultedGroups output) ↔
          ∀ group ∈ job.spec.groups, job.defaults group = false →
            ∀ placement : GroupPlacement, ¬placement.Describes group)) := by
  refine ⟨job.verdict_eq_of_uid, request.respond drawn, by rw [Review.answer, hrequest], ?_⟩
  cases hdefault : job.default with
  | error error =>
    have hrefuses : (request.respond drawn).Refuses error :=
      ReviewRequest.refuses_respond hjob hdefault
    obtain ⟨hadmitted, hrejection⟩ := Job.verdict_of_refused hdefault
    rw [hrefuses.refused, hrefuses.reason]
    exact ⟨hadmitted, hrejection, fun h ↦ absurd h Bool.false_ne_true⟩
  | ok output =>
    have hyields : (request.respond drawn).Yields job output :=
      ReviewRequest.yields_respond hjob hdefault
    obtain ⟨hadmitted, hrejection, hplacements⟩ := Job.verdict_of_admitted hdefault
    rw [hyields.allowed, hyields.unrefused]
    refine ⟨hadmitted, hrejection, fun _ ↦ ⟨output, hyields, ?_⟩⟩
    rw [hplacements, Job.defaultedGroups, forall₂_describes_iff (Job.forall₂_of_default hdefault)]
    simp only [GroupPlacement.describes_iff, Option.eq_none_iff_forall_ne_some]

/-- The sample job is queued, so that its one group is defaulted and listed. -/
theorem verdict_previews_answer_sample :
    ∃ response output,
      ((Sample.reviewOf Sample.submittedJob.toJson).answer .generated).response =
        some response ∧
      Sample.submittedJob.verdict.isAdmitted = response.allowed ∧
      response.Yields Sample.submittedJob output ∧
      Sample.submittedJob.verdict.placements.length = 1 ∧
      List.Forall₂ GroupPlacement.Describes Sample.submittedJob.verdict.placements
        (Sample.submittedJob.defaultedGroups output) := by
  obtain ⟨hadmitted, -, hplacements⟩ := Job.verdict_of_admitted Sample.submittedJob_default
  have hdefaults : ∀ group ∈ Sample.submittedJob.spec.groups,
      Sample.submittedJob.defaults group = true := by decide +kernel
  obtain ⟨-, response, hresponse, hallowed, -, hlisted⟩ :=
    @verdict_previews_answer (Sample.reviewOf Sample.submittedJob.toJson) _ _ _ rfl
      (Sample.submittedJob_reads .generated)
  obtain ⟨output, hyields, hexact⟩ := hlisted (hallowed.symm.trans hadmitted)
  refine ⟨response, output, hresponse, hallowed, hyields, ?_, hexact.mpr ?_⟩
  · rw [hplacements]
    decide +kernel
  · intro group hgroup hskipped
    exact absurd (hdefaults group hgroup) (by simp [hskipped])

namespace Sample

/-- The admitted sample job, taken out of the queue. -/
def unqueuedJob : Job := { admittedJob with metadata.labels := .empty }

theorem unqueuedJob_reads (drawn : Uid) : Job.ofJson drawn unqueuedJob.toJson = .ok unqueuedJob :=
  Job.ofJson_of_uid_ne (by decide +kernel : Job.ofJson .generated _ = .ok unqueuedJob)
    (by decide) drawn

end Sample

/-- A job that is not queued is admitted as it is. Its group was annotated before, so the verdict
lists the group although nothing was defaulted. -/
theorem verdict_lists_undefaulted :
    (∀ drawn, ManifestKind.job.read? drawn .json Sample.unqueuedJob.toJson.compact =
        some Sample.unqueuedJob) ∧
      (∀ drawn, Job.ofJson drawn Sample.unqueuedJob.toJson = .ok Sample.unqueuedJob) ∧
      ∃ response, ((Sample.reviewOf Sample.unqueuedJob.toJson).answer .generated).response =
          some response ∧
        response.allowed = true ∧ response.patch = none ∧
        Sample.unqueuedJob.verdict.placements =
          [⟨"workers", "4x4x8", "16", Label.subBlock⟩] ∧
        ∀ output, Sample.unqueuedJob.defaultedGroups output = [] ∧
          ¬List.Forall₂ GroupPlacement.Describes Sample.unqueuedJob.verdict.placements
            (Sample.unqueuedJob.defaultedGroups output) := by
  have htidy : Sample.unqueuedJob.toJson.Tidy false Json.maxDepth := by decide +kernel
  have hread (drawn : Uid) : ManifestKind.job.read? drawn .json
      Sample.unqueuedJob.toJson.compact = some Sample.unqueuedJob := by
    simp only [ManifestKind.read?, htidy.parse?_compact (Nat.le_refl _), Option.bind_eq_bind,
      Option.bind_some]
    show (Job.ofJson drawn Sample.unqueuedJob.toJson).toOption = _
    rw [Sample.unqueuedJob_reads]
    rfl
  have hadmits : ReviewResponse.Admits (ReviewRequest.respond .generated ⟨"r1", "CREATE", _⟩) :=
    ReviewRequest.admits_respond (Sample.unqueuedJob_reads .generated) rfl
  have hplacements : Sample.unqueuedJob.verdict.placements =
      [⟨"workers", "4x4x8", "16", Label.subBlock⟩] := by decide +kernel
  have hnone (output : Job) : Sample.unqueuedJob.defaultedGroups output = [] := by
    have hunqueued : Sample.unqueuedJob.isQueued = false := by decide
    simp [Job.defaultedGroups, Job.defaults, hunqueued]
  refine ⟨hread, Sample.unqueuedJob_reads, _, rfl, hadmits.allowed, hadmits.unpatched.1,
    hplacements, fun output ↦ ⟨hnone output, ?_⟩⟩
  rw [hplacements, hnone]
  exact fun hlisted ↦ nomatch hlisted

end SliceControl
