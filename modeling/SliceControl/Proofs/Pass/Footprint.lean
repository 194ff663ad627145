import SliceControl.Proofs.Pass.Run
import SliceControl.Proofs.Store.Reachable

/-!
# What a pass leaves alone

A pass writes under bare names, and yet it changes nothing but its own workload: the slices that
name the workload as their owner, and what the check says that the pass answers for. This holds
whatever calls fail, since every request of a pass carries out one of its writes or only reads.

A name that another owner holds is not taken over. The creation of a slice under such a name counts
as a failed write.
-/

namespace SliceControl

/-! ## What a check says -/

/-- The check without state, message and transition time. -/
def AdmissionCheck.blank (check : AdmissionCheck) : AdmissionCheck :=
  ⟨check.name, .pending, "", none⟩

namespace Workload

/-- Blanks the first check of a name. -/
def blankFirst (name : String) : List AdmissionCheck → List AdmissionCheck
  | [] => []
  | check :: rest =>
    if check.name = name then check.blank :: rest else check :: blankFirst name rest

/-- The workload without what its check of a name says. -/
def withoutVerdict (workload : Workload) (checkName : String) : Workload :=
  { workload with status.checks := blankFirst checkName workload.status.checks }

theorem blankFirst_of_updateFirst {next : AdmissionCheck} {checks updated : List AdmissionCheck}
    (h : updateFirst next checks = some updated) :
    blankFirst next.name updated = blankFirst next.name checks := by
  induction checks generalizing updated with
  | nil => cases h
  | cons check rest ih =>
    unfold updateFirst at h
    split_ifs at h with hname
    · cases h
      have hupdated := AdmissionCheck.name_update hname
      simp [blankFirst, AdmissionCheck.blank, hupdated, hname]
    · obtain ⟨others, hothers, rfl⟩ := Option.map_eq_some_iff.mp h
      simp [blankFirst, hname, ih hothers]

theorem withoutVerdict_of_setCheck? {workload updated : Workload} {next : AdmissionCheck}
    (h : workload.setCheck? next = some updated) :
    updated.withoutVerdict next.name = workload.withoutVerdict next.name := by
  obtain ⟨checks, hchecks, rfl⟩ := Option.map_eq_some_iff.mp h
  simp [withoutVerdict, blankFirst_of_updateFirst hchecks]

/-- A check may be found or not, whatever the first check of some name says. -/
theorem map_name_blankFirst (name : String) (checks : List AdmissionCheck) :
    (blankFirst name checks).map AdmissionCheck.name = checks.map AdmissionCheck.name := by
  induction checks with
  | nil => rfl
  | cons check rest ih =>
    unfold blankFirst
    split_ifs
    · rfl
    · exact congrArg (check.name :: ·) ih

end Workload

/-! ## Stores that differ in one workload -/

/-- A write of a pass over `key`: what it creates or deletes belongs to the workload, and the check
that it sets is the one that the pass answers for. -/
structure Write.IsOwn (write : Write) (key checkName : String) (store : Store) : Prop where
  belongs : write.BelongsTo key store
  named : ∀ check, write = .setCheck check → check.name = checkName

namespace Store

/-- Two stores differ in nothing but what a pass over `key` may write: the slices of the workload,
and what its check says. -/
structure SameBesides (key checkName : String) (store other : Store) : Prop
    extends SameOutside key store other where
  workload : (other.workload? key).map (·.withoutVerdict checkName) =
    (store.workload? key).map (·.withoutVerdict checkName)

variable {store other last : Store} {key checkName : String}

namespace SameBesides

theorem refl (key checkName : String) (store : Store) : SameBesides key checkName store store :=
  ⟨.refl key store, rfl⟩

theorem trans (h : SameBesides key checkName store other)
    (hlast : SameBesides key checkName other last) : SameBesides key checkName store last :=
  ⟨h.toSameOutside.trans hlast.toSameOutside, hlast.workload.trans h.workload⟩

theorem isOwn (h : SameBesides key checkName store other) {write : Write}
    (hwrite : write.IsOwn key checkName store) : write.IsOwn key checkName other :=
  ⟨h.belongsTo hwrite.belongs, hwrite.named⟩

theorem carryOut {step : Write × Instant} (h : step.1.IsOwn key checkName store) :
    SameBesides key checkName store (store.carryOut key step) := by
  refine ⟨.carryOut h.belongs, ?_⟩
  obtain ⟨write, now⟩ := step
  cases write with
  | createSlice slice =>
    exact congrArg (Option.map (·.withoutVerdict checkName))
      (workload?_insertSlice store slice now key)
  | deleteSlice name =>
    exact congrArg (Option.map (·.withoutVerdict checkName))
      (workload?_removeSlice store name key)
  | setCheck check =>
    obtain rfl : check.name = checkName := h.named check rfl
    unfold Store.carryOut
    simp only [Write.request, serve, updateCheck, workload?]
    cases hworkload : store.workloads.get? key with
    | none => simp [refuse, hworkload]
    | some workload =>
      dsimp only
      cases hupdated : workload.setCheck? check with
      | none => simp [refuse, hworkload]
      | some updated => simp [Workload.withoutVerdict_of_setCheck? hupdated]

/-- A check that the workload carries is carried after the writes as well. -/
theorem carries (h : SameBesides key checkName store other)
    (hcarries : ∃ workload, store.workload? key = some workload ∧
      (workload.check? checkName).isSome = true) :
    ∃ workload, other.workload? key = some workload ∧
      (workload.check? checkName).isSome = true := by
  obtain ⟨workload, hworkload, hcheck⟩ := hcarries
  have hsame := h.workload
  rw [hworkload] at hsame
  obtain ⟨after, hafter, hblank⟩ := Option.map_eq_some_iff.mp hsame
  have hnames : after.status.checks.map AdmissionCheck.name =
      workload.status.checks.map AdmissionCheck.name := calc
    after.status.checks.map AdmissionCheck.name
      = (after.withoutVerdict checkName).status.checks.map AdmissionCheck.name :=
        (Workload.map_name_blankFirst checkName _).symm
    _ = (workload.withoutVerdict checkName).status.checks.map AdmissionCheck.name := by
        rw [hblank]
    _ = workload.status.checks.map AdmissionCheck.name :=
        Workload.map_name_blankFirst checkName _
  have hfound (workload : Workload) : (workload.check? checkName).isSome = true ↔
      checkName ∈ workload.status.checks.map AdmissionCheck.name := by
    simp [Workload.check?, List.find?_isSome]
  refine ⟨after, hafter, (hfound after).mpr ?_⟩
  rw [hnames]
  exact (hfound workload).mp hcheck

end SameBesides

/-- The writes of a pass are its own. -/
theorem Consistent.isOwn_of_mem_writes (h : store.Consistent) {nodes : List Node}
    {context : PassContext} {write : Write}
    (hwrite : write ∈ (reconcile (store.snapshot key nodes) context).writes) :
    write.IsOwn key context.checkName store := by
  refine ⟨h.belongsTo_of_mem_writes hwrite, ?_⟩
  rintro check rfl
  rcases (store.snapshot key nodes).situation context.checkName with
    hreleasing | ⟨workload, hworkload, hidle | ⟨current, hopen⟩⟩
  · rw [reconcile_of_isReleasing hreleasing] at hwrite
    obtain ⟨slice, -, -, hdelete⟩ := mem_releaseAll_writes.mp hwrite
    cases hdelete
  · rw [reconcile_of_isIdle hworkload hidle] at hwrite
    cases hwrite
  · rw [reconcile_of_isOpen hworkload hopen] at hwrite
    rcases List.mem_append.mp hwrite with hslice | hcheck
    · rcases Progress.mem_sliceWrites_iff.mp hslice with ⟨_, _, _, h⟩ | ⟨_, _, _, h⟩ | ⟨_, _, h⟩ <;>
        cases h
    · cases Progress.eq_of_mem_checkWrites hcheck
      rfl

end Store

/-! ## What a pass asks for -/

/-- A request of a pass over `key` once it has read: it looks at a slice, or it carries out one of
the writes. -/
def StoreRequest.CarriesOut (key : String) (writes : List Write) (request : StoreRequest) : Prop :=
  (∃ name, request = .getSlice name) ∨ ∃ write ∈ writes, request = write.request key

namespace PassSettings

variable (settings : PassSettings) {key checkName : String} {writes : List Write}

theorem asks_ask {allowed : StoreRequest → Prop} {request : StoreRequest} (h : allowed request) :
    (settings.ask request).Asks allowed := by
  have hattempts (spare attempt : Nat) :
      (attemptFrom settings.retry request spare attempt : StoreProcedure request.Reply).Asks
        allowed := by
    induction spare generalizing attempt with
    | zero => exact ⟨h, fun _ ↦ trivial⟩
    | succ spare ih =>
      refine ⟨h, fun reply ↦ ?_⟩
      cases reply with
      | ok answer => trivial
      | error error =>
        dsimp only
        split_ifs
        · exact ih (attempt + 1)
        · trivial
  exact hattempts _ _

theorem asks_confirmOwner (key name : String) :
    (settings.confirmOwner key name).Asks (StoreRequest.CarriesOut key writes) := by
  apply Procedure.asks_bind (settings.asks_ask (.inl ⟨name, rfl⟩))
  rintro (error | _ | slice)
  · trivial
  · trivial
  · dsimp only
    split
    · split_ifs <;> trivial
    · trivial

theorem asks_apply (key : String) {write : Write} (h : write ∈ writes) :
    (settings.apply key write).Asks (StoreRequest.CarriesOut key writes) := by
  cases write with
  | createSlice slice =>
    apply Procedure.asks_bind (settings.asks_ask (.inr ⟨_, h, rfl⟩))
    rintro (error | created)
    · dsimp only
      split_ifs
      · exact settings.asks_confirmOwner key slice.name
      · trivial
    · trivial
  | deleteSlice name =>
    apply Procedure.asks_bind (settings.asks_ask (.inr ⟨_, h, rfl⟩))
    rintro (error | deleted)
    · dsimp only
      split_ifs <;> trivial
    · trivial
  | setCheck check =>
    apply Procedure.asks_bind (settings.asks_ask (.inr ⟨_, h, rfl⟩))
    rintro (error | updated) <;> trivial

/-- Whatever calls fail, requests that carry out own writes leave everything else as it is. -/
theorem sameBesides_run {α : Type} {store : Store} {cluster : Cluster}
    (hwrites : ∀ write ∈ writes, write.IsOwn key checkName store)
    {procedure : StoreProcedure α} (hasks : procedure.Asks (StoreRequest.CarriesOut key writes))
    (h : Store.SameBesides key checkName store cluster.store) :
    Store.SameBesides key checkName store (procedure.run Cluster.world cluster).2.store := by
  apply Procedure.run_preserves_of_asks
    (fun cluster : Cluster ↦ Store.SameBesides key checkName store cluster.store) _ _ hasks h
  · intro request cluster hallowed hsame
    apply hsame.trans
    have htried : cluster.store.Tried request (Cluster.world.serve request cluster).2.store :=
      cluster.tried_serve request
    rcases htried with hstill | ⟨now, hserved⟩
    · rw [hstill]
      exact .refl key checkName cluster.store
    · rw [hserved]
      rcases hallowed with ⟨name, rfl⟩ | ⟨write, hwrite, rfl⟩
      · exact .refl key checkName cluster.store
      · have hown : write.IsOwn key checkName cluster.store := hsame.isOwn (hwrites write hwrite)
        show Store.SameBesides key checkName cluster.store
          (cluster.store.carryOut key (write, now))
        exact .carryOut hown
  · exact fun _ _ hsame ↦ hsame

end PassSettings

/-! ## Names that others hold -/

/-- Whether a write creates a slice under a name that another owner holds. -/
def Write.collides (key : String) (store : Store) : Write → Bool
  | .createSlice slice => (store.slice? slice.name).any fun held => held.ownerKey ≠ some key
  | _ => false

theorem Write.collides_createSlice_iff {key : String} {store : Store} {slice : Slice} :
    (Write.createSlice slice).collides key store = true ↔
      ∃ held, store.slice? slice.name = some held ∧ held.ownerKey ≠ some key := by
  simp [collides, Option.any_eq_true]

theorem Store.SameOutside.collides_eq {key : String} {store other : Store}
    (h : SameOutside key store other) (write : Write) :
    write.collides key other = write.collides key store := by
  cases write with
  | createSlice slice =>
    rw [Bool.eq_iff_iff, Write.collides_createSlice_iff, Write.collides_createSlice_iff]
    apply exists_congr
    intro held
    apply and_congr_left
    exact fun howner ↦ h.slices slice.name held howner
  | deleteSlice name => rfl
  | setCheck check => rfl

namespace PassSettings

variable (settings : PassSettings) {key checkName : String}

/-- A slice that does not name `key` as its owner is not taken for its slice. -/
theorem run_confirmOwner_of_foreign {cluster : Cluster} {name : String} {held : Slice}
    (hheld : cluster.store.slice? name = some held) (howner : held.ownerKey ≠ some key) :
    ∃ error, ((settings.confirmOwner key name).run Cluster.world cluster).1 = .error error := by
  have hfound := settings.run_ask_of_still cluster (.getSlice name) fun _ ↦ rfl
  unfold confirmOwner
  rw [Procedure.run_bind]
  generalize (settings.ask (.getSlice name)).run Cluster.world cluster = asked at hfound ⊢
  obtain ⟨error | found, last⟩ := asked
  · exact ⟨error, rfl⟩
  · obtain ⟨-, hfound | ⟨error, herror⟩⟩ := hfound
    · rw [show found = some held from (Except.ok.inj hfound).trans hheld]
      dsimp only
      cases howned : held.ownerKey with
      | none => exact ⟨_, rfl⟩
      | some owner =>
        rw [howned] at howner
        dsimp only
        rw [if_neg fun hsame ↦ howner (congrArg some hsame)]
        exact ⟨_, rfl⟩
    · cases herror

/-- A creation under a name that another owner holds fails, whatever calls fail. -/
theorem apply_of_collides {cluster : Cluster} {write : Write}
    (h : write.collides key cluster.store = true) :
    ∃ error, ((settings.apply key write).run Cluster.world cluster).1 = .error error := by
  cases write with
  | createSlice slice =>
    obtain ⟨held, hheld, howner⟩ := Write.collides_createSlice_iff.mp h
    have hasked := settings.run_ask_of_still cluster (.createSlice slice)
      fun now ↦ Store.insertSlice_of_some hheld now
    unfold apply
    rw [Procedure.run_bind]
    generalize (settings.ask (.createSlice slice)).run Cluster.world cluster = asked at hasked ⊢
    obtain ⟨error | created, after⟩ := asked
    · obtain ⟨hstore, -⟩ := hasked
      dsimp only at hstore ⊢
      split_ifs
      · exact settings.run_confirmOwner_of_foreign (hstore ▸ hheld) howner
      · exact ⟨error, rfl⟩
    · rcases hasked.2 with hcreated | ⟨error, herror⟩
      · cases hcreated
      · cases herror
  | deleteSlice name => cases h
  | setCheck check => cases h

/-- Writes leave everything else as it is, and those that collide are among those that fail. -/
theorem run_applyAll_own {store : Store} {writes : List Write}
    (hwrites : ∀ write ∈ writes, write.IsOwn key checkName store) {cluster : Cluster}
    (h : Store.SameBesides key checkName store cluster.store) :
    Store.SameBesides key checkName store
        ((settings.applyAll key writes).run Cluster.world cluster).2.store ∧
      writes.countP (·.collides key store) ≤
        ((settings.applyAll key writes).run Cluster.world cluster).1 := by
  induction writes generalizing cluster with
  | nil => exact ⟨h, Nat.le_refl 0⟩
  | cons write rest ih =>
    have hfirst := sameBesides_run hwrites (settings.asks_apply key List.mem_cons_self) h
    obtain ⟨hafter, hcount⟩ :=
      ih (fun other hother ↦ hwrites other (List.mem_cons_of_mem _ hother)) hfirst
    rw [run_applyAll_cons, List.countP_cons]
    refine ⟨hafter, Nat.add_le_add hcount ?_⟩
    split_ifs with hcollides hdone
    · obtain ⟨error, herror⟩ := settings.apply_of_collides
        ((h.collides_eq write).trans hcollides)
      rw [herror] at hdone
      cases hdone
    · exact Nat.le_refl 1
    · exact Nat.le_refl 0
    · exact Nat.zero_le 1

/-- A pass leaves everything else as it is, and it reports the writes that collide unless reading
fails. -/
theorem run_pass_own {cluster : Cluster} (h : cluster.store.Reachable) (key : String) :
    let ran := (settings.pass key).run Cluster.world cluster
    let outcome := reconcile (cluster.store.reading key)
      (settings.contextAt (settings.clockTime key cluster))
    Store.SameBesides key settings.checkName cluster.store ran.2.store ∧
      ((∃ error, ran.1 = .error (.read key error)) ∨
        ∃ failed, outcome.writes.countP (·.collides key cluster.store) ≤ failed ∧
          ran.1 = verdict key outcome failed) := by
  intro ran outcome
  rcases settings.run_pass_cases cluster key with
    ⟨error, middle, -, hstore, hpass⟩ | ⟨middle, failed, after, -, hstore, happlied, hpass⟩
  · have hran : ran = (.error (.read key error), middle) := hpass
    have hsame : Store.SameBesides key settings.checkName cluster.store middle.store := by
      rw [hstore]
      exact .refl key settings.checkName cluster.store
    rw [hran]
    exact ⟨hsame, .inl ⟨error, rfl⟩⟩
  · have hran : ran = (verdict key outcome failed, after) := hpass
    have hwrites : ∀ write ∈ outcome.writes, write.IsOwn key settings.checkName cluster.store :=
      fun write hwrite ↦ h.consistent.isOwn_of_mem_writes hwrite
    have hmiddle : Store.SameBesides key settings.checkName cluster.store middle.store :=
      hstore ▸ .refl key settings.checkName cluster.store
    have happly := settings.run_applyAll_own hwrites hmiddle
    rw [happlied] at happly
    obtain ⟨hafter, hcount⟩ := happly
    rw [hran]
    exact ⟨hafter, .inr ⟨failed, hcount, rfl⟩⟩

/-- A pass changes nothing but its own workload, whatever calls fail and whatever its settings are.
Nodes, other workloads and everything about its own workload besides state, message and time of the
check stay as they are, and so does every slice that does not name the workload as its owner. What
it adds names the workload. Unless reading fails, every creation under a name that another owner
holds is counted among the failed writes. -/
theorem pass_keeps_to_its_workload {cluster : Cluster} (h : cluster.store.Reachable)
    (key : String) :
    let store := cluster.store
    let ran := (settings.pass key).run Cluster.world cluster
    let after := ran.2.store
    let outcome := reconcile (store.reading key)
      (settings.contextAt (settings.clockTime key cluster))
    after.nodes = store.nodes ∧
      (∀ other, other ≠ key → after.workload? other = store.workload? other) ∧
      (after.workload? key).map (·.withoutVerdict settings.checkName) =
        (store.workload? key).map (·.withoutVerdict settings.checkName) ∧
      (∀ name slice, slice.ownerKey ≠ some key →
        (after.slice? name = some slice ↔ store.slice? name = some slice)) ∧
      (∀ name slice, after.slice? name = some slice → store.slice? name = none →
        slice.ownerKey = some key) ∧
      ((∃ error, ran.1 = .error (.read key error)) ∨
        ∃ failed, outcome.writes.countP (·.collides key store) ≤ failed ∧
          ran.1 = if failed = 0 then .ok outcome
            else .error (.writes key failed outcome.writes.length)) := by
  intro store ran after outcome
  obtain ⟨hsame, hreports⟩ := settings.run_pass_own h key
  refine ⟨hsame.nodes, hsame.workloads, hsame.workload, hsame.slices, ?_, hreports⟩
  intro name slice hadded hfree
  by_contra howner
  rw [(hsame.slices name slice howner).mp hadded] at hfree
  cases hfree

end PassSettings

/-! ## A name that another workload holds -/

namespace Sample

/-- Tries every call twice. -/
def twice : PassSettings := ⟨"tpu-slice", .ofSeconds 600, .ofSeconds 300, ⟨2, 100, 5000⟩⟩

/-- Like the sample workload, under another name. -/
def otherWorkload : Workload :=
  { workload with metadata := { workload.metadata with name := "other" } }

/-- A slice of the other workload, under the name that the sample workload wants. -/
def foreignSlice : Slice :=
  Slice.new (otherWorkload.sliceMetadata ⟨"team", "job", "workers", 0⟩) ⟨.tpuV7x, "2x2x1", .empty⟩

/-- The sample workload and its node are there. -/
def registered : Store :=
  Store.empty.mutateAll [(.upsertNode node, .ofNanos 0), (.upsertWorkload workload, .ofNanos 0)]

theorem registered_reachable : registered.Reachable := Store.Reachable.empty.mutateAll _

/-- The other workload has been first, and the next creation fails on the way. -/
def contested : Cluster :=
  { Cluster.start (.ofNanos 0) with
    store := (registered.serve (.ofNanos 0) (.createSlice foreignSlice)).store
    outages := SortedMap.empty.insert "create_slice" [some ⟨.transient "timeout", true⟩] }

end Sample

/-- The foreign slice stays, and the pass reports that it could not create its own. -/
theorem PassSettings.pass_keeps_to_its_workload_sample :
    let ran := (Sample.twice.pass "team/job").run Cluster.world Sample.contested
    Sample.contested.store.Reachable ∧
      ran.2.store.slice? "team-job-workers-0" = some (Sample.foreignSlice.stamped (.ofNanos 0)) ∧
      ∃ failed, 1 ≤ failed ∧ ran.1 = .error (.writes "team/job" failed 2) := by
  -- Without its name, the run is compared as a term and not by running it.
  dsimp only
  have hreachable : Sample.contested.store.Reachable := Sample.registered_reachable.serve _ _
  have hheld : Sample.contested.store.slice? "team-job-workers-0" =
      some (Sample.foreignSlice.stamped (.ofNanos 0)) := by
    decide +kernel
  have howner : (Sample.foreignSlice.stamped (.ofNanos 0)).ownerKey ≠ some "team/job" := by
    decide +kernel
  obtain ⟨-, -, -, hslices, -, hreports⟩ :=
    PassSettings.pass_keeps_to_its_workload Sample.twice hreachable "team/job"
  refine ⟨hreachable, (hslices _ _ howner).mpr hheld, ?_⟩
  rcases hreports with ⟨error, hread⟩ | ⟨failed, hcount, hwrites⟩
  · have hran : ((Sample.twice.pass "team/job").run Cluster.world Sample.contested).1 =
        .error (.writes "team/job" 1 2) := by
      decide +kernel
    cases hran.symm.trans hread
  · have hone : 1 ≤ failed := Nat.le_trans (by decide +kernel) hcount
    refine ⟨failed, hone, ?_⟩
    rw [if_neg (by omega)] at hwrites
    exact hwrites

end SliceControl
