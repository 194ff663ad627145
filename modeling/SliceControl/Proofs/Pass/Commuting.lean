import SliceControl.Proofs.Pass.Faults
import SliceControl.Proofs.Pass.Settled

/-!
# Passes over different workloads

A pass is aimed at the slices that its workload wants or owns. Passes over two workloads that do not
want or own each other's names therefore do not meet: what stands under a name after both depends
only on the writes of the one that is aimed at it, each of them sets the check of its own workload,
and the lists of the owners follow from the slices. So the passes may be made in either order.
-/

namespace SliceControl

attribute [ext] Store

/-! ## What writes leave -/

namespace Store

variable {store other : Store} {key rest : String}

/-- What stands under a name after a write depends only on what has stood under it before. -/
theorem slice?_carryOut_congr {name : String} (h : other.slice? name = store.slice? name)
    (key rest : String) (step : Write × Instant) :
    (other.carryOut rest step).slice? name = (store.carryOut key step).slice? name := by
  obtain ⟨write, now⟩ := step
  cases write with
  | createSlice slice => calc
      (other.insertSlice slice now).store.slice? name
        = if slice.name = name then some ((other.slice? name).getD (slice.stamped now))
          else other.slice? name := slice?_insertSlice ..
      _ = if slice.name = name then some ((store.slice? name).getD (slice.stamped now))
          else store.slice? name := by rw [h]
      _ = (store.insertSlice slice now).store.slice? name := (slice?_insertSlice ..).symm
  | deleteSlice deleted => calc
      (other.removeSlice deleted).store.slice? name
        = if deleted = name then none else other.slice? name := slice?_removeSlice ..
      _ = if deleted = name then none else store.slice? name := by rw [h]
      _ = (store.removeSlice deleted).store.slice? name := (slice?_removeSlice ..).symm
  | setCheck check => calc
      (other.updateCheck rest check).store.slice? name = other.slice? name :=
        slice?_updateCheck ..
      _ = store.slice? name := h
      _ = (store.updateCheck key check).store.slice? name := (slice?_updateCheck ..).symm

theorem slice?_carryAll_congr {name : String} (h : other.slice? name = store.slice? name)
    (key rest : String) (steps : List (Write × Instant)) :
    (other.carryAll rest steps).slice? name = (store.carryAll key steps).slice? name := by
  induction steps generalizing store other with
  | nil => exact h
  | cons step later ih => exact ih (slice?_carryOut_congr h key rest step)

theorem workload?_carryOut_of_ne (h : rest ≠ key) (step : Write × Instant) :
    (store.carryOut key step).workload? rest = store.workload? rest := by
  obtain ⟨write, now⟩ := step
  cases write with
  | createSlice slice => exact workload?_insertSlice store slice now rest
  | deleteSlice name => exact workload?_removeSlice store name rest
  | setCheck check => exact workload?_updateCheck_of_ne (Ne.symm h) check

theorem workload?_carryAll_of_ne (h : rest ≠ key) (steps : List (Write × Instant)) :
    (store.carryAll key steps).workload? rest = store.workload? rest := by
  induction steps generalizing store with
  | nil => rfl
  | cons step later ih => exact ih.trans (workload?_carryOut_of_ne h step)

/-- What becomes of a workload depends only on what it has been before. -/
theorem workload?_carryOut_congr (h : other.workload? rest = store.workload? rest) (key : String)
    (step : Write × Instant) :
    (other.carryOut key step).workload? rest = (store.carryOut key step).workload? rest := by
  by_cases hne : rest ≠ key
  · rw [workload?_carryOut_of_ne hne, workload?_carryOut_of_ne hne, h]
  obtain rfl : rest = key := by simpa using hne
  obtain ⟨write, now⟩ := step
  cases write with
  | createSlice slice =>
    exact (workload?_insertSlice ..).trans (h.trans (workload?_insertSlice ..).symm)
  | deleteSlice name =>
    exact (workload?_removeSlice ..).trans (h.trans (workload?_removeSlice ..).symm)
  | setCheck check =>
    show (other.updateCheck rest check).store.workload? rest =
      (store.updateCheck rest check).store.workload? rest
    unfold updateCheck
    unfold workload? at h ⊢
    rw [h]
    cases store.workloads.get? rest with
    | none => exact h
    | some workload =>
      dsimp only
      cases workload.setCheck? check with
      | none => exact h
      | some updated => simp

theorem workload?_carryAll_congr (h : other.workload? rest = store.workload? rest) (key : String)
    (steps : List (Write × Instant)) :
    (other.carryAll key steps).workload? rest = (store.carryAll key steps).workload? rest := by
  induction steps generalizing store other with
  | nil => exact h
  | cons step later ih => exact ih (workload?_carryOut_congr h key step)

theorem nodes_carryAll (store : Store) (key : String) (steps : List (Write × Instant)) :
    (store.carryAll key steps).nodes = store.nodes := by
  induction steps generalizing store with
  | nil => rfl
  | cons step later ih =>
    obtain ⟨write, now⟩ := step
    apply (ih _).trans
    cases write with
    | createSlice slice => exact nodes_insertSlice store slice now
    | deleteSlice name => exact nodes_removeSlice store name
    | setCheck check => exact nodes_updateCheck store key check

/-! ## Writes for two workloads -/

section Swap

variable {steps later : List (Write × Instant)} {name : String}

theorem slice?_carryAll_swap (store : Store) (key rest : String) (steps : List (Write × Instant))
    (h : ∀ step ∈ later, step.1.target? ≠ some name) :
    ((store.carryAll key steps).carryAll rest later).slice? name =
      ((store.carryAll rest later).carryAll key steps).slice? name := calc
  ((store.carryAll key steps).carryAll rest later).slice? name
    = (store.carryAll key steps).slice? name := slice?_carryAll_of_untargeted h
  _ = ((store.carryAll rest later).carryAll key steps).slice? name :=
    slice?_carryAll_congr (slice?_carryAll_of_untargeted h).symm key key steps

theorem workload?_carryAll_swap (store : Store) (key : String)
    (steps later : List (Write × Instant)) (h : name ≠ rest) :
    ((store.carryAll key steps).carryAll rest later).workload? name =
      ((store.carryAll rest later).carryAll key steps).workload? name := calc
  ((store.carryAll key steps).carryAll rest later).workload? name
    = (store.carryAll key steps).workload? name := workload?_carryAll_of_ne h later
  _ = ((store.carryAll rest later).carryAll key steps).workload? name :=
    workload?_carryAll_congr (workload?_carryAll_of_ne h later).symm key steps

/-- Writes for two workloads that are aimed at different names may be carried out in either
order. -/
theorem Consistent.carryAll_comm (h : store.Consistent) (hne : rest ≠ key)
    (hapart : ∀ step ∈ steps, ∀ other ∈ later, ∀ name, step.1.target? = some name →
      other.1.target? ≠ some name) :
    (store.carryAll key steps).carryAll rest later =
      (store.carryAll rest later).carryAll key steps := by
  have hslices (name : String) :
      ((store.carryAll key steps).carryAll rest later).slice? name =
        ((store.carryAll rest later).carryAll key steps).slice? name := by
    by_cases htargeted : ∃ step ∈ steps, step.1.target? = some name
    · obtain ⟨step, hstep, htarget⟩ := htargeted
      apply slice?_carryAll_swap
      exact fun other hother ↦ hapart step hstep other hother name htarget
    · symm
      apply slice?_carryAll_swap
      exact fun step hstep htarget ↦ htargeted ⟨step, hstep, htarget⟩
  have hworkloads (name : String) :
      ((store.carryAll key steps).carryAll rest later).workload? name =
        ((store.carryAll rest later).carryAll key steps).workload? name := by
    by_cases hname : name = rest
    · symm
      exact workload?_carryAll_swap store rest later steps (hname ▸ hne)
    · exact workload?_carryAll_swap store key steps later hname
  have hfirst : ((store.carryAll key steps).carryAll rest later).Consistent :=
    (h.carryAll steps).carryAll later
  have hsecond : ((store.carryAll rest later).carryAll key steps).Consistent :=
    (h.carryAll later).carryAll steps
  have howned := hfirst.owned_congr hsecond hslices
  have hnodes : ((store.carryAll key steps).carryAll rest later).nodes =
      ((store.carryAll rest later).carryAll key steps).nodes := by
    simp only [nodes_carryAll]
  exact Store.ext (SortedMap.ext_get? hslices) (SortedMap.ext_get? hworkloads) hnodes howned

end Swap

end Store

/-! ## What a pass is aimed at -/

/-- The workload under `key` is open, and it wants a slice of this name. -/
def Store.Wants (store : Store) (checkName key name : String) : Prop :=
  ∃ workload current, store.workload? key = some workload ∧ workload.IsOpen checkName current ∧
    ∃ wanted ∈ workload.wanted store.listNodes, wanted.name = name

/-- A slice of this name names `key` as its owner. -/
def Store.Owns (store : Store) (key name : String) : Prop :=
  ∃ slice, store.slice? name = some slice ∧ slice.ownerKey = some key

namespace Store

variable {store other : Store} {key rest : String}

/-- A pass is aimed only at what its workload wants or owns. -/
theorem Consistent.wants_or_owns (h : store.Consistent) {context : PassContext} {write : Write}
    (hwrite : write ∈ (reconcile (store.reading key) context).writes) {name : String}
    (htarget : write.target? = some name) :
    store.Wants context.checkName key name ∨ store.Owns key name := by
  have howned {slice : Slice} (hmem : slice ∈ store.ownedSlices key) :
      store.Owns key slice.name :=
    ⟨slice, ownedSlice?_eq_some_iff.mp (h.mem_ownedSlices_iff.mp hmem)⟩
  rcases (store.reading key).situation context.checkName with
    hreleasing | ⟨workload, hworkload, hidle | ⟨current, hopen⟩⟩
  · rw [reconcile_of_isReleasing hreleasing] at hwrite
    obtain ⟨slice, hmem, -, rfl⟩ := mem_releaseAll_writes.mp hwrite
    cases htarget
    exact .inr (howned hmem)
  · rw [reconcile_of_isIdle hworkload hidle] at hwrite
    cases hwrite
  · have hwants {wanted : WantedSlice}
        (hmem : wanted ∈ ((store.reading key).progress workload context).wanted) :
        store.Wants context.checkName key wanted.name :=
      ⟨workload, current, hworkload, hopen, wanted, hmem, rfl⟩
    rw [reconcile_of_isOpen hworkload hopen] at hwrite
    rcases List.mem_append.mp hwrite with hslices | hcheck
    · rcases Progress.mem_sliceWrites_iff.mp hslices with
        ⟨wanted, hmem, -, rfl⟩ | ⟨wanted, hmem, -, rfl⟩ | ⟨slice, hmem, rfl⟩ <;> cases htarget
      · exact .inl (hwants hmem)
      · exact .inl (hwants hmem)
      · exact .inr (howned (Progress.mem_unwanted_iff.mp hmem).1)
    · rw [Progress.eq_of_mem_checkWrites hcheck] at htarget
      cases htarget

/-- Two workloads want and own different names. -/
structure Apart (store : Store) (checkName key rest : String) : Prop where
  ne : rest ≠ key
  wants : ∀ name, store.Wants checkName key name →
    ¬store.Wants checkName rest name ∧ ¬store.Owns rest name
  wanted : ∀ name, store.Wants checkName rest name →
    ¬store.Wants checkName key name ∧ ¬store.Owns key name

namespace Apart

variable {checkName : String}

theorem symm (h : store.Apart checkName key rest) : store.Apart checkName rest key :=
  ⟨h.ne.symm, h.wanted, h.wants⟩

/-- Passes over two such workloads are aimed at different names. -/
theorem target?_ne (h : store.Apart checkName key rest) (hstore : store.Consistent)
    {context later : PassContext} (hcontext : context.checkName = checkName)
    (hlater : later.checkName = checkName) {write other : Write}
    (hwrite : write ∈ (reconcile (store.reading key) context).writes)
    (hother : other ∈ (reconcile (store.reading rest) later).writes) {name : String}
    (htarget : write.target? = some name) : other.target? ≠ some name := by
  intro hmeet
  have hfirst := hstore.wants_or_owns hwrite htarget
  have hsecond := hstore.wants_or_owns hother hmeet
  rw [hcontext] at hfirst
  rw [hlater] at hsecond
  rcases hfirst with hwants | howns
  · obtain ⟨hunwanted, hunowned⟩ := h.wants name hwants
    exact hsecond.elim hunwanted hunowned
  · rcases hsecond with hwants | hshared
    · exact (h.wanted name hwants).2 howns
    · obtain ⟨slice, hslice, howner⟩ := howns
      obtain ⟨found, hfound, hother⟩ := hshared
      cases hslice.symm.trans hfound
      exact h.ne (Option.some.inj (hother.symm.trans howner))

end Apart

end Store

/-- A write collides as before where its name stands for what it has stood for. -/
theorem Write.collides_congr {store other : Store} {write : Write}
    (h : ∀ name, write.target? = some name → other.slice? name = store.slice? name)
    (key : String) : write.collides key other = write.collides key store := by
  cases write with
  | createSlice slice =>
    simp only [collides, h slice.name rfl]
  | deleteSlice name => rfl
  | setCheck check => rfl

/-! ## Passes over two workloads -/

namespace PassSettings

variable (settings : PassSettings)

/-- A pass comes to the same after the writes of a pass over a workload that is apart. -/
theorem run_pass_after {cluster after : Cluster} (hstore : cluster.store.Reachable)
    {key rest : String} (hapart : cluster.store.Apart settings.checkName key rest)
    {first : Instant} {steps : List (Write × Instant)}
    (hsteps : steps.map Prod.fst =
      (reconcile (cluster.store.reading key) (settings.contextAt first)).writes)
    (hafter : after.store = cluster.store.carryAll key steps) (second : Instant) :
    let ran := (settings.pass rest).run Cluster.world (after.calmAt second)
    let alone := (settings.pass rest).run Cluster.world (cluster.calmAt second)
    ran.1 = alone.1 ∧
      ∃ later : List (Write × Instant),
        later.map Prod.fst =
          (reconcile (cluster.store.reading rest) (settings.contextAt second)).writes ∧
        ran.2.store = (cluster.store.carryAll key steps).carryAll rest later := by
  intro ran alone
  have hreachable : after.store.Reachable := hafter ▸ hstore.carryAll steps
  have hreading : after.store.reading rest = cluster.store.reading rest := by
    have hsame : Store.SameOutside key cluster.store (cluster.store.carryAll key steps) :=
      hstore.consistent.sameOutside_carryAll fun _ hwrite ↦ hsteps ▸ hwrite
    rw [hafter]
    exact hsame.reading hstore.consistent (hafter ▸ hreachable).consistent hapart.ne
  have hcollides : ∀ write ∈ (reconcile (cluster.store.reading rest)
      (settings.contextAt second)).writes,
      write.collides rest after.store = write.collides rest cluster.store := by
    intro write hwrite
    apply Write.collides_congr
    intro name htarget
    rw [hafter]
    apply Store.slice?_carryAll_of_untargeted
    intro step hstep
    have hmem : step.1 ∈ (reconcile (cluster.store.reading key)
        (settings.contextAt first)).writes := hsteps ▸ List.mem_map_of_mem hstep
    exact hapart.symm.target?_ne hstore.consistent rfl rfl hwrite hmem htarget
  obtain ⟨hran, later, hlater, hlast⟩ := settings.run_pass_calmAt hreachable rest second
  obtain ⟨halone, -⟩ := settings.run_pass_calmAt hstore rest second
  rw [hreading] at hran hlater
  rw [List.countP_congr fun write hwrite ↦ by rw [hcollides write hwrite]] at hran
  refine ⟨hran.trans halone.symm, later, hlater, ?_⟩
  rw [← hafter]
  exact hlast

/-- Passes over different workloads commute, if neither workload wants a name that the other one
wants or owns. Each pass comes to the same in both orders, and the stores are the same up to the
creation times of slices. -/
theorem passes_commute {cluster : Cluster} (hstore : cluster.store.Reachable) {key rest : String}
    (hne : rest ≠ key)
    (hkey : ∀ name, cluster.store.Wants settings.checkName key name →
      ¬cluster.store.Wants settings.checkName rest name ∧ ¬cluster.store.Owns rest name)
    (hrest : ∀ name, cluster.store.Wants settings.checkName rest name →
      ¬cluster.store.Wants settings.checkName key name ∧ ¬cluster.store.Owns key name)
    (first second : Instant) :
    let keyFirst := (settings.pass key).run Cluster.world (cluster.calmAt first)
    let restLast := (settings.pass rest).run Cluster.world (keyFirst.2.calmAt second)
    let restFirst := (settings.pass rest).run Cluster.world (cluster.calmAt second)
    let keyLast := (settings.pass key).run Cluster.world (restFirst.2.calmAt first)
    keyLast.1 = keyFirst.1 ∧ restLast.1 = restFirst.1 ∧
      Store.SameButTimes restLast.2.store keyLast.2.store := by
  intro keyFirst restLast restFirst keyLast
  have hapart : cluster.store.Apart settings.checkName key rest := ⟨hne, hkey, hrest⟩
  obtain ⟨-, steps, hsteps, hkeyFirst⟩ := settings.run_pass_calmAt hstore key first
  obtain ⟨-, later, hlater, hrestFirst⟩ := settings.run_pass_calmAt hstore rest second
  obtain ⟨hrestResult, laterAfter, hlaterAfter, hrestLast⟩ :=
    settings.run_pass_after hstore hapart hsteps hkeyFirst second
  obtain ⟨hkeyResult, stepsAfter, hstepsAfter, hkeyLast⟩ :=
    settings.run_pass_after hstore hapart.symm hlater hrestFirst first
  refine ⟨hkeyResult, hrestResult, ?_⟩
  have hmeet : ∀ step ∈ steps, ∀ other ∈ laterAfter, ∀ name, step.1.target? = some name →
      other.1.target? ≠ some name := by
    intro step hstep other hother name htarget
    have hwrite := hsteps ▸ List.mem_map_of_mem hstep
    have hmem := hlaterAfter ▸ List.mem_map_of_mem hother
    exact hapart.target?_ne hstore.consistent rfl rfl hwrite hmem htarget
  have hswapped : restLast.2.store =
      (cluster.store.carryAll rest laterAfter).carryAll key steps :=
    hrestLast.trans (hstore.consistent.carryAll_comm hne hmeet)
  rw [hswapped, show keyLast.2.store = _ from hkeyLast]
  -- The same writes in the same order, carried out at other moments.
  have hfirst : Store.SameButTimes (cluster.store.carryAll rest laterAfter)
      (cluster.store.carryAll rest later) :=
    (Store.SameButTimes.refl _).carryAll (hlater.trans hlaterAfter.symm)
  exact hfirst.carryAll (hstepsAfter.trans hsteps.symm)

end PassSettings

/-! ## Two workloads on one node -/

namespace Sample

/-- Both workloads are to be served. -/
def shared : Cluster :=
  { Cluster.start (.ofNanos 0) with
    store := registered.mutateAll [(.upsertWorkload otherWorkload, .ofNanos 0)] }

theorem shared_wants {key name : String} (h : shared.store.Wants "tpu-slice" key name) :
    name ∈ ((shared.store.workload? key).elim [] (·.wanted shared.store.listNodes)).map
      WantedSlice.name := by
  obtain ⟨workload, current, hworkload, -, wanted, hwanted, rfl⟩ := h
  rw [hworkload]
  exact List.mem_map_of_mem hwanted

theorem not_shared_owns (key name : String) : ¬shared.store.Owns key name := by
  have hslices : shared.store.slices = .empty := by decide +kernel
  rintro ⟨slice, hslice, -⟩
  rw [Store.slice?, hslices] at hslice
  cases hslice

end Sample

/-- Passes over the two workloads commute, and each of them succeeds. -/
theorem PassSettings.passes_commute_sample :
    let pass (key : String) (cluster : Cluster) (now : Instant) :=
      (Sample.twice.pass key).run Cluster.world (cluster.calmAt now)
    let keyFirst := pass "team/job" Sample.shared (.ofNanos 5)
    let restLast := pass "team/other" keyFirst.2 (.ofNanos 7)
    let restFirst := pass "team/other" Sample.shared (.ofNanos 7)
    let keyLast := pass "team/job" restFirst.2 (.ofNanos 5)
    Sample.shared.store.Reachable ∧
      keyLast.1 = keyFirst.1 ∧ keyFirst.1.isOk = true ∧
      restLast.1 = restFirst.1 ∧ restFirst.1.isOk = true ∧
      Store.SameButTimes restLast.2.store keyLast.2.store := by
  -- Without the names, the runs are compared as terms and not by running them.
  dsimp only
  have hstore : Sample.shared.store.Reachable := Sample.registered_reachable.mutateAll _
  have hjob : ((Sample.shared.store.workload? "team/job").elim []
      (·.wanted Sample.shared.store.listNodes)).map WantedSlice.name = ["team-job-workers-0"] := by
    decide +kernel
  have hother : ((Sample.shared.store.workload? "team/other").elim []
      (·.wanted Sample.shared.store.listNodes)).map WantedSlice.name =
        ["team-other-workers-0"] := by
    decide +kernel
  have hapart {name : String} (hkey : Sample.shared.store.Wants "tpu-slice" "team/job" name)
      (hrest : Sample.shared.store.Wants "tpu-slice" "team/other" name) : False := by
    have hjobName := Sample.shared_wants hkey
    have hotherName := Sample.shared_wants hrest
    rw [hjob] at hjobName
    rw [hother] at hotherName
    rw [List.mem_singleton.mp hjobName] at hotherName
    exact absurd hotherName (by decide)
  obtain ⟨hkey, hrest, hsame⟩ :=
    PassSettings.passes_commute Sample.twice hstore
      (show "team/other" ≠ "team/job" by decide)
      (fun name hkey ↦ ⟨fun hrest ↦ hapart hkey hrest, Sample.not_shared_owns _ name⟩)
      (fun name hrest ↦ ⟨fun hkey ↦ hapart hkey hrest, Sample.not_shared_owns _ name⟩)
      (.ofNanos 5) (.ofNanos 7)
  exact ⟨hstore, hkey, by decide +kernel, hrest, by decide +kernel, hsame⟩

end SliceControl
