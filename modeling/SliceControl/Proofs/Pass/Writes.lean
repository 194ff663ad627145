import SliceControl.Pass
import SliceControl.Proofs.Store.Operations

/-!
# Carrying out writes

The writes of a pass are carried out one after the other, each at its own moment. A write is aimed
at the slice of one name, or at the check of the workload. What stands under a name afterwards
depends only on the writes that are aimed at it, and whatever belongs to other workloads stays as it
is.
-/

namespace SliceControl

/-- The request that carries out a write for the workload `key`. -/
def Write.request (key : String) : Write → StoreRequest
  | .createSlice slice => .createSlice slice
  | .deleteSlice name => .deleteSlice name
  | .setCheck check => .updateCheck key check

/-- The name of the slice that a write is aimed at. -/
def Write.target? : Write → Option String
  | .createSlice slice => some slice.name
  | .deleteSlice name => some name
  | .setCheck _ => none

/-- Whether a write concerns only the workload `key`: what it deletes, if it is there, and what it
creates name the workload as their owner. -/
def Write.BelongsTo (key : String) (store : Store) : Write → Prop
  | .createSlice slice => slice.ownerKey = some key
  | .deleteSlice name => ∀ slice, store.slice? name = some slice → slice.ownerKey = some key
  | .setCheck _ => True

/-- The workload without its checks. -/
def Workload.unchecked (workload : Workload) : Workload :=
  { workload with status.checks := [] }

namespace Store

/-- The store after a write that is carried out at a moment. -/
def carryOut (key : String) (store : Store) (step : Write × Instant) : Store :=
  (store.serve step.2 (step.1.request key)).store

/-- The store after writes that are carried out one after the other. -/
def carryAll (key : String) (store : Store) (steps : List (Write × Instant)) : Store :=
  steps.foldl (carryOut key) store

variable {store : Store} {key : String}

@[simp] theorem carryAll_nil : store.carryAll key [] = store := rfl

@[simp] theorem carryAll_cons (step : Write × Instant) (rest : List (Write × Instant)) :
    store.carryAll key (step :: rest) = (store.carryOut key step).carryAll key rest := rfl

theorem carryAll_append (first second : List (Write × Instant)) :
    store.carryAll key (first ++ second) = (store.carryAll key first).carryAll key second :=
  List.foldl_append

theorem Consistent.carryOut (h : store.Consistent) (step : Write × Instant) :
    (store.carryOut key step).Consistent := by
  obtain ⟨write, now⟩ := step
  cases write with
  | createSlice slice => exact h.insertSlice slice now
  | deleteSlice name => exact h.removeSlice name
  | setCheck check => exact h.updateCheck key check

/-- Wherever a pass is broken off, it leaves a consistent store. -/
theorem Consistent.carryAll (h : store.Consistent) (steps : List (Write × Instant)) :
    (store.carryAll key steps).Consistent := by
  induction steps generalizing store with
  | nil => exact h
  | cons step rest ih => exact ih (h.carryOut step)

/-! ## Slices -/

theorem slice?_updateCheck (store : Store) (key : String) (check : AdmissionCheck) (name : String) :
    (store.updateCheck key check).store.slice? name = store.slice? name := by
  unfold updateCheck
  cases store.workloads.get? key with
  | none => rfl
  | some workload => cases hupdated : workload.setCheck? check <;> simp [hupdated, refuse, slice?]

theorem slice?_carryOut_of_ne {step : Write × Instant} {name : String}
    (h : step.1.target? ≠ some name) :
    (store.carryOut key step).slice? name = store.slice? name := by
  obtain ⟨write, now⟩ := step
  cases write with
  | createSlice slice =>
    have hne : slice.name ≠ name := fun hname ↦ h (congrArg some hname)
    calc (store.insertSlice slice now).store.slice? name
        = if slice.name = name then _ else store.slice? name := slice?_insertSlice ..
      _ = store.slice? name := if_neg hne
  | deleteSlice other =>
    have hne : other ≠ name := fun hname ↦ h (congrArg some hname)
    calc (store.removeSlice other).store.slice? name
        = if other = name then none else store.slice? name := slice?_removeSlice ..
      _ = store.slice? name := if_neg hne
  | setCheck check => exact slice?_updateCheck store key check name

theorem slice?_carryAll_of_untargeted {steps : List (Write × Instant)} {name : String}
    (h : ∀ step ∈ steps, step.1.target? ≠ some name) :
    (store.carryAll key steps).slice? name = store.slice? name := by
  induction steps generalizing store with
  | nil => rfl
  | cons step rest ih =>
    rw [carryAll_cons, ih fun other hother ↦ h other (List.mem_cons_of_mem _ hother)]
    exact slice?_carryOut_of_ne (h step List.mem_cons_self)

/-- A free name stays free as long as it is not created. -/
theorem slice?_carryAll_eq_none {steps : List (Write × Instant)} {name : String}
    (hnone : store.slice? name = none)
    (huncreated : ∀ step ∈ steps, ∀ slice, step.1 = .createSlice slice → slice.name ≠ name) :
    (store.carryAll key steps).slice? name = none := by
  induction steps generalizing store with
  | nil => exact hnone
  | cons step rest ih =>
    refine ih ?_ fun other hother ↦ huncreated other (List.mem_cons_of_mem _ hother)
    obtain ⟨write, now⟩ := step
    cases write with
    | createSlice slice =>
      have hne := huncreated _ List.mem_cons_self slice rfl
      rw [slice?_carryOut_of_ne (by simpa [Write.target?] using hne)]
      exact hnone
    | deleteSlice other =>
      refine (slice?_removeSlice store other name).trans ?_
      split_ifs
      · rfl
      · exact hnone
    | setCheck check => exact (slice?_updateCheck store key check name).trans hnone

/-- A slice stays as it is as long as it is not deleted: a creation of its name is refused. -/
theorem slice?_carryAll_eq_some {steps : List (Write × Instant)} {name : String} {slice : Slice}
    (hslice : store.slice? name = some slice)
    (hkept : ∀ step ∈ steps, step.1 ≠ .deleteSlice name) :
    (store.carryAll key steps).slice? name = some slice := by
  induction steps generalizing store with
  | nil => exact hslice
  | cons step rest ih =>
    refine ih ?_ fun other hother ↦ hkept other (List.mem_cons_of_mem _ hother)
    obtain ⟨write, now⟩ := step
    cases write with
    | createSlice other =>
      refine (slice?_insertSlice store other now name).trans ?_
      simp [hslice]
    | deleteSlice other =>
      have hne : other ≠ name := fun hname ↦ hkept _ List.mem_cons_self (by rw [hname])
      calc (store.removeSlice other).store.slice? name
          = if other = name then none else store.slice? name := slice?_removeSlice ..
        _ = store.slice? name := if_neg hne
        _ = some slice := hslice
    | setCheck check => exact (slice?_updateCheck store key check name).trans hslice

/-- A name that is deleted and not created is free afterwards. -/
theorem slice?_carryAll_of_deleted {steps : List (Write × Instant)} {name : String}
    (hdeleted : ∃ step ∈ steps, step.1 = .deleteSlice name)
    (huncreated : ∀ step ∈ steps, ∀ slice, step.1 = .createSlice slice → slice.name ≠ name) :
    (store.carryAll key steps).slice? name = none := by
  induction steps generalizing store with
  | nil => simp at hdeleted
  | cons step rest ih =>
    have hrest : ∀ other ∈ rest, ∀ slice, other.1 = .createSlice slice → slice.name ≠ name :=
      fun other hother ↦ huncreated other (List.mem_cons_of_mem _ hother)
    obtain ⟨found, hfound, hwrite⟩ := hdeleted
    rcases List.mem_cons.mp hfound with rfl | hfound
    · rw [carryAll_cons]
      refine slice?_carryAll_eq_none ?_ hrest
      unfold carryOut
      rw [hwrite]
      exact (slice?_removeSlice store name name).trans (if_pos rfl)
    · exact ih ⟨found, hfound, hwrite⟩ hrest

/-- A free name that is created and not deleted has afterwards a slice that some step created. -/
theorem slice?_carryAll_of_created (key : String) {steps : List (Write × Instant)} {name : String}
    (hnone : store.slice? name = none)
    (hcreated : ∃ step ∈ steps, ∃ slice, step.1 = .createSlice slice ∧ slice.name = name)
    (hkept : ∀ step ∈ steps, step.1 ≠ .deleteSlice name) :
    ∃ step ∈ steps, ∃ slice, step.1 = .createSlice slice ∧ slice.name = name ∧
      (store.carryAll key steps).slice? name = some (slice.stamped step.2) := by
  induction steps generalizing store with
  | nil => simp at hcreated
  | cons step rest ih =>
    have hrest : ∀ other ∈ rest, other.1 ≠ .deleteSlice name :=
      fun other hother ↦ hkept other (List.mem_cons_of_mem _ hother)
    by_cases hnow : ∃ slice, step.1 = .createSlice slice ∧ slice.name = name
    · obtain ⟨slice, hwrite, hname⟩ := hnow
      refine ⟨step, List.mem_cons_self, slice, hwrite, hname, ?_⟩
      rw [carryAll_cons]
      refine slice?_carryAll_eq_some ?_ hrest
      unfold carryOut
      rw [hwrite]
      refine (slice?_insertSlice store slice step.2 name).trans ?_
      rw [if_pos hname, hnone, Option.getD_none]
    · obtain ⟨found, hfound, hsome⟩ := hcreated
      rcases List.mem_cons.mp hfound with rfl | hfound
      · exact absurd hsome hnow
      · have huntargeted : step.1.target? ≠ some name := by
          intro htarget
          cases hwrite : step.1 with
          | createSlice slice =>
            rw [hwrite] at htarget
            exact hnow ⟨slice, hwrite, Option.some.inj htarget⟩
          | deleteSlice other =>
            rw [hwrite] at htarget
            exact hkept step List.mem_cons_self (by rw [hwrite, Option.some.inj htarget])
          | setCheck check =>
            rw [hwrite] at htarget
            exact absurd htarget (by simp [Write.target?])
        obtain ⟨later, hlater, hresult⟩ :=
          ih ((slice?_carryOut_of_ne huntargeted).trans hnone) ⟨found, hfound, hsome⟩ hrest
        exact ⟨later, List.mem_cons_of_mem _ hlater, hresult⟩

/-! ## The workload -/

theorem workload?_updateCheck_of_ne {other : String} (h : key ≠ other) (check : AdmissionCheck) :
    (store.updateCheck key check).store.workload? other = store.workload? other := by
  unfold updateCheck
  cases store.workloads.get? key with
  | none => rfl
  | some workload =>
    cases hupdated : workload.setCheck? check <;> simp [hupdated, refuse, workload?, h]

theorem nodes_updateCheck (store : Store) (key : String) (check : AdmissionCheck) :
    (store.updateCheck key check).store.nodes = store.nodes := by
  unfold updateCheck
  cases store.workloads.get? key with
  | none => rfl
  | some workload => cases hupdated : workload.setCheck? check <;> simp [hupdated, refuse]

theorem workload?_carryOut_of_slice {step : Write × Instant}
    (h : ∀ check, step.1 ≠ .setCheck check) (other : String) :
    (store.carryOut key step).workload? other = store.workload? other := by
  obtain ⟨write, now⟩ := step
  cases write with
  | createSlice slice => exact workload?_insertSlice store slice now other
  | deleteSlice name => exact workload?_removeSlice store name other
  | setCheck check => exact absurd rfl (h check)

theorem workload?_carryAll_of_slices {steps : List (Write × Instant)}
    (h : ∀ step ∈ steps, ∀ check, step.1 ≠ .setCheck check) (other : String) :
    (store.carryAll key steps).workload? other = store.workload? other := by
  induction steps generalizing store with
  | nil => rfl
  | cons step rest ih =>
    rw [carryAll_cons, ih fun later hlater ↦ h later (List.mem_cons_of_mem _ hlater)]
    exact workload?_carryOut_of_slice (h step List.mem_cons_self) other

/-- Writes change nothing about the workload besides its checks. -/
theorem unchecked_carryOut (step : Write × Instant) :
    ((store.carryOut key step).workload? key).map Workload.unchecked =
      (store.workload? key).map Workload.unchecked := by
  obtain ⟨write, now⟩ := step
  cases write with
  | createSlice slice =>
    exact congrArg (Option.map Workload.unchecked) (workload?_insertSlice store slice now key)
  | deleteSlice name =>
    exact congrArg (Option.map Workload.unchecked) (workload?_removeSlice store name key)
  | setCheck check =>
    unfold carryOut
    simp only [Write.request, serve, updateCheck, workload?]
    cases hworkload : store.workloads.get? key with
    | none => simp [refuse, hworkload]
    | some workload =>
      dsimp only
      cases hupdated : workload.setCheck? check with
      | none => simp [refuse, hworkload]
      | some updated =>
        rw [Workload.eq_of_setCheck? hupdated]
        simp [Workload.unchecked]

theorem unchecked_carryAll (steps : List (Write × Instant)) :
    ((store.carryAll key steps).workload? key).map Workload.unchecked =
      (store.workload? key).map Workload.unchecked := by
  induction steps generalizing store with
  | nil => rfl
  | cons step rest ih =>
    rw [carryAll_cons, ih]
    exact unchecked_carryOut step

/-- The check of a workload that carries it is found updated. -/
theorem workload?_updateCheck {workload : Workload} {current : AdmissionCheck}
    (check : AdmissionCheck) (hworkload : store.workload? key = some workload)
    (hcurrent : workload.check? check.name = some current) :
    ∃ checks, (store.updateCheck key check).store.workload? key =
        some { workload with status.checks := checks } ∧
      { workload with status.checks := checks }.check? check.name =
        some (current.update check) := by
  obtain ⟨updated, hupdated, hfound⟩ := Workload.setCheck?_of_check? hcurrent
  have hchecks := Workload.eq_of_setCheck? hupdated
  refine ⟨updated.status.checks, ?_, hchecks ▸ hfound⟩
  unfold updateCheck
  rw [show store.workloads.get? key = some workload from hworkload]
  simp only [hupdated, workload?, SortedMap.get?_insert, if_pos, ← hchecks]

/-! ## What belongs to others -/

/-- Two stores agree on the nodes, on the workloads besides `key`, and on the slices of others. -/
structure SameOutside (key : String) (store other : Store) : Prop where
  nodes : other.nodes = store.nodes
  workloads : ∀ rest, rest ≠ key → other.workload? rest = store.workload? rest
  slices : ∀ name slice, slice.ownerKey ≠ some key →
    (other.slice? name = some slice ↔ store.slice? name = some slice)

namespace SameOutside

variable {other last : Store}

theorem refl (key : String) (store : Store) : SameOutside key store store :=
  ⟨rfl, fun _ _ ↦ rfl, fun _ _ _ ↦ Iff.rfl⟩

theorem trans (h : SameOutside key store other) (hlast : SameOutside key other last) :
    SameOutside key store last :=
  ⟨hlast.nodes.trans h.nodes,
    fun rest hrest ↦ (hlast.workloads rest hrest).trans (h.workloads rest hrest),
    fun name slice howner ↦ (hlast.slices name slice howner).trans (h.slices name slice howner)⟩

/-- What a write concerns stays the workload's own. -/
theorem belongsTo (h : SameOutside key store other) {write : Write}
    (hwrite : write.BelongsTo key store) : write.BelongsTo key other := by
  cases write with
  | createSlice slice => exact hwrite
  | deleteSlice name =>
    intro slice hslice
    by_contra howner
    exact howner (hwrite slice ((h.slices name slice howner).mp hslice))
  | setCheck check => trivial

theorem carryOut {step : Write × Instant} (h : step.1.BelongsTo key store) :
    SameOutside key store (store.carryOut key step) := by
  obtain ⟨write, now⟩ := step
  cases write with
  | createSlice created =>
    refine ⟨nodes_insertSlice store created now,
      fun rest _ ↦ workload?_insertSlice store created now rest, ?_⟩
    intro name slice howner
    rw [show (store.carryOut key (.createSlice created, now)).slice? name = _ from
      slice?_insertSlice store created now name]
    split_ifs with hname
    · cases store.slice? name with
      | none =>
        simp only [Option.getD_none, Option.some.injEq, reduceCtorEq, iff_false]
        rintro rfl
        exact howner h
      | some existing => rfl
    · rfl
  | deleteSlice deleted =>
    refine ⟨nodes_removeSlice store deleted,
      fun rest _ ↦ workload?_removeSlice store deleted rest, ?_⟩
    intro name slice howner
    refine (iff_of_eq (congrArg (· = some slice) (slice?_removeSlice store deleted name))).trans ?_
    split_ifs with hname
    · subst hname
      simp only [false_iff]
      exact fun hslice ↦ howner (h slice hslice)
    · rfl
  | setCheck check =>
    exact ⟨nodes_updateCheck store key check,
      fun rest hrest ↦ workload?_updateCheck_of_ne (Ne.symm hrest) check,
      fun name slice _ ↦
        iff_of_eq (congrArg (· = some slice) (slice?_updateCheck store key check name))⟩

theorem carryAll {steps : List (Write × Instant)} (h : ∀ step ∈ steps, step.1.BelongsTo key store) :
    SameOutside key store (store.carryAll key steps) := by
  induction steps generalizing store with
  | nil => exact refl key store
  | cons step rest ih =>
    have hstep := carryOut (h step List.mem_cons_self)
    refine hstep.trans (ih fun later hlater ↦ hstep.belongsTo ?_)
    exact h later (List.mem_cons_of_mem _ hlater)

end SameOutside

end Store

end SliceControl
