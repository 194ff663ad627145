import SliceControl.Proofs.Slice.Reports
import SliceControl.Proofs.Store.Reachable

/-!
# The lifetime of a slice

From the moment at which a slice is inserted until it is removed, operations on the store can change
nothing of it but its status. The status moves forwards only: it keeps at most one condition of each
type, and the transition time that is recorded for a type never goes back.
-/

namespace SliceControl

open SortedMap

/-! ## What stays and what moves -/

/-- The operation takes the slice of a name away. -/
def Operation.Removes (operation : Operation) (name : String) : Prop :=
  operation = .mutate (.removeSlice name) ∨ operation = .serve (.deleteSlice name)

/-- The slice is what another one has become while it was stored. -/
structure Slice.Continues (later first : Slice) : Prop where
  /-- Nothing but the status has changed. -/
  kept : later = { first with status := later.status }
  single : first.status.IsSingle → later.status.IsSingle
  forward : first.status.Precedes later.status

namespace Slice.Continues

theorem refl (slice : Slice) : slice.Continues slice :=
  ⟨rfl, id, .of_conditions_eq rfl⟩

theorem trans {last later first : Slice} (hlast : last.Continues later)
    (hlater : later.Continues first) : last.Continues first where
  kept := by
    rw [hlast.kept, hlater.kept]
  single hfirst := hlast.single (hlater.single hfirst)
  forward := hlater.forward.trans hlast.forward

end Slice.Continues

/-! ## One operation -/

namespace Store

variable {store : Store} {name : String} {first : Slice}

/-- The slice that is stored under a name is replaced by one that continues it. -/
theorem exists_continues_of_insert {slice updated : Slice} {target : String}
    (hstored : store.slice? name = some first) (htarget : store.slice? target = some slice)
    (hupdated : updated.Continues slice) :
    ∃ later, (store.slices.insert target updated).get? name = some later ∧
      later.Continues first := by
  rw [get?_insert]
  split_ifs with hname
  · subst hname
    cases htarget.symm.trans hstored
    exact ⟨updated, rfl, hupdated⟩
  · exact ⟨first, hstored, .refl first⟩

theorem exists_continues_setCondition (hstored : store.slice? name = some first) (target : String)
    (condition : Condition) :
    ∃ later, (store.setCondition target condition).store.slice? name = some later ∧
      later.Continues first := by
  unfold setCondition
  cases htarget : store.slices.get? target with
  | none => exact ⟨first, hstored, .refl first⟩
  | some slice =>
    dsimp only
    cases hstatus : slice.status.record condition with
    | error error => exact ⟨first, hstored, .refl first⟩
    | ok status =>
      refine exists_continues_of_insert hstored htarget ⟨rfl, ?_, ?_⟩
      · exact fun hsingle ↦ hsingle.of_record hstatus
      · exact SliceStatus.precedes_of_record hstatus

theorem exists_continues_setPlacement (hstored : store.slice? name = some first) (target : String)
    (blockId : Option String) (subBlockIds : List String) :
    ∃ later, (store.setPlacement target blockId subBlockIds).store.slice? name = some later ∧
      later.Continues first := by
  unfold setPlacement
  cases htarget : store.slices.get? target with
  | none => exact ⟨first, hstored, .refl first⟩
  | some slice =>
    exact exists_continues_of_insert hstored htarget ⟨rfl, id, .of_conditions_eq rfl⟩

/-- An operation that does not remove a slice leaves one that continues it. -/
theorem exists_continues_perform (hstored : store.slice? name = some first) (operation : Operation)
    (now : Instant) (hkept : ¬operation.Removes name) :
    ∃ later, (operation.perform store now).slice? name = some later ∧ later.Continues first := by
  have hsame {after : Store} (h : after.slice? name = store.slice? name) :
      ∃ later, after.slice? name = some later ∧ later.Continues first :=
    ⟨first, h.trans hstored, .refl first⟩
  have hinserted (slice : Slice) :
      (store.insertSlice slice now).store.slice? name = store.slice? name := by
    rw [slice?_insertSlice, hstored]
    split_ifs <;> rfl
  have hremoved {target : String} (hother : target ≠ name) :
      (store.removeSlice target).store.slice? name = store.slice? name := by
    rw [slice?_removeSlice, if_neg hother]
  cases operation with
  | mutate mutation =>
    cases mutation with
    | upsertNode node => exact hsame rfl
    | removeNode node =>
      apply hsame
      show (store.removeNode node).store.slice? name = _
      unfold removeNode
      cases store.nodes.get? node <;> rfl
    | upsertWorkload workload => exact hsame rfl
    | removeWorkload key =>
      apply hsame
      show (store.removeWorkload key).store.slice? name = _
      unfold removeWorkload
      cases store.workloads.get? key <;> rfl
    | removeSlice target =>
      exact hsame (hremoved fun hname ↦ hkept (.inl (by rw [hname])))
    | setCondition target condition =>
      exact exists_continues_setCondition hstored target condition
    | setPlacement target blockId subBlockIds =>
      exact exists_continues_setPlacement hstored target blockId subBlockIds
  | serve request =>
    cases request with
    | createSlice slice => exact hsame (hinserted slice)
    | deleteSlice target =>
      exact hsame (hremoved fun hname ↦ hkept (.inr (by rw [hname])))
    | updateCheck key check => exact hsame (slice?_updateCheck store key check name)
    | _ => exact hsame rfl
  | applySlice slice =>
    apply hsame
    show (store.applySlice slice now).store.slice? name = _
    unfold applySlice
    split
    · split_ifs <;> rfl
    · exact hinserted slice

/-! ## A run -/

/-- Until it is removed, a slice goes on being stored. -/
theorem exists_continues_performAll (hstored : store.slice? name = some first)
    {run : List (Operation × Instant)} (hkept : ∀ step ∈ run, ¬step.1.Removes name) :
    ∃ later, (store.performAll run).slice? name = some later ∧ later.Continues first := by
  induction run generalizing store first with
  | nil => exact ⟨first, hstored, .refl first⟩
  | cons step rest ih =>
    obtain ⟨next, hnext, hfirst⟩ :=
      exists_continues_perform hstored step.1 step.2 (hkept step List.mem_cons_self)
    obtain ⟨later, hlater, hcontinues⟩ :=
      ih hnext fun other hother ↦ hkept other (List.mem_cons_of_mem _ hother)
    exact ⟨later, hlater, hcontinues.trans hfirst⟩

/-- A slice is applied under a name that is taken without any effect, and is refused just if its
spec differs from the stored one. -/
theorem applySlice_of_some {slice found : Slice} (h : store.slice? slice.name = some found)
    (now : Instant) :
    (store.applySlice slice now).effect = (store, []) ∧
      ((store.applySlice slice now).result = .error (.immutable slice.name) ↔
        slice.spec ≠ found.spec) := by
  unfold applySlice
  rw [h]
  dsimp only
  split_ifs with hspec
  · exact ⟨rfl, by simp [hspec]⟩
  · exact ⟨rfl, by simp [refuse, Ne.symm hspec]⟩

/-- A slice that is stored keeps its metadata and its spec until it is removed, and its status only
moves forwards. While it is stored its name can be taken neither by inserting nor by applying
another slice, and to apply one is refused as immutable just if it has another spec. -/
theorem keeps_spec_until_removed (hstored : store.slice? name = some first)
    (early late : List (Operation × Instant))
    (hkept : ∀ step ∈ early ++ late, ¬step.1.Removes name) :
    ∃ middle last, (store.performAll early).slice? name = some middle ∧
      (store.performAll (early ++ late)).slice? name = some last ∧
      (middle.metadata = first.metadata ∧ middle.spec = first.spec) ∧
      (last.metadata = first.metadata ∧ last.spec = first.spec) ∧
      (first.status.IsSingle → middle.status.IsSingle ∧ last.status.IsSingle) ∧
      (first.status.Precedes middle.status ∧ middle.status.Precedes last.status) ∧
      ∀ offered now, offered.name = name →
        ((store.performAll early).insertSlice offered now).effect = (store.performAll early, []) ∧
        ((store.performAll early).applySlice offered now).effect = (store.performAll early, []) ∧
        (((store.performAll early).applySlice offered now).result = .error (.immutable name) ↔
          offered.spec ≠ first.spec) := by
  obtain ⟨middle, hmiddle, hfirst⟩ := exists_continues_performAll hstored fun step hstep ↦
    hkept step (List.mem_append_left _ hstep)
  obtain ⟨last, hlast, hnext⟩ := exists_continues_performAll hmiddle fun step hstep ↦
    hkept step (List.mem_append_right _ hstep)
  have hboth := hnext.trans hfirst
  refine ⟨middle, last, hmiddle, ?_, ?_, ?_, ?_, ⟨hfirst.forward, hnext.forward⟩, ?_⟩
  · rw [performAll_append]
    exact hlast
  · rw [hfirst.kept]
    exact ⟨rfl, rfl⟩
  · rw [hboth.kept]
    exact ⟨rfl, rfl⟩
  · exact fun hsingle ↦ ⟨hfirst.single hsingle, hboth.single hsingle⟩
  · rintro offered now rfl
    have hspec : middle.spec = first.spec := by rw [hfirst.kept]
    obtain ⟨happly, hrefused⟩ := applySlice_of_some hmiddle now
    refine ⟨?_, happly, ?_⟩
    · rw [insertSlice_of_some hmiddle]
      rfl
    · rw [hrefused, hspec]

end Store

namespace Sample

/-- A slice of one cube that belongs to nobody. -/
def looseSlice (topology : String) : Slice :=
  Slice.new (Metadata.named "loose") ⟨.tpuV7x, topology, .empty⟩

/-- A report about the slice, with a moment in seconds. -/
def report (status : ConditionStatus) (seconds : Int) : Mutation :=
  .setCondition "loose"
    ⟨Condition.ready, status, Condition.reasonActive, "", .ofNanos (seconds * 1000000000)⟩

end Sample

/-- A slice is reported active. Then an older report arrives, the hardware is placed, and a slice
with another spec is applied under the same name. -/
theorem Store.keeps_spec_until_removed_sample :
    let store := (Store.empty.insertSlice (Sample.looseSlice "4x4x4") (.ofNanos 0)).store
    let early : List (Operation × Instant) := [(.mutate (Sample.report .true 9), .ofNanos 9)]
    let late : List (Operation × Instant) := [(.mutate (Sample.report .false 5), .ofNanos 10),
      (.mutate (.setPlacement "loose" (some "b0") ["s0"]), .ofNanos 11),
      (.applySlice (Sample.looseSlice "4x4x8"), .ofNanos 12)]
    ∃ middle last, (store.performAll early).slice? "loose" = some middle ∧
      (store.performAll (early ++ late)).slice? "loose" = some last ∧
      last.spec = (Sample.looseSlice "4x4x4").spec ∧ last.status.IsSingle ∧
      middle.status.Precedes last.status ∧
      ((store.performAll early).applySlice (Sample.looseSlice "4x4x8") (.ofNanos 12)).result =
        .error (.immutable "loose") := by
  intro store early late
  have hstored :
      store.slice? "loose" = some ((Sample.looseSlice "4x4x4").stamped (.ofNanos 0)) := by
    decide +kernel
  have hkept : ∀ step ∈ early ++ late, ¬step.1.Removes "loose" := by
    simp [early, late, Operation.Removes, Sample.report]
  obtain ⟨middle, last, hmiddle, hlast, -, ⟨-, hspec⟩, hsingle, ⟨-, hforward⟩, htaken⟩ :=
    Store.keeps_spec_until_removed hstored early late hkept
  obtain ⟨-, -, hrefused⟩ := htaken (Sample.looseSlice "4x4x8") (.ofNanos 12) rfl
  exact ⟨middle, last, hmiddle, hlast, hspec, (hsingle List.nodup_nil).2, hforward,
    hrefused.mpr (by decide)⟩

end SliceControl
