import Mathlib.Algebra.Order.BigOperators.Group.List
import SliceControl.Proofs.Admission.Agreement

/-!
# Which jobs are accepted

A queued job is accepted if every group that asks for a slice uses whole cubes: all pods of a
replica together have just the chips of the shape, and each of its units gets the same number of
pods. The first group that does not decides why the job is refused.

The conditions are those of exact arithmetic. The numbers that are computed on the way fit their
words, as long as there are no more than four billion containers.
-/

namespace SliceControl

open Text

/-! ## Chips -/

/-- The value is a quantity of 32 bits: a whole number, or a numeral with white space around it and
perhaps a plus sign. -/
inductive Json.IsQuantity : Json → Nat → Prop
  | number {whole : Whole} {amount : Nat} (hvalue : whole.value = amount)
      (hbound : amount ≤ Numeral.max32) : IsQuantity (.whole whole) amount
  | numeral {text : String} {digits : List Char}
      (htext : trim text.toList = digits ∨ trim text.toList = '+' :: digits)
      (hrun : Numeral.isRun digits = true) (hbound : Numeral.value digits ≤ Numeral.max32) :
      IsQuantity (.string text) (Numeral.value digits)

theorem quantity?_eq_some_iff {value : Json} {amount : Nat} :
    quantity? value = some amount ↔ value.IsQuantity amount := by
  constructor
  · intro h
    cases value with
    | whole whole =>
      dsimp only [quantity?] at h
      split_ifs at h with hbound
      cases h
      exact .number (by omega) (by omega)
    | string text =>
      obtain ⟨digits, htext, hrun, rfl, hbound⟩ := Numeral.readBounded?_eq_some_iff.mp h
      exact .numeral htext hrun hbound
    | _ => cases h
  · intro h
    cases h with
    | number hvalue hbound =>
      dsimp only [quantity?]
      rw [if_pos (by omega), hvalue]
      rfl
    | numeral htext hrun hbound =>
      exact Numeral.readBounded?_eq_some_iff.mpr ⟨_, htext, hrun, rfl, hbound⟩

theorem Json.IsQuantity.le {value : Json} {amount : Nat} (h : value.IsQuantity amount) :
    amount ≤ Numeral.max32 := by
  cases h <;> assumption

namespace Container

/-- What a container asks for: its limit, or its request if it has no limit. -/
def asked? (container : Container) : Option Json :=
  (container.resources.limits.get? Label.chipResource).or
    (container.resources.requests.get? Label.chipResource)

/-- The chips of a container: what it asks for, or none if that is no quantity. -/
inductive Counts (container : Container) : Nat → Prop
  | asked {value : Json} {amount : Nat} (hasked : container.asked? = some value)
      (hquantity : value.IsQuantity amount) : Counts container amount
  | nothing (hnone : ∀ value amount, container.asked? = some value → ¬value.IsQuantity amount) :
      Counts container 0

theorem chips_eq (container : Container) :
    container.chips = (container.asked?.bind quantity?).getD 0 := by
  unfold chips asked?
  cases container.resources.limits.get? Label.chipResource <;> rfl

theorem counts_chips (container : Container) : container.Counts container.chips := by
  rw [chips_eq]
  cases hread : container.asked?.bind quantity? with
  | some amount =>
    obtain ⟨value, hasked, hquantity⟩ := Option.bind_eq_some_iff.mp hread
    exact .asked hasked (quantity?_eq_some_iff.mp hquantity)
  | none =>
    apply Counts.nothing
    intro value amount hasked hquantity
    rw [hasked, Option.bind_some, quantity?_eq_some_iff.mpr hquantity] at hread
    cases hread

theorem Counts.le {container : Container} {amount : Nat} (h : container.Counts amount) :
    amount ≤ Numeral.max32 := by
  cases h with
  | asked _ hquantity => exact hquantity.le
  | nothing _ => exact Nat.zero_le _

end Container

/-- The chips of a pod, container by container. The sums on the way have 64 bits, unless there are
more containers than numbers of 32 bits. -/
structure PodTemplate.Tallies (template : PodTemplate) (amounts : List Nat) : Prop where
  counted : List.Forall₂ Container.Counts template.spec.containers amounts
  total : template.chipsPerPod = amounts.sum
  countable : template.spec.containers.length ≤ 2 ^ 32 →
    ∀ number, (amounts.take number).sum ≤ Numeral.max64

theorem PodTemplate.tallies_chips (template : PodTemplate) :
    template.Tallies (template.spec.containers.map Container.chips) where
  counted := by
    rw [List.forall₂_map_right_iff]
    exact List.forall₂_same.mpr fun container _ ↦ container.counts_chips
  total := by
    unfold chipsPerPod
    rw [List.sum, List.foldr_map]
  countable := by
    intro hlength number
    let amounts := (template.spec.containers.map Container.chips).take number
    have hbound : ∀ amount ∈ amounts, amount ≤ Numeral.max32 := by
      intro amount hamount
      obtain ⟨container, -, rfl⟩ := List.mem_map.mp (List.mem_of_mem_take hamount)
      exact container.counts_chips.le
    have hcount : amounts.length ≤ 2 ^ 32 := by
      have htake := List.length_take_le' number (template.spec.containers.map Container.chips)
      rw [List.length_map] at htake
      exact htake.trans hlength
    calc amounts.sum
        ≤ amounts.length * Numeral.max32 := List.sum_le_card_nsmul amounts _ hbound
      _ ≤ 2 ^ 32 * Numeral.max32 := Nat.mul_le_mul_right _ hcount
      _ ≤ Numeral.max64 := by decide

/-! ## Whole cubes -/

namespace ReplicaGroup

variable {group defaulted : ReplicaGroup} {topology : Topology} {podsPerCube : Nat}

/-- The chips that the pods of one replica ask for. -/
def chips (group : ReplicaGroup) : Nat := group.parallelism * group.podTemplate.chipsPerPod

/-- A replica has the chips of the shape, and as many pods in each unit. -/
structure UsesWholeCubes (group : ReplicaGroup) (topology : Topology) : Prop where
  chips : group.chips = topology.cubes * topology.unitChips
  pods : topology.cubes ∣ group.parallelism

/-- What is wrong with a group that asks for a shape, the first fault first. -/
inductive Offends (group : ReplicaGroup) (topology : Topology) : AdmissionError → Prop
  | uncountable (hchips : 2 ^ 64 ≤ group.chips) :
      Offends group topology (.invalidRequest
        ("replicated job '" ++ group.name ++ "' requests more chips than can be counted"))
  | partialCubes (hcountable : group.chips < 2 ^ 64)
      (hchips : group.chips ≠ topology.cubes * topology.unitChips) :
      Offends group topology
        (.partialCubes group.name (group.chips / topology.cubes) topology.unitChips)
  | unevenParallelism (hchips : group.chips = topology.cubes * topology.unitChips)
      (hpods : ¬topology.cubes ∣ group.parallelism) :
      Offends group topology
        (.unevenParallelism group.name group.parallelism topology.cubes)

/-- The quotient and the remainder together say how many chips there are. -/
theorem isWhole_iff (hvalid : topology.IsValid) {total : Nat} :
    (topology.cubes ∣ total ∧ total / topology.cubes = topology.unitChips) ↔
      total = topology.cubes * topology.unitChips := by
  constructor
  · intro h
    rw [← h.2, Nat.mul_div_cancel' h.1]
  · intro h
    rw [h]
    exact ⟨Nat.dvd_mul_right _ _, Nat.mul_div_cancel_left _ (Topology.cubes_pos hvalid)⟩

theorem unitsChips_lt (hvalid : topology.IsValid) :
    topology.cubes * topology.unitChips < 2 ^ 64 := by
  rw [Topology.cubes_mul_unitChips hvalid]
  exact (Topology.chips_le hvalid).trans_lt (by decide)

/-- A group that passes has pods in every unit of its shape. -/
theorem of_podsPerCube_eq_ok (hvalid : topology.IsValid)
    (h : group.podsPerCube topology = .ok podsPerCube) :
    group.UsesWholeCubes topology ∧ 1 ≤ podsPerCube ∧
      podsPerCube * topology.cubes = group.parallelism := by
  obtain ⟨-, hwhole, hunit, hdivides, hpods⟩ := podsPerCube_eq_ok_iff.mp h
  have hchips : group.chips = topology.cubes * topology.unitChips :=
    (isWhole_iff hvalid).mp ⟨hwhole, hunit⟩
  have hparallelism : podsPerCube * topology.cubes = group.parallelism := by
    rw [← hpods, Nat.div_mul_cancel hdivides]
  refine ⟨⟨hchips, hdivides⟩, Nat.pos_of_ne_zero ?_, hparallelism⟩
  intro hzero
  -- Without pods in a unit there would be no chips, but a shape has some.
  have hnone : group.chips = 0 := by
    rw [chips, ← hparallelism, hzero, Nat.zero_mul, Nat.zero_mul]
  have hpositive := Topology.chips_pos hvalid
  rw [← Topology.cubes_mul_unitChips hvalid, ← hchips, hnone] at hpositive
  exact Nat.lt_irrefl 0 hpositive

theorem exists_podsPerCube_iff (hvalid : topology.IsValid) :
    (∃ podsPerCube, group.podsPerCube topology = .ok podsPerCube) ↔
      group.UsesWholeCubes topology := by
  constructor
  · intro h
    obtain ⟨podsPerCube, h⟩ := h
    exact (of_podsPerCube_eq_ok hvalid h).1
  · intro h
    obtain ⟨hwhole, hunit⟩ := (isWhole_iff hvalid).mpr h.chips
    have hcountable : group.chips ≤ Numeral.max64 := by
      rw [h.chips]
      exact Nat.le_of_lt_succ (unitsChips_lt hvalid)
    exact ⟨_, podsPerCube_eq_ok_iff.mpr ⟨hcountable, hwhole, hunit, h.pods, rfl⟩⟩

theorem podsPerCube_eq_error_iff (hvalid : topology.IsValid) {error : AdmissionError} :
    group.podsPerCube topology = .error error ↔ group.Offends topology error := by
  have hsmall := unitsChips_lt hvalid
  have hwhole : (group.chips % topology.cubes ≠ 0 ∨
      group.chips / topology.cubes ≠ topology.unitChips) ↔
        group.chips ≠ topology.cubes * topology.unitChips := by
    rw [Ne, Ne, ← not_and_or, ← Nat.dvd_iff_mod_eq_zero, isWhole_iff hvalid]
  unfold ReplicaGroup.podsPerCube
  dsimp only
  rw [show group.parallelism * group.podTemplate.chipsPerPod = group.chips from rfl]
  simp only [hwhole]
  constructor
  · intro h
    split_ifs at h with hbeyond hpartial huneven
    · cases h
      exact .uncountable (Nat.succ_le_of_lt hbeyond)
    · cases h
      exact .partialCubes (Nat.lt_succ_of_le (Nat.not_lt.mp hbeyond)) hpartial
    · cases h
      exact .unevenParallelism (not_not.mp hpartial) (mt Nat.dvd_iff_mod_eq_zero.mp huneven)
  · intro h
    cases h with
    | uncountable hchips => rw [if_pos (Nat.lt_of_succ_le hchips)]
    | partialCubes hcountable hchips =>
      rw [if_neg (Nat.not_lt.mpr (Nat.le_of_lt_succ hcountable)), if_pos hchips]
    | unevenParallelism hchips hpods =>
      have hcountable : group.chips ≤ Numeral.max64 := hchips.trans_le (Nat.le_of_lt_succ hsmall)
      rw [if_neg (Nat.not_lt.mpr hcountable), if_neg (not_not.mpr hchips),
        if_pos (mt Nat.dvd_iff_mod_eq_zero.mpr hpods)]

/-- A group that asks for a shape uses whole cubes of it. -/
def IsAdmissible (group : ReplicaGroup) : Prop :=
  ∀ topology, group.podTemplate.AsksFor topology → group.UsesWholeCubes topology

theorem exists_default_iff :
    (∃ defaulted, group.default = .ok defaulted) ↔ group.IsAdmissible := by
  constructor
  · intro h topology hasks
    obtain ⟨defaulted, hdefault⟩ := h
    obtain ⟨podsPerCube, hcount, -⟩ := exists_podsPerCube_of_default hdefault hasks
    exact (of_podsPerCube_eq_ok hasks.isValid hcount).1
  · intro h
    cases hslice : group.podTemplate.requestedSlice? with
    | none => exact ⟨group, default_eq_ok_iff.mpr (.inl ⟨hslice, rfl⟩)⟩
    | some slice =>
      have hasks : group.podTemplate.AsksFor slice.1 :=
        PodTemplate.asksFor_iff.mpr ⟨slice.2, hslice⟩
      obtain ⟨podsPerCube, hcount⟩ := (exists_podsPerCube_iff hasks.isValid).mpr (h _ hasks)
      exact ⟨_, default_eq_ok_iff.mpr (.inr ⟨_, _, podsPerCube, hslice, hcount, rfl⟩)⟩

theorem default_eq_error_iff_offends {error : AdmissionError} :
    group.default = .error error ↔
      ∃ topology, group.podTemplate.AsksFor topology ∧ group.Offends topology error := by
  rw [default_eq_error_iff]
  constructor
  · intro h
    obtain ⟨topology, hasks, hcount⟩ := h
    exact ⟨topology, hasks, (podsPerCube_eq_error_iff hasks.isValid).mp hcount⟩
  · intro h
    obtain ⟨topology, hasks, hoffends⟩ := h
    exact ⟨topology, hasks, (podsPerCube_eq_error_iff hasks.isValid).mpr hoffends⟩

/-- The slice size that is written down for a shape is positive and divides the pods evenly. -/
def AnnouncesUnits (result group : ReplicaGroup) : Prop :=
  ∀ topology, group.podTemplate.AsksFor topology →
    ∃ podsPerCube, 1 ≤ podsPerCube ∧ podsPerCube * topology.cubes = group.parallelism ∧
      result.podTemplate.annotation? Label.sliceSize =
        some (String.ofList (Numeral.digits podsPerCube))

theorem announcesUnits_of_default (hdefault : group.default = .ok defaulted) :
    defaulted.AnnouncesUnits group := by
  intro topology hasks
  obtain ⟨podsPerCube, hcount, rfl⟩ := exists_podsPerCube_of_default hdefault hasks
  obtain ⟨-, hpositive, hpods⟩ := of_podsPerCube_eq_ok hasks.isValid hcount
  exact ⟨podsPerCube, hpositive, hpods, PodTemplate.sliceSize_defaulted ..⟩

end ReplicaGroup

/-! ## Jobs -/

/-- A job is accepted just if it is not queued or each of its groups uses whole cubes of the shape
it asks for. Otherwise the first group that does not is what is wrong with it. Each group of a
queued job that is accepted is told how many pods belong in a cube. No number that is computed on
the way is too large for its word, and no division is by zero. -/
theorem Job.default_admits (job : Job) :
    ((∃ defaulted, job.default = .ok defaulted) ↔
      job.isQueued = false ∨ ∀ group ∈ job.spec.groups, group.IsAdmissible) ∧
    (∀ error, job.default = .error error ↔ job.isQueued = true ∧
      ∃ before group after, job.spec.groups = before ++ group :: after ∧
        (∀ earlier ∈ before, earlier.IsAdmissible) ∧
        ∃ topology, group.podTemplate.AsksFor topology ∧ group.Offends topology error) ∧
    (∀ defaulted, job.isQueued = true → job.default = .ok defaulted →
      List.Forall₂ (fun group result ↦ result.AnnouncesUnits group)
        job.spec.groups defaulted.spec.groups) ∧
    ∀ group ∈ job.spec.groups, (∃ amounts, group.podTemplate.Tallies amounts) ∧
      ∀ topology, group.podTemplate.AsksFor topology → topology.FitsWords := by
  refine ⟨?_, ?_, ?_, ?_⟩
  · simp only [default_eq_ok_iff, ← ReplicaGroup.exists_default_iff]
    rw [← exists_mapM_eq_ok_iff]
    cases job.isQueued <;> simp
  · intro error
    unfold Job.default
    cases hqueued : job.isQueued with
    | false => simp
    | true =>
      rw [if_pos rfl, map_eq_error_iff, mapM_eq_error_iff]
      simp only [ReplicaGroup.exists_default_iff, ReplicaGroup.default_eq_error_iff_offends,
        true_and]
  · intro defaulted hqueued hdefault
    obtain ⟨groups, hgroups, rfl⟩ := exists_groups_of_default hqueued hdefault
    apply (forall₂_of_mapM_eq_ok hgroups).imp
    intro group result hresult
    exact ReplicaGroup.announcesUnits_of_default hresult
  · intro group _
    exact ⟨⟨_, group.podTemplate.tallies_chips⟩, fun topology hasks ↦ hasks.isValid.fitsWords⟩

namespace Sample

/-- A pod is missing to fill the second cube. -/
def shortGroup : ReplicaGroup := { trainingGroup with template.spec.parallelism? := some 31 }

def shortJob : Job := { trainingJob with spec.groups := [trainingGroup, shortGroup] }

theorem trainingGroup_asksFor : trainingGroup.podTemplate.AsksFor trainingShape :=
  PodTemplate.asksFor_iff.mpr ⟨.tpuV7x, by decide +kernel⟩

theorem trainingGroup_isAdmissible : trainingGroup.IsAdmissible := by
  intro topology hasks
  cases trainingGroup_asksFor.unique hasks
  exact ⟨by decide +kernel, by decide⟩

end Sample

/-- The training job is accepted and is told sixteen pods for a cube. With a second group that is a
pod short it is refused. -/
theorem Job.default_admits_sample :
    (∃ defaulted, Sample.trainingJob.default = .ok defaulted) ∧
      Sample.defaultedGroup.AnnouncesUnits Sample.trainingGroup ∧
      Sample.shortJob.default = .error (.partialCubes "workers" 62 64) := by
  obtain ⟨haccepts, -, hannounces, -⟩ := Job.default_admits Sample.trainingJob
  obtain ⟨-, hrefuses, -, -⟩ := Job.default_admits Sample.shortJob
  refine ⟨?_, ?_, ?_⟩
  · apply haccepts.mpr
    right
    intro group hgroup
    rw [List.mem_singleton.mp hgroup]
    exact Sample.trainingGroup_isAdmissible
  · have hgroups := hannounces _ (by decide) Sample.trainingJob_default
    exact (List.forall₂_cons.mp hgroups).1
  · apply (hrefuses _).mpr
    refine ⟨by decide, [Sample.trainingGroup], Sample.shortGroup, [], rfl, ?_, Sample.trainingShape,
      Sample.trainingGroup_asksFor, ?_⟩
    · intro earlier hearlier
      rw [List.mem_singleton.mp hearlier]
      exact Sample.trainingGroup_isAdmissible
    · have hcountable : Sample.shortGroup.chips < 2 ^ 64 := by decide +kernel
      exact .partialCubes hcountable (by decide +kernel)

end SliceControl
