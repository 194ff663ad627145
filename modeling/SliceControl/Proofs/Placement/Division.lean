import SliceControl.Proofs.Placement.Pods

/-!
# Dividing a placement

A placement is cut into replicas unless it places more pods than can be counted, or its pods do not
make up whole replicas. No pod is lost, repeated or moved: in order, the pieces hold just the pods
of the placement, and each of them holds the pods of one replica.

How the pods of a piece are spread over domains is not said here. A domain that holds pods of two
replicas is in both pieces, with a part of its pods in each.
-/

namespace SliceControl.Placement

open Text

variable {placement : Placement} {count : Nat}

/-- Successive pieces of `count` pods that make up a placement. -/
structure IsDivision (placement : Placement) (count : Nat) (pieces : List Placement) : Prop where
  number : pieces.length = podCount placement.domains / count
  levels : ∀ piece ∈ pieces, piece.levels = placement.levels
  occupied : ∀ piece ∈ pieces, ∀ domain ∈ piece.domains, 0 < domain.count.toNat
  size : ∀ piece ∈ pieces, podCount piece.domains = count
  run : ∀ (replica : Nat) (piece : Placement), pieces[replica]? = some piece →
    pods piece.domains =
      (pods placement.domains).extract (replica * count) ((replica + 1) * count)
  conserved : pieces.flatMap (fun piece ↦ pods piece.domains) = pods placement.domains

/-! ## Pieces -/

/-- Pieces that use up all pods hold them in order. -/
theorem flatMap_pods_pieces {number : Nat} {domains : List Domain}
    (htotal : podCount domains = number * count) :
    (pieces count number domains).flatMap pods = pods domains := by
  induction number generalizing domains with
  | zero =>
    rw [Nat.zero_mul, ← length_pods, List.length_eq_zero_iff] at htotal
    rw [htotal]
    rfl
  | succ number ih =>
    obtain ⟨htaken, hleft⟩ := pods_takePods count domains
    have hrest : podCount (takePods count domains).2 = number * count := by
      rw [← length_pods, hleft, List.length_drop, length_pods, htotal, Nat.succ_mul,
        Nat.add_sub_cancel]
    calc (pieces count (number + 1) domains).flatMap pods
        = pods (takePods count domains).1 ++
            (pieces count number (takePods count domains).2).flatMap pods := rfl
      _ = (pods domains).take count ++ (pods domains).drop count := by
        rw [ih hrest, htaken, hleft]
      _ = pods domains := List.take_append_drop count (pods domains)

theorem pods_cut_eq_extract {number replica : Nat} {piece : Placement}
    (hpiece : (placement.cut count number)[replica]? = some piece) :
    pods piece.domains =
      (pods placement.domains).extract (replica * count) ((replica + 1) * count) := by
  rw [pods_cut hpiece, List.extract_eq_take_drop, Nat.succ_mul, Nat.add_sub_cancel_left]

theorem podCount_cut {number replica : Nat} {piece : Placement}
    (htotal : podCount placement.domains = number * count)
    (hpiece : (placement.cut count number)[replica]? = some piece) :
    podCount piece.domains = count := by
  have hreplica : replica < number := by
    have hlt := (List.getElem?_eq_some_iff.mp hpiece).1
    rwa [length_cut] at hlt
  have henough : (replica + 1) * count ≤ number * count := Nat.mul_le_mul_right count hreplica
  rw [Nat.succ_mul] at henough
  rw [← length_pods, pods_cut hpiece, List.length_take, List.length_drop, length_pods, htotal]
  omega

/-- Whole replicas are a division. -/
theorem isDivision_cut (hpositive : 0 < count) {number : Nat}
    (htotal : podCount placement.domains = number * count) :
    placement.IsDivision count (placement.cut count number) where
  number := by rw [length_cut, htotal, Nat.mul_div_cancel _ hpositive]
  levels := by
    intro piece hpiece
    exact (mem_cut_iff.mp hpiece).2
  occupied := by
    intro piece hpiece domain hdomain
    exact Nat.pos_of_ne_zero (count_ne_zero_of_mem_pieces (mem_cut_iff.mp hpiece).1 hdomain)
  size := by
    intro piece hpiece
    obtain ⟨replica, hreplica⟩ := List.mem_iff_getElem?.mp hpiece
    exact podCount_cut htotal hreplica
  run := by
    intro replica piece hpiece
    exact pods_cut_eq_extract hpiece
  conserved := by
    rw [cut, List.flatMap_map]
    exact flatMap_pods_pieces htotal

/-! ## Cutting -/

/-- Cutting fails if the pods cannot be counted, or else if they do not make up whole replicas, and
in every other case it divides the placement. -/
theorem splitByReplica_divides (placement : Placement) (count : Nat) :
    (placement.splitByReplica count = .error .podCountOverflow ↔
      Numeral.max32 < podCount placement.domains) ∧
    (placement.splitByReplica count =
        .error (.unevenReplicas (podCount placement.domains) count) ↔
      podCount placement.domains ≤ Numeral.max32 ∧
        (count = 0 ∨ ¬count ∣ podCount placement.domains)) ∧
    (podCount placement.domains ≤ Numeral.max32 → 0 < count →
      count ∣ podCount placement.domains →
        ∃ pieces, placement.splitByReplica count = .ok pieces ∧
          placement.IsDivision count pieces) := by
  refine ⟨?_, ?_, ?_⟩
  · rw [splitByReplica_eq]
    split_ifs with hbeyond <;> simp [hbeyond]
  · rw [splitByReplica_eq]
    split_ifs with hbeyond huneven
    · apply iff_of_false (by simp)
      omega
    · exact iff_of_true rfl ⟨Nat.le_of_not_lt hbeyond, huneven⟩
    · apply iff_of_false (by simp)
      intro h
      exact huneven h.2
  · intro hcountable hpositive hdivides
    have htotal := (Nat.div_mul_cancel hdivides).symm
    exact ⟨_, splitByReplica_eq_ok hpositive htotal hcountable, isDivision_cut hpositive htotal⟩

namespace Sample

/-- Five pods before and one pod after a domain that has none. -/
def straddlingPlacement : Placement :=
  ⟨[Label.hostname], [⟨["n0"], 5⟩, ⟨["n1"], 0⟩, ⟨["n2"], 1⟩]⟩

end Sample

/-- The first domain of the sample is spread over three replicas of two pods each. -/
theorem splitByReplica_divides_sample :
    ∃ pieces, Sample.straddlingPlacement.splitByReplica 2 = .ok pieces ∧
      Sample.straddlingPlacement.IsDivision 2 pieces ∧
      pieces.map Placement.domains =
        [[⟨["n0"], 2⟩], [⟨["n0"], 2⟩], [⟨["n0"], 1⟩, ⟨["n2"], 1⟩]] := by
  obtain ⟨pieces, hpieces, hdivision⟩ :=
    (splitByReplica_divides Sample.straddlingPlacement 2).2.2 (by decide) (by decide) (by decide)
  refine ⟨pieces, hpieces, hdivision, ?_⟩
  have hcut : Sample.straddlingPlacement.splitByReplica 2 =
      .ok (Sample.straddlingPlacement.cut 2 3) := splitByReplica_eq_ok (by decide) rfl (by decide)
  cases hpieces.symm.trans hcut
  decide

end SliceControl.Placement
