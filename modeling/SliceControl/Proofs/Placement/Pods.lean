import SliceControl.Placement
import SliceControl.Proofs.Sequence

/-!
# The pods of a placement

A list of domains stands for a list of pods, each at the place of its domain. Cutting domains cuts
this list: the pieces of a placement are successive runs of its pods. Which partitions a piece uses
depends on its pods alone.
-/

namespace SliceControl

open Text

/-! ## Distinct members -/

theorem distinct_cons (head : String) (rest : List String) :
    distinct (head :: rest) = head :: (distinct rest).filter (· ≠ head) := rfl

theorem mem_distinct_iff {value : String} {values : List String} :
    value ∈ distinct values ↔ value ∈ values := by
  induction values with
  | nil => rfl
  | cons head rest ih =>
    rw [distinct_cons, List.mem_cons, List.mem_filter, ih, List.mem_cons]
    by_cases hsame : value = head <;> simp [hsame]

/-- A member that is repeated on the spot counts once. -/
theorem distinct_replicate_append (count : Nat) (value : String) (rest : List String) :
    distinct (List.replicate (count + 1) value ++ rest) = distinct (value :: rest) := by
  induction count with
  | zero => rfl
  | succ count ih =>
    rw [List.replicate_succ, List.cons_append, distinct_cons, ih, distinct_cons]
    simp

namespace Placement

/-- The places of the pods of a list of domains, in order. -/
def pods (domains : List Domain) : List (List String) :=
  domains.flatMap fun domain ↦ List.replicate domain.count.toNat domain.values

theorem pods_cons (domain : Domain) (rest : List Domain) :
    pods (domain :: rest) = List.replicate domain.count.toNat domain.values ++ pods rest := rfl

theorem length_pods (domains : List Domain) : (pods domains).length = podCount domains := by
  induction domains with
  | nil => rfl
  | cons domain rest ih => simp [pods_cons, ih, podCount]

theorem toNat_ofNat_of_lt {count : Nat} {bound : UInt32} (h : count < bound.toNat) :
    (UInt32.ofNat count).toNat = count :=
  UInt32.toNat_ofNat_of_lt (Nat.lt_trans h bound.toNat_lt)

theorem pods_takePods (count : Nat) (domains : List Domain) :
    pods (takePods count domains).1 = (pods domains).take count ∧
      pods (takePods count domains).2 = (pods domains).drop count := by
  induction domains generalizing count with
  | nil => simp [takePods, pods]
  | cons domain rest ih =>
    unfold takePods
    split_ifs with hzero hfits hnone
    · simp [hzero, pods]
    · obtain ⟨htaken, hleft⟩ := ih (count - domain.count.toNat)
      have hempty : domain.count.toNat = 0 := by simp [hnone]
      simp only [hempty, Nat.sub_zero] at htaken hleft ⊢
      simp [pods_cons, hempty, htaken, hleft]
    · obtain ⟨htaken, hleft⟩ := ih (count - domain.count.toNat)
      simp [pods_cons, htaken, hleft, List.take_append, List.drop_append,
        Nat.min_eq_right hfits, Nat.sub_eq_zero_of_le hfits]
    · have hcount : count < domain.count.toNat := by omega
      have hrest : domain.count.toNat - count < domain.count.toNat := by omega
      have hspent : count - domain.count.toNat = 0 := Nat.sub_eq_zero_of_le (Nat.le_of_lt hcount)
      constructor
      · simp [pods, toNat_ofNat_of_lt hcount, List.take_append, hspent,
          Nat.min_eq_left (Nat.le_of_lt hcount)]
      · simp [pods, toNat_ofNat_of_lt hrest, List.drop_append, hspent]

/-- The pieces of a placement are successive runs of its pods. -/
theorem map_pods_pieces (count number : Nat) (domains : List Domain) :
    (pieces count number domains).map pods =
      (List.range number).map fun index ↦ ((pods domains).drop (index * count)).take count := by
  induction number generalizing domains with
  | zero => rfl
  | succ number ih =>
    obtain ⟨htaken, hleft⟩ := pods_takePods count domains
    rw [List.range_succ_eq_map]
    simp only [pieces, List.map_cons, ih, htaken, hleft, Nat.zero_mul, List.drop_zero,
      List.map_map]
    congr 1
    apply List.map_congr_left
    intro index _
    simp [Nat.succ_mul, List.drop_drop, Nat.add_comm]

/-- A piece has no domains without pods. -/
theorem count_ne_zero_of_mem_takePods {count : Nat} {domains : List Domain} {domain : Domain}
    (h : domain ∈ (takePods count domains).1) : domain.count.toNat ≠ 0 := by
  induction domains generalizing count with
  | nil => simp [takePods] at h
  | cons head rest ih =>
    unfold takePods at h
    split_ifs at h with hzero hfits hnone
    · exact absurd h List.not_mem_nil
    · exact ih h
    · rcases List.mem_cons.mp h with rfl | h
      · intro hcount
        exact hnone (UInt32.toNat_inj.mp hcount)
      · exact ih h
    · rw [List.mem_singleton.mp h, toNat_ofNat_of_lt (by omega : count < head.count.toNat)]
      exact hzero

theorem count_ne_zero_of_mem_pieces {count number : Nat} {domains piece : List Domain}
    (hpiece : piece ∈ pieces count number domains) {domain : Domain} (h : domain ∈ piece) :
    domain.count.toNat ≠ 0 := by
  induction number generalizing domains with
  | zero => simp [pieces] at hpiece
  | succ number ih =>
    rcases List.mem_cons.mp hpiece with rfl | hrest
    · exact count_ne_zero_of_mem_takePods h
    · exact ih hrest

/-! ## Hosts -/

/-- The value at a position of a place, if there is one. -/
def valueAt (index : Nat) (values : List String) : String := (values[index]?).getD ""

/-- The hosts of the pods, in order. -/
def podHosts (placement : Placement) : List String :=
  match placement.levelIndex? Label.hostname with
  | some index => (pods placement.domains).map (valueAt index)
  | none => []

section Hosts

variable {placement : Placement} {index : Nat}

theorem podHosts_eq (hlevel : placement.levelIndex? Label.hostname = some index) :
    placement.podHosts = (pods placement.domains).map (valueAt index) := by
  rw [podHosts, hlevel]

theorem length_podHosts (hlevel : placement.levelIndex? Label.hostname = some index) :
    placement.podHosts.length = podCount placement.domains := by
  rw [podHosts_eq hlevel, List.length_map, length_pods]

/-- The hosts of the pods of one replica, where each has `count` pods. -/
def replicaHosts (placement : Placement) (count replica : Nat) : List String :=
  (placement.podHosts.drop (replica * count)).take count

/-- As long as there are pods, every replica has all of its own. -/
theorem length_replicaHosts (hlevel : placement.levelIndex? Label.hostname = some index)
    {count replicas replica : Nat} (htotal : podCount placement.domains = replicas * count)
    (hreplica : replica < replicas) : (placement.replicaHosts count replica).length = count := by
  have henough : (replica + 1) * count ≤ replicas * count := Nat.mul_le_mul_right count hreplica
  rw [replicaHosts, List.length_take, List.length_drop, length_podHosts hlevel, htotal]
  rw [Nat.add_mul] at henough
  omega

theorem mem_podHosts_of_mem_replicaHosts {count replica : Nat} {host : String}
    (h : host ∈ placement.replicaHosts count replica) : host ∈ placement.podHosts :=
  List.mem_of_mem_drop (List.mem_of_mem_take h)

/-- Every pod belongs to a replica. -/
theorem exists_mem_replicaHosts {count replicas : Nat}
    (htotal : podCount placement.domains = replicas * count) {host : String}
    (hhost : host ∈ placement.podHosts) :
    ∃ replica < replicas, host ∈ placement.replicaHosts count replica := by
  cases hlevel : placement.levelIndex? Label.hostname with
  | none => simp [podHosts, hlevel] at hhost
  | some index =>
    obtain ⟨position, hposition, hget⟩ := List.mem_iff_getElem.mp hhost
    rw [length_podHosts hlevel, htotal] at hposition
    have hpositive : 0 < count := Nat.pos_of_ne_zero fun hzero ↦ by simp [hzero] at hposition
    have hreplica : position / count < replicas := (Nat.div_lt_iff_lt_mul hpositive).mpr hposition
    have hwithin : position % count < count := Nat.mod_lt position hpositive
    refine ⟨position / count, hreplica, List.mem_iff_getElem?.mpr ⟨position % count, ?_⟩⟩
    rw [replicaHosts, List.getElem?_take_of_lt hwithin, List.getElem?_drop,
      Nat.div_add_mod' position count, ← hget]
    exact List.getElem?_eq_getElem _

theorem hosts_eq_ok (hlevel : placement.levelIndex? Label.hostname = some index)
    (hvalues : ∀ domain ∈ placement.domains, index < domain.values.length) :
    placement.hosts = .ok (placement.domains.map fun domain ↦ valueAt index domain.values) := by
  have hhost : ∀ entry ∈ placement.domains.zipIdx,
      placement.hostOf index entry = .ok (valueAt index entry.1.values) := by
    rintro ⟨domain, position⟩ hentry
    have hmem : domain ∈ placement.domains := (List.mem_zipIdx' hentry).2 ▸ List.getElem_mem _
    simp [hostOf, valueAt, List.getElem?_eq_getElem (hvalues domain hmem)]
  unfold hosts
  rw [hlevel]
  dsimp only
  rw [mapM_eq_ok_of_mem hhost]
  congr 1
  calc placement.domains.zipIdx.map (fun entry ↦ valueAt index entry.1.values)
      = (placement.domains.zipIdx.map Prod.fst).map fun domain ↦ valueAt index domain.values := by
        rw [List.map_map]
        rfl
    _ = placement.domains.map fun domain ↦ valueAt index domain.values := by
        rw [List.zipIdx_map_fst]

/-- Every domain names a host. -/
def NamesHosts (placement : Placement) : Prop :=
  ∃ index, placement.levelIndex? Label.hostname = some index ∧
    ∀ domain ∈ placement.domains, index < domain.values.length

theorem namesHosts_of_hosts_eq_ok {hosts : List String} (h : placement.hosts = .ok hosts) :
    placement.NamesHosts := by
  unfold Placement.hosts at h
  cases hlevel : placement.levelIndex? Label.hostname with
  | none => rw [hlevel] at h; cases h
  | some index =>
    rw [hlevel] at h
    refine ⟨index, hlevel, fun domain hmem ↦ ?_⟩
    obtain ⟨position, hposition⟩ := List.mem_iff_getElem?.mp hmem
    have hentry : (domain, position) ∈ placement.domains.zipIdx :=
      List.mem_zipIdx_iff_getElem?.mpr hposition
    obtain ⟨host, -, hhost⟩ := exists_of_mapM_eq_ok h hentry
    unfold hostOf at hhost
    split at hhost
    · next hvalue => exact (List.getElem?_eq_some_iff.mp hvalue).1
    · cases hhost

/-- Pods are counted once for each domain, as far as distinct values go. -/
theorem distinct_map_pods {domains : List Domain}
    (hcounts : ∀ domain ∈ domains, domain.count.toNat ≠ 0) (value : List String → String) :
    distinct ((pods domains).map value) =
      distinct (domains.map fun domain ↦ value domain.values) := by
  induction domains with
  | nil => rfl
  | cons domain rest ih =>
    obtain ⟨count, hcount⟩ := Nat.exists_eq_succ_of_ne_zero (hcounts domain List.mem_cons_self)
    have hrest := ih fun other hother ↦ hcounts other (List.mem_cons_of_mem _ hother)
    rw [pods_cons, hcount, List.map_append, List.map_replicate, distinct_replicate_append,
      List.map_cons, distinct_cons, distinct_cons, hrest]

/-- The partitions of a placement without empty domains are those of the hosts of its pods. -/
theorem NamesHosts.partitionIds_eq_ok (h : placement.NamesHosts)
    (hcounts : ∀ domain ∈ placement.domains, domain.count.toNat ≠ 0)
    (nodes : List Node) (label : String) :
    placement.partitionIds nodes label =
      .ok (distinct (placement.podHosts.map (nodeLabel nodes label))) := by
  obtain ⟨index, hlevel, hvalues⟩ := h
  have hdistinct : distinct (placement.podHosts.map (nodeLabel nodes label)) =
      distinct ((placement.domains.map fun domain ↦ valueAt index domain.values).map
        (nodeLabel nodes label)) := by
    rw [podHosts_eq hlevel, List.map_map, List.map_map]
    exact distinct_map_pods hcounts (nodeLabel nodes label ∘ valueAt index)
  rw [partitionIds, hosts_eq_ok hlevel hvalues, hdistinct]
  rfl

/-! ## Pieces as placements -/

/-- The first `number` pieces of `count` pods. -/
def cut (placement : Placement) (count number : Nat) : List Placement :=
  (pieces count number placement.domains).map fun domains ↦ ⟨placement.levels, domains⟩

theorem mem_cut_iff {count number : Nat} {piece : Placement} :
    piece ∈ placement.cut count number ↔
      piece.domains ∈ pieces count number placement.domains ∧ piece.levels = placement.levels := by
  simp only [cut, List.mem_map]
  constructor
  · rintro ⟨domains, hmem, rfl⟩
    exact ⟨hmem, rfl⟩
  · rintro ⟨hmem, hlevels⟩
    exact ⟨piece.domains, hmem, by rw [← hlevels]⟩

theorem levelIndex?_of_mem_cut {count number : Nat} {piece : Placement}
    (hpiece : piece ∈ placement.cut count number) (level : String) :
    piece.levelIndex? level = placement.levelIndex? level := by
  rw [levelIndex?, (mem_cut_iff.mp hpiece).2]
  rfl

theorem length_cut (placement : Placement) (count number : Nat) :
    (placement.cut count number).length = number := by
  have hlength := congrArg List.length (map_pods_pieces count number placement.domains)
  simpa [cut] using hlength

/-- Pieces are numbered like replicas. -/
theorem map_snd_zipIdx_cut (placement : Placement) (count number : Nat) :
    (placement.cut count number).zipIdx.map Prod.snd = List.range number := by
  rw [List.zipIdx_map_snd, length_cut, List.range_eq_range']

/-- A piece is the run of pods at its own position. -/
theorem pods_cut {count number replica : Nat} {piece : Placement}
    (hpiece : (placement.cut count number)[replica]? = some piece) :
    pods piece.domains = ((pods placement.domains).drop (replica * count)).take count := by
  rw [cut, List.getElem?_map] at hpiece
  obtain ⟨domains, hdomains, rfl⟩ := Option.map_eq_some_iff.mp hpiece
  have hpods := congrArg (·[replica]?) (map_pods_pieces count number placement.domains)
  simp only [List.getElem?_map, hdomains, Option.map_some] at hpods
  obtain ⟨position, hposition, hrun⟩ := Option.map_eq_some_iff.mp hpods.symm
  obtain ⟨hlt, hreplica⟩ := List.getElem?_eq_some_iff.mp hposition
  rw [List.getElem_range] at hreplica
  subst hreplica
  exact hrun.symm

/-- The hosts of a piece are those of its replica. -/
theorem podHosts_cut (hlevel : placement.levelIndex? Label.hostname = some index)
    {count number replica : Nat} {piece : Placement}
    (hpiece : (placement.cut count number)[replica]? = some piece) :
    piece.podHosts = placement.replicaHosts count replica := by
  have hmem : piece ∈ placement.cut count number := List.mem_of_getElem? hpiece
  calc piece.podHosts
      = (pods piece.domains).map (valueAt index) :=
        podHosts_eq ((levelIndex?_of_mem_cut hmem _).trans hlevel)
    _ = (((pods placement.domains).map (valueAt index)).drop (replica * count)).take count := by
        rw [pods_cut hpiece, List.map_take, List.map_drop]
    _ = placement.replicaHosts count replica := by rw [replicaHosts, podHosts_eq hlevel]

theorem totalPods_eq_ok (hcountable : podCount placement.domains ≤ Numeral.max32) :
    placement.totalPods = .ok (podCount placement.domains) := if_pos hcountable

/-- Cutting in closed form: the pods have to be countable, and they have to make up whole replicas.
-/
theorem splitByReplica_eq (placement : Placement) (count : Nat) :
    placement.splitByReplica count =
      if Numeral.max32 < podCount placement.domains then .error .podCountOverflow
      else if count = 0 ∨ ¬count ∣ podCount placement.domains then
        .error (.unevenReplicas (podCount placement.domains) count)
      else .ok (placement.cut count (podCount placement.domains / count)) := by
  unfold splitByReplica
  by_cases hcountable : podCount placement.domains ≤ Numeral.max32
  · rw [totalPods_eq_ok hcountable, if_neg (Nat.not_lt.mpr hcountable)]
    simp only [Nat.dvd_iff_mod_eq_zero]
    show (if _ then _ else _) = _
    split_ifs <;> rfl
  · rw [totalPods, if_neg hcountable, if_pos (Nat.lt_of_not_le hcountable)]
    rfl

theorem splitByReplica_eq_ok_iff {count : Nat} {pieces : List Placement} :
    placement.splitByReplica count = .ok pieces ↔
      podCount placement.domains ≤ Numeral.max32 ∧ 0 < count ∧
        count ∣ podCount placement.domains ∧
        placement.cut count (podCount placement.domains / count) = pieces := by
  rw [splitByReplica_eq]
  split_ifs with hbeyond huneven
  · apply iff_of_false (by simp)
    omega
  · apply iff_of_false (by simp)
    rintro ⟨-, hpositive, hdivides, -⟩
    exact huneven.elim (Nat.ne_of_gt hpositive) fun hnot ↦ hnot hdivides
  · rw [not_or, not_not] at huneven
    rw [Except.ok.injEq]
    constructor
    · intro hpieces
      exact ⟨Nat.le_of_not_lt hbeyond, Nat.pos_of_ne_zero huneven.1, huneven.2, hpieces⟩
    · intro h
      exact h.2.2.2

/-- A placement whose pods make up whole replicas can be cut. -/
theorem splitByReplica_eq_ok {count replicas : Nat} (hpositive : 0 < count)
    (htotal : podCount placement.domains = replicas * count)
    (hcountable : podCount placement.domains ≤ Numeral.max32) :
    placement.splitByReplica count = .ok (placement.cut count replicas) := by
  apply splitByReplica_eq_ok_iff.mpr
  refine ⟨hcountable, hpositive, ⟨replicas, htotal.trans (Nat.mul_comm replicas count)⟩, ?_⟩
  rw [htotal, Nat.mul_div_cancel _ hpositive]

/-- A placement that can be cut is made up of whole replicas. -/
theorem of_splitByReplica_eq_ok {count : Nat} {pieces : List Placement}
    (h : placement.splitByReplica count = .ok pieces) :
    ∃ replicas, podCount placement.domains = replicas * count ∧
      pieces = placement.cut count replicas := by
  obtain ⟨-, -, hdivides, hpieces⟩ := splitByReplica_eq_ok_iff.mp h
  exact ⟨_, (Nat.div_mul_cancel hdivides).symm, hpieces.symm⟩

end Hosts

end Placement

end SliceControl
