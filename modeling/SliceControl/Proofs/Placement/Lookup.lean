import Mathlib.Data.List.Forall2
import Mathlib.Data.List.Induction
import SliceControl.Proofs.Placement.Pods

/-!
# Partitions of a placement

The partitions of a placement are read off the nodes that its domains name, one domain after the
other. The lookup fails if no level names nodes, or at the first domain that has no value for this
level. Otherwise it lists the labels of the nodes, each at its first appearance, and the empty text
stands among them if the label of some node is not known. Nodes that the placement does not name
are not looked at, and the order of the nodes does not matter.
-/

namespace SliceControl

/-! ## First appearances -/

/-- The members of a list in the order in which they first appear in it, each of them once. -/
structure IsFirstAppearances (members values : List String) : Prop where
  mem_iff : ∀ value, value ∈ members ↔ value ∈ values
  nodup : members.Nodup
  ordered : members.Pairwise fun first second ↦ values.idxOf first < values.idxOf second

/-- One more value is listed unless it has been listed before. -/
theorem distinct_append_singleton (values : List String) (value : String) :
    distinct (values ++ [value]) =
      if value ∈ values then distinct values else distinct values ++ [value] := by
  induction values with
  | nil => rfl
  | cons head rest ih =>
    rw [List.cons_append, distinct_cons, distinct_cons, ih]
    by_cases hrest : value ∈ rest
    · simp [hrest]
    · rw [if_neg hrest]
      by_cases hhead : value = head <;> simp [hrest, hhead]

theorem isFirstAppearances_distinct (values : List String) :
    IsFirstAppearances (distinct values) values := by
  have hordered : (distinct values).Pairwise fun first second ↦
      values.idxOf first < values.idxOf second := by
    -- By induction from the end, as the values are listed.
    induction values using List.reverseRecOn with
    | nil => exact .nil
    | append_singleton values value ih =>
      have hkept : (distinct values).Pairwise fun first second ↦
          (values ++ [value]).idxOf first < (values ++ [value]).idxOf second := by
        refine ih.imp_of_mem fun hfirst hsecond hlt ↦ ?_
        rwa [List.idxOf_append_of_mem (mem_distinct_iff.mp hfirst),
          List.idxOf_append_of_mem (mem_distinct_iff.mp hsecond)]
      rw [distinct_append_singleton]
      split_ifs with hlisted
      · exact hkept
      · refine List.pairwise_append.mpr ⟨hkept, List.pairwise_singleton _ _, ?_⟩
        intro earlier hearlier last hlast
        have hmem : earlier ∈ values := mem_distinct_iff.mp hearlier
        rw [List.mem_singleton.mp hlast, List.idxOf_append_of_mem hmem,
          List.idxOf_append_of_notMem hlisted]
        exact Nat.lt_add_right _ (List.idxOf_lt_length_iff.mpr hmem)
  refine ⟨fun value ↦ mem_distinct_iff, hordered.imp fun hlt heq ↦ ?_, hordered⟩
  rw [heq] at hlt
  exact Nat.lt_irrefl _ hlt

namespace Placement

/-! ## Hosts of domains -/

/-- The node that a domain names: its value at the position of the hostname level. -/
def domainHost? (placement : Placement) (domain : Domain) : Option String :=
  domain.values[placement.levels.idxOf Label.hostname]?

/-- The first domain that names no node, with its position. -/
structure IsFirstUnhosted (placement : Placement) (index : Nat) (domain : Domain) : Prop where
  get : placement.domains[index]? = some domain
  unhosted : placement.domainHost? domain = none
  earlier : ∀ position < index, ∀ other, placement.domains[position]? = some other →
    placement.domainHost? other ≠ none

variable {placement : Placement} {hosts : List String}

theorem levelIndex?_of_mem {level : String} (h : level ∈ placement.levels) :
    placement.levelIndex? level = some (placement.levels.idxOf level) := by
  rw [levelIndex?, List.findIdx?_eq_some_iff_findIdx_eq]
  exact ⟨List.idxOf_lt_length_iff.mpr h, rfl⟩

theorem levelIndex?_of_not_mem {level : String} (h : level ∉ placement.levels) :
    placement.levelIndex? level = none := by
  rw [levelIndex?, List.findIdx?_eq_none_iff]
  intro other hother
  rw [decide_eq_false_iff_not]
  rintro rfl
  exact h hother

theorem placesOn_iff {host : String} :
    placement.placesOn host = true ↔ Label.hostname ∈ placement.levels ∧
      ∃ domain ∈ placement.domains, placement.domainHost? domain = some host := by
  unfold placesOn
  by_cases hlevel : Label.hostname ∈ placement.levels
  · rw [levelIndex?_of_mem hlevel]
    simp [hlevel, domainHost?]
  · rw [levelIndex?_of_not_mem hlevel]
    simp [hlevel]

theorem hosts_of_not_mem (h : Label.hostname ∉ placement.levels) :
    placement.hosts = .error .missingHostnameLevel := by
  rw [hosts, levelIndex?_of_not_mem h]

theorem hosts_of_mem (h : Label.hostname ∈ placement.levels) :
    placement.hosts = placement.domains.zipIdx.mapM
      (placement.hostOf (placement.levels.idxOf Label.hostname)) := by
  rw [hosts, levelIndex?_of_mem h]

theorem hostOf_eq_ok_iff {entry : Domain × Nat} {host : String} :
    placement.hostOf (placement.levels.idxOf Label.hostname) entry = .ok host ↔
      placement.domainHost? entry.1 = some host := by
  unfold hostOf domainHost?
  split <;> simp [*]

theorem hostOf_eq_error_iff {entry : Domain × Nat} {error : PlacementError} :
    placement.hostOf (placement.levels.idxOf Label.hostname) entry = .error error ↔
      placement.domainHost? entry.1 = none ∧
        error = .malformedDomain entry.2 entry.1.values.length placement.levels.length := by
  unfold hostOf domainHost?
  split <;> simp [*, eq_comm]

theorem hosts_eq_error_iff (h : Label.hostname ∈ placement.levels) {error : PlacementError} :
    placement.hosts = .error error ↔ ∃ index domain, placement.IsFirstUnhosted index domain ∧
      error = .malformedDomain index domain.values.length placement.levels.length := by
  rw [hosts_of_mem h, mapM_eq_error_iff_getElem?]
  simp only [hostOf_eq_ok_iff, hostOf_eq_error_iff, List.getElem?_zipIdx, Nat.zero_add]
  constructor
  · intro hfails
    obtain ⟨index, ⟨domain, position⟩, hget, hearlier, hunhosted, rfl⟩ := hfails
    obtain ⟨found, hfound, heq⟩ := Option.map_eq_some_iff.mp hget
    cases heq
    refine ⟨index, domain, ⟨hfound, hunhosted, ?_⟩, rfl⟩
    intro position hposition other hother
    rw [Option.ne_none_iff_exists']
    exact hearlier position hposition (other, position) (by rw [hother, Option.map_some])
  · intro hfirst
    obtain ⟨index, domain, hfirst, rfl⟩ := hfirst
    refine ⟨index, (domain, index), by rw [hfirst.get, Option.map_some], ?_, hfirst.unhosted, rfl⟩
    intro position hposition entry hentry
    obtain ⟨other, hother, rfl⟩ := Option.map_eq_some_iff.mp hentry
    exact Option.ne_none_iff_exists'.mp (hfirst.earlier position hposition other hother)

theorem hosts_eq_missing_iff :
    placement.hosts = .error .missingHostnameLevel ↔ Label.hostname ∉ placement.levels := by
  refine ⟨fun h hlevel ↦ ?_, hosts_of_not_mem⟩
  obtain ⟨index, domain, -, herror⟩ := (hosts_eq_error_iff hlevel).mp h
  cases herror

theorem hosts_eq_malformed_iff {index found expected : Nat} :
    placement.hosts = .error (.malformedDomain index found expected) ↔
      Label.hostname ∈ placement.levels ∧ ∃ domain, placement.IsFirstUnhosted index domain ∧
        found = domain.values.length ∧ expected = placement.levels.length := by
  by_cases hlevel : Label.hostname ∈ placement.levels
  · rw [hosts_eq_error_iff hlevel, and_iff_right hlevel]
    constructor
    · intro h
      obtain ⟨position, domain, hfirst, herror⟩ := h
      cases herror
      exact ⟨domain, hfirst, rfl, rfl⟩
    · rintro ⟨domain, hfirst, rfl, rfl⟩
      exact ⟨index, domain, hfirst, rfl⟩
  · rw [hosts_of_not_mem hlevel]
    simp [hlevel]

theorem exists_hosts_eq_ok (h : Label.hostname ∈ placement.levels)
    (hhosted : ∀ domain ∈ placement.domains, placement.domainHost? domain ≠ none) :
    ∃ hosts, placement.hosts = .ok hosts := by
  rw [hosts_of_mem h, exists_mapM_eq_ok_iff]
  intro entry hentry
  have hmem : entry.1 ∈ placement.domains := by
    rw [← List.zipIdx_map_fst 0 placement.domains]
    exact List.mem_map_of_mem hentry
  simp only [hostOf_eq_ok_iff]
  exact Option.ne_none_iff_exists'.mp (hhosted entry.1 hmem)

theorem mem_levels_of_hosts_eq_ok (h : placement.hosts = .ok hosts) :
    Label.hostname ∈ placement.levels := by
  by_contra hlevel
  rw [hosts_of_not_mem hlevel] at h
  cases h

/-- The hosts are those of the domains, one after the other. -/
theorem map_domainHost?_of_hosts_eq_ok (h : placement.hosts = .ok hosts) :
    placement.domains.map placement.domainHost? = hosts.map some := by
  rw [hosts_of_mem (mem_levels_of_hosts_eq_ok h)] at h
  have hentries := forall₂_of_mapM_eq_ok h
  simp only [hostOf_eq_ok_iff] at hentries
  have hvalues : List.Forall₂ (· = ·)
      (placement.domains.zipIdx.map fun entry ↦ placement.domainHost? entry.1) (hosts.map some) :=
    List.forall₂_map_left_iff.mpr (List.forall₂_map_right_iff.mpr hentries)
  rw [List.forall₂_eq_eq_eq] at hvalues
  calc placement.domains.map placement.domainHost?
      = (placement.domains.zipIdx.map Prod.fst).map placement.domainHost? := by
        rw [List.zipIdx_map_fst]
    _ = placement.domains.zipIdx.map fun entry ↦ placement.domainHost? entry.1 := List.map_map
    _ = hosts.map some := hvalues

/-- The hosts are exactly the nodes that the placement uses. -/
theorem mem_hosts_iff (h : placement.hosts = .ok hosts) {host : String} :
    host ∈ hosts ↔ placement.placesOn host = true := by
  have hmem : host ∈ hosts ↔ some host ∈ placement.domains.map placement.domainHost? := by
    rw [map_domainHost?_of_hosts_eq_ok h, List.mem_map_of_injective fun _ _ ↦ Option.some.inj]
  rw [hmem, List.mem_map, placesOn_iff, and_iff_right (mem_levels_of_hosts_eq_ok h)]

/-! ## Labels of nodes -/

/-- What the label of the node of a name reads as; it is empty if it is not known. -/
inductive ReadsAs (nodes : List Node) (label host : String) : String → Prop
  | labelled {node : Node} {value : String} (hmem : node ∈ nodes) (hname : node.name = host)
      (hvalue : node.label? label = some value) : ReadsAs nodes label host value
  | unlabelled {node : Node} (hmem : node ∈ nodes) (hname : node.name = host)
      (hvalue : node.label? label = none) : ReadsAs nodes label host ""
  | unknown (hnone : ∀ node ∈ nodes, node.name ≠ host) : ReadsAs nodes label host ""

/-- There is no node of the name, or it has no value for the label, or an empty one. -/
def LacksLabel (nodes : List Node) (label host : String) : Prop :=
  (∀ node ∈ nodes, node.name ≠ host) ∨
    ∃ node ∈ nodes, node.name = host ∧ (node.label? label = none ∨ node.label? label = some "")

variable {nodes others : List Node} {label host : String}

theorem readsAs_nodeLabel (hnames : (nodes.map Node.name).Nodup) (label host : String) :
    ReadsAs nodes label host (nodeLabel nodes label host) := by
  unfold nodeLabel
  cases hnode : nodes.find? (·.name = host) with
  | none =>
    refine .unknown fun node hmem ↦ ?_
    simpa using List.find?_eq_none.mp hnode node hmem
  | some node =>
    obtain ⟨hmem, hname⟩ := (find?_eq_some_iff_of_nodup hnames).mp hnode
    rw [Option.bind_some]
    cases hvalue : node.label? label with
    | none => exact .unlabelled hmem hname hvalue
    | some value => exact .labelled hmem hname hvalue

theorem nodeLabel_eq_empty_iff (hnames : (nodes.map Node.name).Nodup) :
    nodeLabel nodes label host = "" ↔ LacksLabel nodes label host := by
  constructor
  · intro hempty
    have hreads := readsAs_nodeLabel hnames label host
    rw [hempty] at hreads
    cases hreads with
    | labelled hmem hname hvalue => exact .inr ⟨_, hmem, hname, .inr hvalue⟩
    | unlabelled hmem hname hvalue => exact .inr ⟨_, hmem, hname, .inl hvalue⟩
    | unknown hnone => exact .inl hnone
  · intro hlacks
    unfold nodeLabel
    rcases hlacks with hnone | ⟨node, hmem, hname, hvalue⟩
    · have hfind : nodes.find? (·.name = host) = none := by
        apply List.find?_eq_none.mpr
        intro node hmem
        simpa using hnone node hmem
      rw [hfind]
      rfl
    · rw [(find?_eq_some_iff_of_nodup hnames).mpr ⟨hmem, hname⟩, Option.bind_some]
      rcases hvalue with hvalue | hvalue <;> rw [hvalue] <;> rfl

/-! ## Lookup -/

theorem partitionIds_eq_error_iff {error : PlacementError} :
    placement.partitionIds nodes label = .error error ↔ placement.hosts = .error error :=
  map_eq_error_iff

/-- Node labels are looked up for the nodes that the placement uses, and for no others. -/
theorem partitionIds_congr (h : ∀ host, placement.placesOn host = true →
      nodes.find? (·.name = host) = others.find? (·.name = host)) (label : String) :
    placement.partitionIds nodes label = placement.partitionIds others label := by
  unfold partitionIds
  cases hhosts : placement.hosts with
  | error error => rfl
  | ok hosts =>
    have hlabels : hosts.map (nodeLabel nodes label) = hosts.map (nodeLabel others label) := by
      apply List.map_congr_left
      intro host hmem
      unfold nodeLabel
      rw [h host ((mem_hosts_iff hhosts).mp hmem)]
    simp only [Except.map, hlabels]

/-- A placement whose levels do not name nodes has no partitions, and neither has one with a domain
that has no value for this level. All other placements have the labels of the nodes that their
domains name, in the order of the domains. Only these nodes are looked at. -/
theorem partitionIds_lookup (placement : Placement) {nodes : List Node}
    (hnames : (nodes.map Node.name).Nodup) (label : String) :
    (placement.partitionIds nodes label = .error .missingHostnameLevel ↔
      Label.hostname ∉ placement.levels) ∧
    (∀ index found expected,
      placement.partitionIds nodes label = .error (.malformedDomain index found expected) ↔
        Label.hostname ∈ placement.levels ∧
          ∃ domain, placement.IsFirstUnhosted index domain ∧ found = domain.values.length ∧
            expected = placement.levels.length) ∧
    (Label.hostname ∈ placement.levels →
      (∀ domain ∈ placement.domains, placement.domainHost? domain ≠ none) →
        ∃ hosts labels ids, placement.partitionIds nodes label = .ok ids ∧
          placement.domains.map placement.domainHost? = hosts.map some ∧
          List.Forall₂ (ReadsAs nodes label) hosts labels ∧ IsFirstAppearances ids labels ∧
          ("" ∈ ids ↔ ∃ host ∈ hosts, LacksLabel nodes label host)) ∧
    ∀ others : List Node, (others.map Node.name).Nodup →
      (∀ node, placement.placesOn node.name = true → (node ∈ nodes ↔ node ∈ others)) →
        placement.partitionIds nodes label = placement.partitionIds others label := by
  refine ⟨?missing, ?malformed, ?listed, ?independent⟩
  case missing => exact partitionIds_eq_error_iff.trans hosts_eq_missing_iff
  case malformed =>
    intro index found expected
    exact partitionIds_eq_error_iff.trans hosts_eq_malformed_iff
  case listed =>
    intro hlevel hhosted
    obtain ⟨hosts, hhosts⟩ := exists_hosts_eq_ok hlevel hhosted
    have hlookup : placement.partitionIds nodes label =
        .ok (distinct (hosts.map (nodeLabel nodes label))) := by
      rw [partitionIds, hhosts]
      rfl
    refine ⟨hosts, hosts.map (nodeLabel nodes label), _, hlookup,
      map_domainHost?_of_hosts_eq_ok hhosts, ?_, isFirstAppearances_distinct _, ?_⟩
    · rw [List.forall₂_map_right_iff, List.forall₂_same]
      exact fun host _ ↦ readsAs_nodeLabel hnames label host
    · simp only [mem_distinct_iff, List.mem_map, nodeLabel_eq_empty_iff hnames]
  case independent =>
    intro others hothers hagree
    apply partitionIds_congr
    intro host hhost
    ext node
    rw [find?_eq_some_iff_of_nodup hnames, find?_eq_some_iff_of_nodup hothers]
    constructor
    · rintro ⟨hmem, rfl⟩
      exact ⟨(hagree node hhost).mp hmem, rfl⟩
    · rintro ⟨hmem, rfl⟩
      exact ⟨(hagree node hhost).mpr hmem, rfl⟩

end Placement

namespace Sample

def nodeWith (name : String) (labels : List (String × String)) : Node :=
  ⟨"v1", "Node", { Metadata.named name with labels := SortedMap.ofList labels }⟩

/-- The node `n1` is used twice, `n2` has no rack and `n3` is not known. -/
def spreadPlacement : Placement :=
  ⟨["zone", Label.hostname],
    [⟨["z", "n1"], 1⟩, ⟨["z", "n0"], 2⟩, ⟨["z", "n1"], 1⟩, ⟨["z", "n2"], 1⟩, ⟨["z", "n3"], 1⟩]⟩

def spreadNodes : List Node :=
  [nodeWith "n0" [("rack", "r0")], nodeWith "n1" [("rack", "r1")], nodeWith "n2" []]

end Sample

/-- The nodes may come in another order and with nodes that are not used. -/
theorem Placement.partitionIds_lookup_sample :
    (Sample.spreadNodes.map Node.name).Nodup ∧
      Sample.spreadPlacement.partitionIds Sample.spreadNodes "rack" = .ok ["r1", "r0", ""] ∧
      Sample.spreadPlacement.partitionIds
        (Sample.nodeWith "n4" [("rack", "r4")] :: Sample.spreadNodes.reverse) "rack" =
          .ok ["r1", "r0", ""] := by
  have hnames : (Sample.spreadNodes.map Node.name).Nodup := by decide
  obtain ⟨-, -, -, hindependent⟩ :=
    Placement.partitionIds_lookup Sample.spreadPlacement hnames "rack"
  have hlisted : Sample.spreadPlacement.partitionIds Sample.spreadNodes "rack" =
      .ok ["r1", "r0", ""] := by
    decide +kernel
  refine ⟨hnames, hlisted, ?_⟩
  rw [← hlisted]
  refine (hindependent _ (by decide) fun node hplaced ↦ ?_).symm
  rw [List.mem_cons, List.mem_reverse, or_iff_right]
  rintro rfl
  exact absurd hplaced (by decide +kernel)

end SliceControl
