import SliceControl.Proofs.Json.Records

/-!
# Pod templates read back

Each record of a pod template reads back from what it was written as, if nothing that it keeps aside
has the name of a member that it knows. Decoding makes sure of that, and it keeps aside only what
was there.

The tree of records is of bounded height, so what is written for it is tidy once what is kept aside
is.
-/

namespace SliceControl

open Json

variable {good : Nat → Json → Prop} {reals : Bool} {depth : Nat} {value : Json}

/-! ## Terms on nodes -/

namespace Requirement

theorem ofJson_toJson (requirement : Requirement) :
    ofJson requirement.toJson = .ok requirement := by
  obtain ⟨key, operator, values⟩ := requirement
  obtain ⟨members, hmembers, hget⟩ := exists_decodeRecord "NodeSelectorRequirement" fields
    ([("key", .string key), ("operator", .string operator)] ++
      unlessEmpty "values" values.isEmpty (.ofStrings values))
  have hkey : members.get? "key" = some (.string key) := by simp [hget]
  have hoperator : members.get? "operator" = some (.string operator) := by simp [hget]
  have hvalues : Reads members "values" decodeStrings [] values :=
    reads_strings (by simp [hget])
  obtain ⟨found, hfound, hread⟩ := hvalues
  simp only [ofJson, bind_eq_ok_iff]
  exact ⟨members, hmembers, _, decodeMember_eq_ok_some hkey rfl, _,
    decodeMember_eq_ok_some hoperator rfl, found, hfound, _, rfl, _, rfl, by rw [hread]; rfl⟩

theorem tidy_toJson (requirement : Requirement) (hdepth : 2 ≤ depth) :
    requirement.toJson.Tidy reals depth := by
  apply Tidy.ofMembers (by omega)
  have hvalues : (ofStrings requirement.values).Tidy reals (depth - 1) := .ofStrings _ (by omega)
  simp [or_imp, forall_and, hvalues]

end Requirement

namespace SelectorTerm

/-- What a term keeps aside is good and does not take the place of its expressions. -/
def Kept (good : Nat → Json → Prop) (depth : Nat) (term : SelectorTerm) : Prop :=
  Keeps good depth ["matchExpressions"] term.extra

theorem kept_of_ofJson {term : SelectorTerm} (hgood : IsHereditary good) (h : good depth value)
    (hterm : ofJson value = .ok term) : term.Kept good depth := by
  simp only [ofJson, bind_eq_ok_iff] at hterm
  obtain ⟨members, hmembers, expressions, -, hresult⟩ := hterm
  cases hresult
  exact keeps_unknownMembers (good_of_decodeMembers hgood h hmembers) _

theorem ofJson_toJson {term : SelectorTerm} (h : term.Kept good depth) :
    ofJson term.toJson = .ok term := by
  obtain ⟨expressions, extra⟩ := term
  obtain ⟨members, hmembers, hget, hextra⟩ := h.exists_decodeMembers "NodeSelectorTerm"
    (unlessEmpty "matchExpressions" expressions.isEmpty
      (.array (expressions.map Requirement.toJson))) (by simp)
  have hexpressions : Reads members "matchExpressions" (decodeList Requirement.ofJson) []
      expressions := reads_list (by simp [hget]) fun _ _ ↦ Requirement.ofJson_toJson _
  obtain ⟨found, hfound, hread⟩ := hexpressions
  simp only [ofJson, bind_eq_ok_iff]
  exact ⟨members, hmembers, found, hfound, by rw [hread, hextra]; rfl⟩

theorem tidy_toJson {term : SelectorTerm} (h : term.Kept (Tidy reals) depth)
    (hdepth : 4 ≤ depth) : term.toJson.Tidy reals depth := by
  have hexpressions : (Json.array (term.expressions.map Requirement.toJson)).Tidy reals
      (depth - 1) := by
    apply Tidy.array (by omega)
    rw [List.forall_mem_map]
    exact fun requirement _ ↦ requirement.tidy_toJson (by omega)
  exact .withExtra (by omega) h (by simp [hexpressions])

end SelectorTerm

namespace NodeSelector

/-- Every term of a selector is kept. -/
def Kept (good : Nat → Json → Prop) (depth : Nat) (selector : NodeSelector) : Prop :=
  ∀ term ∈ selector.terms, term.Kept good (depth - 1 - 1)

theorem kept_empty (good : Nat → Json → Prop) (depth : Nat) :
    NodeSelector.empty.Kept good depth :=
  fun _ h ↦ (by cases h)

theorem kept_of_ofJson {selector : NodeSelector} (hgood : IsHereditary good)
    (h : good depth value) (hselector : ofJson value = .ok selector) :
    selector.Kept good depth := by
  simp only [ofJson, bind_eq_ok_iff] at hselector
  obtain ⟨members, hmembers, terms, hterms, hresult⟩ := hselector
  cases hresult
  exact of_decodeList (good_of_decodeRecord hgood h hmembers) hgood hterms
    (SelectorTerm.kept_of_ofJson hgood)

theorem ofJson_toJson {selector : NodeSelector} (h : selector.Kept good depth) :
    ofJson selector.toJson = .ok selector := by
  obtain ⟨terms⟩ := selector
  obtain ⟨members, hmembers, hget⟩ := exists_decodeRecord "NodeSelector" fields
    [("nodeSelectorTerms", .array (terms.map SelectorTerm.toJson))]
  have hterms : members.get? "nodeSelectorTerms" =
      some (.array (terms.map SelectorTerm.toJson)) := by
    simp [hget]
  have hread : decodeList SelectorTerm.ofJson (.array (terms.map SelectorTerm.toJson)) =
      .ok terms :=
    decodeList_map fun term hterm ↦ SelectorTerm.ofJson_toJson (h term hterm)
  simp only [ofJson, bind_eq_ok_iff]
  exact ⟨members, hmembers, _, decodeMember_eq_ok_some hterms hread, rfl⟩

theorem tidy_toJson {selector : NodeSelector} (h : selector.Kept (Tidy reals) depth)
    (hdepth : 6 ≤ depth) : selector.toJson.Tidy reals depth := by
  apply Tidy.ofMembers (by omega)
  rw [List.forall_mem_singleton]
  apply Tidy.array (by omega)
  rw [List.forall_mem_map]
  exact fun term hterm ↦ SelectorTerm.tidy_toJson (h term hterm) (by omega)

end NodeSelector

/-! ## Affinity -/

namespace NodeAffinity

/-- What is kept aside is good, in the affinity and in its selector. -/
structure Kept (good : Nat → Json → Prop) (depth : Nat) (affinity : NodeAffinity) : Prop where
  extra : Keeps good depth [requiredKey] affinity.extra
  required : ∀ selector, affinity.required = some selector → selector.Kept good (depth - 1)

theorem kept_empty (good : Nat → Json → Prop) (depth : Nat) :
    NodeAffinity.empty.Kept good depth :=
  ⟨keeps_empty good depth _, fun _ h ↦ (by cases h)⟩

theorem kept_of_ofJson {affinity : NodeAffinity} (hgood : IsHereditary good)
    (h : good depth value) (haffinity : ofJson value = .ok affinity) :
    affinity.Kept good depth := by
  simp only [ofJson, bind_eq_ok_iff] at haffinity
  obtain ⟨members, hmembers, required, hrequired, hresult⟩ := haffinity
  cases hresult
  have hgoods := good_of_decodeMembers hgood h hmembers
  refine ⟨keeps_unknownMembers hgoods _, fun selector ↦ ?_⟩
  exact of_decodeNullable hgoods hrequired (NodeSelector.kept_of_ofJson hgood)

theorem ofJson_toJson {affinity : NodeAffinity} (h : affinity.Kept good depth) :
    ofJson affinity.toJson = .ok affinity := by
  obtain ⟨required, extra⟩ := affinity
  obtain ⟨members, hmembers, hget, hextra⟩ := h.extra.exists_decodeMembers "NodeAffinity"
    (optional requiredKey (required.map NodeSelector.toJson)) (by simp +contextual)
  have hrequired : Reads members requiredKey (decodeNullable NodeSelector.ofJson) none required :=
    reads_optional (by simp [hget]) (fun _ ↦ Json.noConfusion)
      fun selector hselector ↦ NodeSelector.ofJson_toJson (h.required selector hselector)
  obtain ⟨found, hfound, hread⟩ := hrequired
  simp only [ofJson, bind_eq_ok_iff]
  exact ⟨members, hmembers, found, hfound, by rw [hread, hextra]; rfl⟩

theorem tidy_toJson {affinity : NodeAffinity} (h : affinity.Kept (Tidy reals) depth)
    (hdepth : 7 ≤ depth) : affinity.toJson.Tidy reals depth := by
  apply Tidy.withExtra (by omega) h.extra
  have hrequired (selector : NodeSelector) (hselector : affinity.required = some selector) :
      selector.toJson.Tidy reals (depth - 1) :=
    NodeSelector.tidy_toJson (h.required selector hselector) (by omega)
  simp +contextual [hrequired]

end NodeAffinity

namespace Affinity

/-- What is kept aside is good, in the affinity and in its part on nodes. -/
structure Kept (good : Nat → Json → Prop) (depth : Nat) (affinity : Affinity) : Prop where
  extra : Keeps good depth ["nodeAffinity"] affinity.extra
  nodeAffinity : ∀ nodes, affinity.nodeAffinity = some nodes → nodes.Kept good (depth - 1)

theorem kept_empty (good : Nat → Json → Prop) (depth : Nat) : Affinity.empty.Kept good depth :=
  ⟨keeps_empty good depth _, fun _ h ↦ (by cases h)⟩

theorem kept_of_ofJson {affinity : Affinity} (hgood : IsHereditary good) (h : good depth value)
    (haffinity : ofJson value = .ok affinity) : affinity.Kept good depth := by
  simp only [ofJson, bind_eq_ok_iff] at haffinity
  obtain ⟨members, hmembers, nodes, hnodes, hresult⟩ := haffinity
  cases hresult
  have hgoods := good_of_decodeMembers hgood h hmembers
  refine ⟨keeps_unknownMembers hgoods _, fun nodes ↦ ?_⟩
  exact of_decodeNullable hgoods hnodes (NodeAffinity.kept_of_ofJson hgood)

theorem ofJson_toJson {affinity : Affinity} (h : affinity.Kept good depth) :
    ofJson affinity.toJson = .ok affinity := by
  obtain ⟨nodes, extra⟩ := affinity
  obtain ⟨members, hmembers, hget, hextra⟩ := h.extra.exists_decodeMembers "Affinity"
    (optional "nodeAffinity" (nodes.map NodeAffinity.toJson)) (by simp +contextual)
  have hnodes : Reads members "nodeAffinity" (decodeNullable NodeAffinity.ofJson) none nodes :=
    reads_optional (by simp [hget]) (fun _ ↦ Json.noConfusion)
      fun affinity haffinity ↦ NodeAffinity.ofJson_toJson (h.nodeAffinity affinity haffinity)
  obtain ⟨found, hfound, hread⟩ := hnodes
  simp only [ofJson, bind_eq_ok_iff]
  exact ⟨members, hmembers, found, hfound, by rw [hread, hextra]; rfl⟩

theorem tidy_toJson {affinity : Affinity} (h : affinity.Kept (Tidy reals) depth)
    (hdepth : 8 ≤ depth) : affinity.toJson.Tidy reals depth := by
  apply Tidy.withExtra (by omega) h.extra
  have hnodes (nodes : NodeAffinity) (hsome : affinity.nodeAffinity = some nodes) :
      nodes.toJson.Tidy reals (depth - 1) :=
    NodeAffinity.tidy_toJson (h.nodeAffinity nodes hsome) (by omega)
  simp +contextual [hnodes]

end Affinity

/-! ## Containers -/

namespace ResourceRequirements

/-- Quantities are kept as they are, and they are good. -/
structure Kept (good : Nat → Json → Prop) (depth : Nat) (resources : ResourceRequirements) :
    Prop where
  limits : ∀ name amount, resources.limits.get? name = some amount → good (depth - 1 - 1) amount
  requests : ∀ name amount, resources.requests.get? name = some amount →
    good (depth - 1 - 1) amount

theorem kept_empty (good : Nat → Json → Prop) (depth : Nat) :
    ResourceRequirements.empty.Kept good depth :=
  ⟨fun _ _ h ↦ (by cases h), fun _ _ h ↦ (by cases h)⟩

theorem kept_of_ofJson {resources : ResourceRequirements} (hgood : IsHereditary good)
    (h : good depth value) (hresources : ofJson value = .ok resources) :
    resources.Kept good depth := by
  simp only [ofJson, bind_eq_ok_iff] at hresources
  obtain ⟨members, hmembers, limits, hlimits, requests, hrequests, hresult⟩ := hresources
  cases hresult
  have hgoods := good_of_decodeRecord hgood h hmembers
  exact ⟨of_decodeMap hgoods hgood hlimits, of_decodeMap hgoods hgood hrequests⟩

theorem ofJson_toJson (resources : ResourceRequirements) :
    ofJson resources.toJson = .ok resources := by
  obtain ⟨limits, requests⟩ := resources
  obtain ⟨members, hmembers, hget⟩ := exists_decodeRecord "ResourceRequirements" fields
    (unlessEmpty "limits" limits.isEmpty (.ofMap limits) ++
      unlessEmpty "requests" requests.isEmpty (.ofMap requests))
  have hlimits : Reads members "limits" (decodeMap .ok) .empty limits :=
    reads_map (by simp [hget])
  have hrequests : Reads members "requests" (decodeMap .ok) .empty requests :=
    reads_map (by simp [hget])
  obtain ⟨first, hfirst, hreadLimits⟩ := hlimits
  obtain ⟨second, hsecond, hreadRequests⟩ := hrequests
  simp only [ofJson, bind_eq_ok_iff]
  exact ⟨members, hmembers, first, hfirst, second, hsecond,
    by rw [hreadLimits, hreadRequests]; rfl⟩

theorem tidy_toJson {resources : ResourceRequirements}
    (h : resources.Kept (Tidy reals) depth) (hdepth : 2 ≤ depth) :
    resources.toJson.Tidy reals depth := by
  have hlimits : (Json.ofMap resources.limits).Tidy reals (depth - 1) :=
    .ofMap (by omega) h.limits
  have hrequests : (Json.ofMap resources.requests).Tidy reals (depth - 1) :=
    .ofMap (by omega) h.requests
  apply Tidy.ofMembers (by omega)
  simp [or_imp, forall_and, hlimits, hrequests]

end ResourceRequirements

namespace Container

/-- What is kept aside is good, in the container and in its quantities. -/
structure Kept (good : Nat → Json → Prop) (depth : Nat) (container : Container) : Prop where
  extra : Keeps good depth ["name", "resources"] container.extra
  resources : container.resources.Kept good (depth - 1)

theorem kept_of_ofJson {container : Container} (hgood : IsHereditary good) (h : good depth value)
    (hcontainer : ofJson value = .ok container) : container.Kept good depth := by
  simp only [ofJson, bind_eq_ok_iff] at hcontainer
  obtain ⟨members, hmembers, name, -, resources, hresources, hresult⟩ := hcontainer
  cases hresult
  have hgoods := good_of_decodeMembers hgood h hmembers
  refine ⟨keeps_unknownMembers hgoods _, ?_⟩
  exact decodeMember_getD hresources (ResourceRequirements.kept_empty good _)
    fun member _ hmember ↦ ResourceRequirements.kept_of_ofJson hgood (hgoods _ member hmember)

theorem ofJson_toJson {container : Container} (h : container.Kept good depth) :
    ofJson container.toJson = .ok container := by
  obtain ⟨name, resources, extra⟩ := container
  obtain ⟨members, hmembers, hget, hextra⟩ := h.extra.exists_decodeMembers "Container"
    [("name", .string name), ("resources", resources.toJson)] (by simp)
  have hname : members.get? "name" = some (.string name) := by simp [hget]
  have hresources : members.get? "resources" = some resources.toJson := by simp [hget]
  simp only [ofJson, bind_eq_ok_iff]
  exact ⟨members, hmembers, _, decodeMember_eq_ok_some hname rfl, _,
    decodeMember_eq_ok_some hresources (ResourceRequirements.ofJson_toJson resources),
    by rw [hextra]; rfl⟩

theorem tidy_toJson {container : Container} (h : container.Kept (Tidy reals) depth)
    (hdepth : 3 ≤ depth) : container.toJson.Tidy reals depth := by
  have hresources : container.resources.toJson.Tidy reals (depth - 1) :=
    ResourceRequirements.tidy_toJson h.resources (by omega)
  exact .withExtra (by omega) h.extra (by simp [hresources])

end Container

/-! ## Templates -/

namespace TemplateMetadata

/-- What the metadata keep aside is good and does not take the place of labels or annotations. -/
def Kept (good : Nat → Json → Prop) (depth : Nat) (metadata : TemplateMetadata) : Prop :=
  Keeps good depth ["labels", "annotations"] metadata.extra

theorem kept_of_ofJson {metadata : TemplateMetadata} (hgood : IsHereditary good)
    (h : good depth value) (hmetadata : ofJson value = .ok metadata) :
    metadata.Kept good depth := by
  simp only [ofJson, bind_eq_ok_iff] at hmetadata
  obtain ⟨members, hmembers, annotations, -, labels, -, hresult⟩ := hmetadata
  cases hresult
  exact keeps_unknownMembers (good_of_decodeMembers hgood h hmembers) _

theorem ofJson_toJson {metadata : TemplateMetadata} (h : metadata.Kept good depth) :
    ofJson metadata.toJson = .ok metadata := by
  obtain ⟨labels, annotations, extra⟩ := metadata
  obtain ⟨members, hmembers, hget, hextra⟩ := h.exists_decodeMembers "TemplateMeta"
    (unlessEmpty "labels" labels.isEmpty (.ofTexts labels) ++
      unlessEmpty "annotations" annotations.isEmpty (.ofTexts annotations))
    (by simp [or_imp, forall_and])
  have hlabels : Reads members "labels" decodeTexts .empty labels := reads_texts (by simp [hget])
  have hannotations : Reads members "annotations" decodeTexts .empty annotations :=
    reads_texts (by simp [hget])
  obtain ⟨first, hfirst, hreadLabels⟩ := hlabels
  obtain ⟨second, hsecond, hreadAnnotations⟩ := hannotations
  simp only [ofJson, bind_eq_ok_iff]
  exact ⟨members, hmembers, second, hsecond, first, hfirst,
    by rw [hreadLabels, hreadAnnotations, hextra]; rfl⟩

theorem tidy_toJson {metadata : TemplateMetadata} (h : metadata.Kept (Tidy reals) depth)
    (hdepth : 2 ≤ depth) : metadata.toJson.Tidy reals depth := by
  have htexts (texts : SortedMap String) : (Json.ofTexts texts).Tidy reals (depth - 1) :=
    .ofTexts texts (by omega)
  exact .withExtra (by omega) h (by simp [or_imp, forall_and, htexts])

end TemplateMetadata

namespace PodSpec

/-- What is kept aside is good, in the spec, its affinity and its containers. -/
structure Kept (good : Nat → Json → Prop) (depth : Nat) (spec : PodSpec) : Prop where
  extra : Keeps good depth ["nodeSelector", "affinity", "containers"] spec.extra
  affinity : ∀ affinity, spec.affinity = some affinity → affinity.Kept good (depth - 1)
  containers : ∀ container ∈ spec.containers, container.Kept good (depth - 1 - 1)

theorem kept_empty (good : Nat → Json → Prop) (depth : Nat) : PodSpec.empty.Kept good depth :=
  ⟨keeps_empty good depth _, fun _ h ↦ (by cases h), fun _ h ↦ (by cases h)⟩

theorem kept_of_ofJson {spec : PodSpec} (hgood : IsHereditary good) (h : good depth value)
    (hspec : ofJson value = .ok spec) : spec.Kept good depth := by
  simp only [ofJson, bind_eq_ok_iff] at hspec
  obtain ⟨members, hmembers, affinity, haffinity, containers, hcontainers, selector, -, hresult⟩ :=
    hspec
  cases hresult
  have hgoods := good_of_decodeMembers hgood h hmembers
  refine ⟨keeps_unknownMembers hgoods _, fun affinity ↦ ?_, ?_⟩
  · exact of_decodeNullable hgoods haffinity (Affinity.kept_of_ofJson hgood)
  · exact of_decodeList hgoods hgood hcontainers (Container.kept_of_ofJson hgood)

theorem ofJson_toJson {spec : PodSpec} (h : spec.Kept good depth) :
    ofJson spec.toJson = .ok spec := by
  obtain ⟨selector, affinity, containers, extra⟩ := spec
  obtain ⟨members, hmembers, hget, hextra⟩ := h.extra.exists_decodeMembers "PodSpec"
    (unlessEmpty "nodeSelector" selector.isEmpty (.ofTexts selector) ++
      optional "affinity" (affinity.map Affinity.toJson) ++
      [("containers", .array (containers.map Container.toJson))])
    (by simp +contextual [or_imp])
  have hselector : Reads members "nodeSelector" decodeTexts .empty selector :=
    reads_texts (by simp [hget])
  have haffinity : Reads members "affinity" (decodeNullable Affinity.ofJson) none affinity :=
    reads_optional (by simp [hget]) (fun _ ↦ Json.noConfusion)
      fun found hfound ↦ Affinity.ofJson_toJson (h.affinity found hfound)
  have hcontainers : members.get? "containers" =
      some (.array (containers.map Container.toJson)) := by
    simp [hget]
  have hlist : decodeList Container.ofJson (.array (containers.map Container.toJson)) =
      .ok containers :=
    decodeList_map fun container hmem ↦ Container.ofJson_toJson (h.containers container hmem)
  obtain ⟨first, hfirst, hreadSelector⟩ := hselector
  obtain ⟨second, hsecond, hreadAffinity⟩ := haffinity
  simp only [ofJson, bind_eq_ok_iff]
  exact ⟨members, hmembers, second, hsecond, _, decodeMember_eq_ok_some hcontainers hlist, first,
    hfirst, by rw [hreadSelector, hreadAffinity, hextra]; rfl⟩

theorem tidy_toJson {spec : PodSpec} (h : spec.Kept (Tidy reals) depth) (hdepth : 9 ≤ depth) :
    spec.toJson.Tidy reals depth := by
  have hselector : (Json.ofTexts spec.nodeSelector).Tidy reals (depth - 1) :=
    .ofTexts spec.nodeSelector (by omega)
  have haffinity (affinity : Affinity) (hsome : spec.affinity = some affinity) :
      affinity.toJson.Tidy reals (depth - 1) :=
    Affinity.tidy_toJson (h.affinity affinity hsome) (by omega)
  have hcontainers : (Json.array (spec.containers.map Container.toJson)).Tidy reals
      (depth - 1) := by
    apply Tidy.array (by omega)
    rw [List.forall_mem_map]
    exact fun container hmem ↦ Container.tidy_toJson (h.containers container hmem) (by omega)
  apply Tidy.withExtra (by omega) h.extra
  simp +contextual [or_imp, hselector, hcontainers, haffinity]

end PodSpec

namespace PodTemplate

/-- What is kept aside is good, in the metadata and in the spec. -/
structure Kept (good : Nat → Json → Prop) (depth : Nat) (template : PodTemplate) : Prop where
  metadata : template.metadata.Kept good (depth - 1)
  spec : template.spec.Kept good (depth - 1)

theorem kept_empty (good : Nat → Json → Prop) (depth : Nat) : PodTemplate.empty.Kept good depth :=
  ⟨keeps_empty good _ _, PodSpec.kept_empty good _⟩

theorem kept_of_ofJson {template : PodTemplate} (hgood : IsHereditary good) (h : good depth value)
    (htemplate : ofJson value = .ok template) : template.Kept good depth := by
  simp only [ofJson, bind_eq_ok_iff] at htemplate
  obtain ⟨members, hmembers, metadata, hmetadata, spec, hspec, hresult⟩ := htemplate
  cases hresult
  have hgoods := good_of_decodeRecord hgood h hmembers
  constructor
  · exact decodeMember_getD hmetadata (keeps_empty good _ _)
      fun member _ hmember ↦ TemplateMetadata.kept_of_ofJson hgood (hgoods _ member hmember)
  · exact decodeMember_getD hspec (PodSpec.kept_empty good _)
      fun member _ hmember ↦ PodSpec.kept_of_ofJson hgood (hgoods _ member hmember)

theorem ofJson_toJson {template : PodTemplate} (h : template.Kept good depth) :
    ofJson template.toJson = .ok template := by
  obtain ⟨metadata, spec⟩ := template
  obtain ⟨members, hmembers, hget⟩ := exists_decodeRecord "PodTemplate" fields
    [("metadata", metadata.toJson), ("spec", spec.toJson)]
  have hmetadata : members.get? "metadata" = some metadata.toJson := by simp [hget]
  have hspec : members.get? "spec" = some spec.toJson := by simp [hget]
  simp only [ofJson, bind_eq_ok_iff]
  exact ⟨members, hmembers, _,
    decodeMember_eq_ok_some hmetadata (TemplateMetadata.ofJson_toJson h.metadata), _,
    decodeMember_eq_ok_some hspec (PodSpec.ofJson_toJson h.spec), rfl⟩

theorem tidy_toJson {template : PodTemplate} (h : template.Kept (Tidy reals) depth)
    (hdepth : 10 ≤ depth) : template.toJson.Tidy reals depth := by
  have hmetadata : template.metadata.toJson.Tidy reals (depth - 1) :=
    TemplateMetadata.tidy_toJson h.metadata (by omega)
  have hspec : template.spec.toJson.Tidy reals (depth - 1) :=
    PodSpec.tidy_toJson h.spec (by omega)
  exact .ofMembers (by omega) (by simp [hmetadata, hspec])

end PodTemplate

end SliceControl
