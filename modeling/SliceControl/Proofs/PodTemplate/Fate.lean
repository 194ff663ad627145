import SliceControl.Proofs.Admission.Defaulting
import SliceControl.Proofs.Json.Fate

/-!
# What becomes of a pod template

Four of the records that a pod template is decoded into have no place for members that they do not
know: requirements, node selectors, resource requirements and the template itself. The others keep
such members aside.

Defaulting sets three annotations, and it adds one requirement to the expressions of each required
term. Everything else in a template has the fate that decoding and writing give it.
-/

namespace SliceControl

open Json SortedMap

variable {value : Json} {demanded : Bool}

/-! ## Terms on nodes -/

namespace Requirement

def fate : Fate := .record [("key", .kept), ("operator", .kept), ("values", .kept)] .lost

theorem carries {requirement : Requirement} (h : ofJson value = .ok requirement) :
    Carries fate value (some requirement.toJson) := by
  simp only [ofJson, bind_eq_ok_iff] at h
  obtain ⟨members, hmembers, foundKey, hfoundKey, foundOperator, hfoundOperator, foundValues,
    hfoundValues, key, hkey, operator, hoperator, hresult⟩ := h
  cases hresult
  refine carries_ofMembers hmembers (by simp [or_imp, forall_and]) ?_
  refine List.forall_mem_cons.mpr ⟨fun part hpart _ ↦ ?_, List.forall_mem_cons.mpr
    ⟨fun part hpart _ ↦ ?_, List.forall_mem_singleton.mpr fun part hpart hvacant ↦ ?_⟩⟩
  · obtain ⟨text, rfl, htext⟩ := exists_of_get? hfoundKey hpart
    cases hkey
    exact carries_of_eq_some (by simp [string_of_decodeString htext])
  · obtain ⟨text, rfl, htext⟩ := exists_of_get? hfoundOperator hpart
    cases hoperator
    exact carries_of_eq_some (by simp [string_of_decodeString htext])
  · obtain ⟨texts, rfl, htexts⟩ := exists_of_get? hfoundValues hpart
    have hempty := isEmpty_of_decodeList htexts hvacant
    exact carries_of_eq_some (by simp [hempty, ofStrings_of_decodeStrings htexts])

end Requirement

namespace SelectorTerm

/-- The other term demands the same, and perhaps a healthy node. -/
def Becomes (demanded : Bool) (term other : SelectorTerm) : Prop :=
  other = term ∨ demanded = true ∧
    other = { term with expressions := term.expressions ++ [PodTemplate.healthyNode] }

def fate (demanded : Bool) : Fate :=
  .record [("matchExpressions",
    if demanded then .grown PodTemplate.healthyNode.toJson Requirement.fate
    else .items fun _ ↦ Requirement.fate)] .kept

theorem carries {term other : SelectorTerm} (h : ofJson value = .ok term)
    (hother : term.Becomes demanded other) : Carries (fate demanded) value (some other.toJson) := by
  simp only [ofJson, bind_eq_ok_iff] at h
  obtain ⟨members, hmembers, found, hfound, hresult⟩ := h
  cases hresult
  have hitem (item : Json) (requirement : Requirement)
      (hdecoded : Requirement.ofJson item = .ok requirement) :
      Carries Requirement.fate item (some requirement.toJson) := Requirement.carries hdecoded
  rcases hother with rfl | ⟨rfl, rfl⟩
  · refine carries_withExtra hmembers rfl (by simp)
      (List.forall_mem_singleton.mpr fun part hpart hvacant ↦ ?_)
    obtain ⟨expressions, rfl, hexpressions⟩ := exists_of_get? hfound hpart
    have hempty := isEmpty_of_decodeList hexpressions hvacant
    cases demanded with
    | false => simpa [hempty] using carries_items_self hitem hexpressions
    | true =>
      simpa [hempty] using carries_ungrown hitem hexpressions PodTemplate.healthyNode.toJson
  · refine carries_withExtra hmembers rfl (by simp)
      (List.forall_mem_singleton.mpr fun part hpart _ ↦ ?_)
    obtain ⟨expressions, rfl, hexpressions⟩ := exists_of_get? hfound hpart
    simpa using carries_grown hitem hexpressions PodTemplate.healthyNode

end SelectorTerm

namespace NodeSelector

/-- The terms of the other selector are those of the first one and may demand healthy nodes. A
selector without terms may get some. -/
def Becomes (demanded : Bool) (selector other : NodeSelector) : Prop :=
  selector.terms = [] ∨ other.terms.length = selector.terms.length ∧
    ∀ (index : Nat) (term new : SelectorTerm), selector.terms[index]? = some term →
      other.terms[index]? = some new → term.Becomes demanded new

def fate (demanded : Bool) : Fate :=
  .record [("nodeSelectorTerms", .items fun _ ↦ SelectorTerm.fate demanded)] .lost

theorem carries {selector other : NodeSelector} (h : ofJson value = .ok selector)
    (hother : selector.Becomes demanded other) :
    Carries (fate demanded) value (some other.toJson) := by
  simp only [ofJson, bind_eq_ok_iff] at h
  obtain ⟨members, hmembers, found, hfound, hresult⟩ := h
  cases hresult
  refine carries_ofMembers hmembers (by simp)
    (List.forall_mem_singleton.mpr fun part hpart hvacant ↦ ?_)
  obtain ⟨terms, rfl, hterms⟩ := exists_of_get? hfound hpart
  rcases hother with hnone | ⟨hlength, hbecomes⟩
  · have hempty := isEmpty_of_decodeList hterms hvacant
    rw [show terms = [] from hnone] at hempty
    cases hempty
  · have hitems : Carries (.items fun _ ↦ SelectorTerm.fate demanded) part
        (some (.array (other.terms.map SelectorTerm.toJson))) :=
      carries_items hterms hlength fun index item term new hterm hnew hdecoded ↦
        SelectorTerm.carries hdecoded (hbecomes index term new hterm hnew)
    simpa using hitems

end NodeSelector

/-! ## Affinity -/

namespace NodeAffinity

/-- The required terms of the other affinity are those of the first one and may demand healthy
nodes. -/
structure Becomes (demanded : Bool) (affinity other : NodeAffinity) : Prop where
  extra : other.extra = affinity.extra
  required : ∀ selector, affinity.required = some selector →
    ∃ new, other.required = some new ∧ selector.Becomes demanded new

def fate (demanded : Bool) : Fate := .record [(requiredKey, NodeSelector.fate demanded)] .kept

theorem carries {affinity other : NodeAffinity} (h : ofJson value = .ok affinity)
    (hother : affinity.Becomes demanded other) :
    Carries (fate demanded) value (some other.toJson) := by
  simp only [ofJson, bind_eq_ok_iff] at h
  obtain ⟨members, hmembers, found, hfound, hresult⟩ := h
  cases hresult
  rw [toJson, hother.extra]
  refine carries_withExtra hmembers rfl (by simp +contextual)
    (List.forall_mem_singleton.mpr fun part hpart hvacant ↦ ?_)
  obtain ⟨required, rfl, hrequired⟩ := exists_of_get? hfound hpart
  obtain ⟨selector, rfl, hselector⟩ := exists_of_decodeNullable hrequired hvacant
  obtain ⟨new, hnew, hbecomes⟩ := hother.required selector rfl
  simpa [hnew] using NodeSelector.carries hselector hbecomes

end NodeAffinity

namespace Affinity

structure Becomes (demanded : Bool) (affinity other : Affinity) : Prop where
  extra : other.extra = affinity.extra
  nodeAffinity : ∀ nodes, affinity.nodeAffinity = some nodes →
    ∃ new, other.nodeAffinity = some new ∧ nodes.Becomes demanded new

def fate (demanded : Bool) : Fate := .record [("nodeAffinity", NodeAffinity.fate demanded)] .kept

theorem carries {affinity other : Affinity} (h : ofJson value = .ok affinity)
    (hother : affinity.Becomes demanded other) :
    Carries (fate demanded) value (some other.toJson) := by
  simp only [ofJson, bind_eq_ok_iff] at h
  obtain ⟨members, hmembers, found, hfound, hresult⟩ := h
  cases hresult
  rw [toJson, hother.extra]
  refine carries_withExtra hmembers rfl (by simp +contextual)
    (List.forall_mem_singleton.mpr fun part hpart hvacant ↦ ?_)
  obtain ⟨nullable, rfl, hnullable⟩ := exists_of_get? hfound hpart
  obtain ⟨nodes, rfl, hnodes⟩ := exists_of_decodeNullable hnullable hvacant
  obtain ⟨new, hnew, hbecomes⟩ := hother.nodeAffinity nodes rfl
  simpa [hnew] using NodeAffinity.carries hnodes hbecomes

end Affinity

/-! ## Containers -/

namespace ResourceRequirements

def fate : Fate := .record [("limits", .kept), ("requests", .kept)] .lost

theorem carries {resources : ResourceRequirements} (h : ofJson value = .ok resources) :
    Carries fate value (some resources.toJson) := by
  simp only [ofJson, bind_eq_ok_iff] at h
  obtain ⟨members, hmembers, foundLimits, hfoundLimits, foundRequests, hfoundRequests, hresult⟩ := h
  cases hresult
  have hquantities (part : Json) (quantities : SortedMap Json)
      (hdecoded : decodeMap .ok part = .ok quantities) (hvacant : part.isVacant = false) :
      quantities.isEmpty = false ∧ Carries .kept part (some (.ofMap quantities)) := by
    have hsame : ∀ item other : Json, (.ok item : Decoded Json) = .ok other → id other = item :=
      fun item other hother ↦ (Except.ok.inj hother).symm
    have hcarries := carries_of_decodeMap hdecoded hsame
    rw [show quantities.mapValues id = quantities from SortedMap.ext (List.map_id _)] at hcarries
    exact ⟨isEmpty_of_decodeMap hdecoded hsame hvacant, hcarries⟩
  refine carries_ofMembers hmembers (by simp [or_imp, forall_and]) ?_
  refine List.forall_mem_cons.mpr ⟨fun part hpart hvacant ↦ ?_,
    List.forall_mem_singleton.mpr fun part hpart hvacant ↦ ?_⟩
  · obtain ⟨limits, rfl, hlimits⟩ := exists_of_get? hfoundLimits hpart
    obtain ⟨hempty, hcarries⟩ := hquantities part limits hlimits hvacant
    simpa [hempty] using hcarries
  · obtain ⟨requests, rfl, hrequests⟩ := exists_of_get? hfoundRequests hpart
    obtain ⟨hempty, hcarries⟩ := hquantities part requests hrequests hvacant
    simpa [hempty] using hcarries

end ResourceRequirements

namespace Container

def fate : Fate := .record [("name", .kept), ("resources", ResourceRequirements.fate)] .kept

theorem carries {container : Container} (h : ofJson value = .ok container) :
    Carries fate value (some container.toJson) := by
  simp only [ofJson, bind_eq_ok_iff] at h
  obtain ⟨members, hmembers, foundName, hfoundName, foundResources, hfoundResources, hresult⟩ := h
  cases hresult
  refine carries_withExtra hmembers rfl (by simp) ?_
  refine List.forall_mem_cons.mpr ⟨fun part hpart _ ↦ ?_,
    List.forall_mem_singleton.mpr fun part hpart _ ↦ ?_⟩
  · obtain ⟨name, rfl, hname⟩ := exists_of_get? hfoundName hpart
    exact carries_of_eq_some (by simp [string_of_decodeString hname])
  · obtain ⟨resources, rfl, hresources⟩ := exists_of_get? hfoundResources hpart
    simpa using ResourceRequirements.carries hresources

end Container

/-! ## Templates -/

namespace TemplateMetadata

/-- The annotations by which the queue places the pods. -/
def queueAnnotations : List String :=
  [Label.requiredTopology, Label.sliceRequiredTopology, Label.sliceSize]

/-- The other metadata have the same labels and annotations, except that the annotations for the
queue may have other values if they are demanded. -/
structure Becomes (demanded : Bool) (metadata other : TemplateMetadata) : Prop where
  labels : other.labels = metadata.labels
  extra : other.extra = metadata.extra
  annotations : ∀ key, demanded = false ∨ key ∉ queueAnnotations →
    other.annotations.get? key = metadata.annotations.get? key
  annotated : other.annotations.isEmpty = true → metadata.annotations.isEmpty = true

def fate (demanded : Bool) : Fate :=
  .record [("labels", .kept), ("annotations",
    if demanded then .record (queueAnnotations.map fun key ↦ (key, .free)) .kept else .kept)] .kept

/-- Annotations that are not for the queue are kept. -/
theorem carries_annotations {part : Json} {annotations others : SortedMap String}
    (h : decodeTexts part = .ok annotations)
    (hothers : ∀ key ∉ queueAnnotations, others.get? key = annotations.get? key) :
    Carries (.record (queueAnnotations.map fun key ↦ (key, .free)) .kept) part
      (some (.ofTexts others)) := by
  obtain ⟨entries, rfl, hentries⟩ := exists_of_decodeMap h fun _ _ ↦ string_of_decodeString
  refine carries_ofMap ⟨_, rfl⟩ fun key item hitem _ ↦ ?_
  show Carries ((lookup key (queueAnnotations.map fun key ↦ (key, .free))).getD .kept) item _
  cases hfate : lookup key (queueAnnotations.map fun key ↦ (key, Fate.free)) with
  | some fate =>
    obtain ⟨other, -, hpair⟩ := List.mem_map.mp (mem_of_lookup_eq_some hfate)
    cases hpair
    exact carries_free item _
  | none =>
    have hkey : key ∉ queueAnnotations := by
      rw [lookup_eq_none_iff, List.map_map] at hfate
      simpa using hfate
    rw [← hentries, get?_mapValues] at hitem
    exact carries_of_eq_some (by rw [get?_mapValues, hothers key hkey, hitem])

theorem carries {metadata other : TemplateMetadata} (h : ofJson value = .ok metadata)
    (hother : metadata.Becomes demanded other) :
    Carries (fate demanded) value (some other.toJson) := by
  simp only [ofJson, bind_eq_ok_iff] at h
  obtain ⟨members, hmembers, foundAnnotations, hfoundAnnotations, foundLabels, hfoundLabels,
    hresult⟩ := h
  cases hresult
  rw [toJson, hother.extra]
  refine carries_withExtra hmembers rfl (by simp [or_imp, forall_and]) ?_
  refine List.forall_mem_cons.mpr ⟨fun part hpart hvacant ↦ ?_,
    List.forall_mem_singleton.mpr fun part hpart hvacant ↦ ?_⟩
  · obtain ⟨labels, rfl, hlabels⟩ := exists_of_get? hfoundLabels hpart
    obtain ⟨hempty, hcarries⟩ := carries_of_decodeTexts hlabels hvacant
    simpa [hother.labels, hempty] using hcarries
  · obtain ⟨annotations, rfl, hannotations⟩ := exists_of_get? hfoundAnnotations hpart
    obtain ⟨hempty, hcarries⟩ := carries_of_decodeTexts hannotations hvacant
    have hannotated : other.annotations.isEmpty = false := by
      by_contra hnone
      exact absurd (hother.annotated (Bool.not_eq_false _ ▸ hnone)) (by simp [hempty])
    cases demanded with
    | false =>
      have hsame : other.annotations = annotations :=
        ext_get? fun key ↦ hother.annotations key (.inl rfl)
      simpa [hsame, hempty] using hcarries
    | true =>
      have hqueue := carries_annotations hannotations fun key hkey ↦
        hother.annotations key (.inr hkey)
      simpa [hannotated] using hqueue

end TemplateMetadata

namespace PodSpec

structure Becomes (demanded : Bool) (spec other : PodSpec) : Prop where
  nodeSelector : other.nodeSelector = spec.nodeSelector
  containers : other.containers = spec.containers
  extra : other.extra = spec.extra
  affinity : ∀ affinity, spec.affinity = some affinity →
    ∃ new, other.affinity = some new ∧ affinity.Becomes demanded new

def fate (demanded : Bool) : Fate :=
  .record [("nodeSelector", .kept), ("affinity", Affinity.fate demanded),
    ("containers", .items fun _ ↦ Container.fate)] .kept

theorem carries {spec other : PodSpec} (h : ofJson value = .ok spec)
    (hother : spec.Becomes demanded other) :
    Carries (fate demanded) value (some other.toJson) := by
  simp only [ofJson, bind_eq_ok_iff] at h
  obtain ⟨members, hmembers, foundAffinity, hfoundAffinity, foundContainers, hfoundContainers,
    foundSelector, hfoundSelector, hresult⟩ := h
  cases hresult
  rw [toJson, hother.extra]
  refine carries_withExtra hmembers rfl (by simp +contextual [or_imp]) ?_
  refine List.forall_mem_cons.mpr ⟨fun part hpart hvacant ↦ ?_, List.forall_mem_cons.mpr
    ⟨fun part hpart hvacant ↦ ?_, List.forall_mem_singleton.mpr fun part hpart hvacant ↦ ?_⟩⟩
  · obtain ⟨selector, rfl, hselector⟩ := exists_of_get? hfoundSelector hpart
    obtain ⟨hempty, hcarries⟩ := carries_of_decodeTexts hselector hvacant
    simpa [hother.nodeSelector, hempty] using hcarries
  · obtain ⟨nullable, rfl, hnullable⟩ := exists_of_get? hfoundAffinity hpart
    obtain ⟨affinity, rfl, haffinity⟩ := exists_of_decodeNullable hnullable hvacant
    obtain ⟨new, hnew, hbecomes⟩ := hother.affinity affinity rfl
    simpa [hnew] using Affinity.carries haffinity hbecomes
  · obtain ⟨containers, rfl, hcontainers⟩ := exists_of_get? hfoundContainers hpart
    have hitems : Carries (.items fun _ ↦ Container.fate) part
        (some (.array (containers.map Container.toJson))) :=
      carries_items_self (fun _ _ ↦ Container.carries) hcontainers
    simpa [hother.containers] using hitems

end PodSpec

namespace PodTemplate

structure Becomes (demanded : Bool) (template other : PodTemplate) : Prop where
  metadata : template.metadata.Becomes demanded other.metadata
  spec : template.spec.Becomes demanded other.spec

def fate (demanded : Bool) : Fate :=
  .record [("metadata", TemplateMetadata.fate demanded), ("spec", PodSpec.fate demanded)] .lost

theorem carries {template other : PodTemplate} (h : ofJson value = .ok template)
    (hother : template.Becomes demanded other) :
    Carries (fate demanded) value (some other.toJson) := by
  simp only [ofJson, bind_eq_ok_iff] at h
  obtain ⟨members, hmembers, foundMetadata, hfoundMetadata, foundSpec, hfoundSpec, hresult⟩ := h
  cases hresult
  refine carries_ofMembers hmembers (by simp) ?_
  refine List.forall_mem_cons.mpr ⟨fun part hpart _ ↦ ?_,
    List.forall_mem_singleton.mpr fun part hpart _ ↦ ?_⟩
  · obtain ⟨metadata, rfl, hmetadata⟩ := exists_of_get? hfoundMetadata hpart
    simpa using TemplateMetadata.carries hmetadata hother.metadata
  · obtain ⟨spec, rfl, hspec⟩ := exists_of_get? hfoundSpec hpart
    simpa using PodSpec.carries hspec hother.spec

/-! ## Defaulting -/

theorem becomes_self (template : PodTemplate) (demanded : Bool) :
    template.Becomes demanded template := by
  refine ⟨⟨rfl, rfl, fun _ _ ↦ rfl, id⟩, rfl, rfl, rfl, fun affinity haffinity ↦
    ⟨affinity, haffinity, rfl, fun nodes hnodes ↦ ⟨nodes, hnodes, rfl, fun selector hselector ↦
      ⟨selector, hselector, .inr ⟨rfl, fun index term new hterm hnew ↦ .inl ?_⟩⟩⟩⟩⟩
  exact Option.some.inj (hnew.symm.trans hterm)

theorem becomes_addToTerms {terms : List SelectorTerm} :
    NodeSelector.Becomes true ⟨terms⟩ ⟨addToTerms healthyNode terms⟩ := by
  cases terms with
  | nil => exact .inl rfl
  | cons first rest =>
    have hterms : addToTerms healthyNode (first :: rest) = (first :: rest).map fun term ↦
        { term with expressions := term.expressions ++ [healthyNode] } := rfl
    refine .inr ⟨by rw [hterms, List.length_map], fun index term new hterm hnew ↦ .inr ⟨rfl, ?_⟩⟩
    dsimp only at hterm hnew
    rw [hterms, List.getElem?_map, hterm] at hnew
    exact (Option.some.inj hnew).symm

theorem becomes_requireLabel (template : PodTemplate) :
    template.spec.Becomes true (template.requireLabel healthyNode).spec := by
  refine ⟨rfl, rfl, rfl, fun affinity haffinity ↦ ⟨_, rfl, ?_, fun nodes hnodes ↦
    ⟨_, rfl, ?_, fun selector hselector ↦ ⟨_, rfl, ?_⟩⟩⟩⟩
  · rw [haffinity]
    rfl
  · rw [haffinity, Option.getD_some, hnodes]
    rfl
  · rw [haffinity, Option.getD_some, hnodes, Option.getD_some, hselector]
    exact becomes_addToTerms

theorem get?_annotateForQueue (template : PodTemplate) (topology : Topology) (podsPerCube : Nat)
    {key : String} (hkey : key ∉ TemplateMetadata.queueAnnotations) :
    (template.annotateForQueue topology podsPerCube).metadata.annotations.get? key =
      template.metadata.annotations.get? key := by
  simp only [TemplateMetadata.queueAnnotations, List.mem_cons, List.not_mem_nil, or_false,
    not_or] at hkey
  obtain ⟨hrequired, hslice, hsize⟩ := hkey
  have hannotated := annotation?_annotateForQueue template topology podsPerCube key
    (Ne.symm hrequired) (Ne.symm hslice)
  rw [if_neg (Ne.symm hsize)] at hannotated
  exact hannotated

/-- Defaulting changes the annotations for the queue and demands healthy nodes, and nothing else. -/
theorem becomes_defaulted (template : PodTemplate) (topology : Topology) (podsPerCube : Nat) :
    template.Becomes true (template.defaulted topology podsPerCube) := by
  let annotated := template.annotateForQueue topology podsPerCube
  have hmetadata : template.metadata.Becomes true annotated.metadata := by
    refine ⟨rfl, rfl, fun key hkey ↦ ?_, fun hempty ↦ ?_⟩
    · exact get?_annotateForQueue template topology podsPerCube (hkey.resolve_left (by simp))
    · have hsize := annotation?_annotateForQueue template topology podsPerCube Label.sliceSize
        (by decide) (by decide)
      rw [if_pos rfl] at hsize
      cases (isEmpty_iff.mp hempty Label.sliceSize).symm.trans hsize
  have hspec : template.spec.Becomes true annotated.requireHealthyNodes.spec := by
    unfold requireHealthyNodes
    split_ifs
    · exact (becomes_self template true).spec
    · exact becomes_requireLabel annotated
  refine ⟨?_, hspec⟩
  unfold defaulted
  rw [metadata_requireHealthyNodes]
  exact hmetadata

end PodTemplate

end SliceControl
