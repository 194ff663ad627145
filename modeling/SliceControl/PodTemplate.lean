import SliceControl.Label
import SliceControl.Json.Decode
import SliceControl.Text.Blank
import SliceControl.Topology
import SliceControl.Topology.Accelerator

/-!
# Pod templates

A pod template has annotations, constraints on the nodes it may run on, and containers with
resource quantities. Members that nothing here reads are kept as they are, so that a template that
was changed loses nothing.
-/

namespace SliceControl

open Text

/-- Members that are carried through unchanged. -/
abbrev Extra := SortedMap Json

/-- A requirement on one node label. -/
structure Requirement where
  key : String
  operator : String
  values : List String
  deriving DecidableEq

/-- Requirements that have to hold together. -/
structure SelectorTerm where
  expressions : List Requirement
  extra : Extra
  deriving DecidableEq

/-- Alternatives, of which one has to hold. -/
structure NodeSelector where
  terms : List SelectorTerm
  deriving DecidableEq

structure NodeAffinity where
  required : Option NodeSelector
  extra : Extra
  deriving DecidableEq

structure Affinity where
  nodeAffinity : Option NodeAffinity
  extra : Extra
  deriving DecidableEq

structure ResourceRequirements where
  limits : SortedMap Json
  requests : SortedMap Json
  deriving DecidableEq

structure Container where
  name : String
  resources : ResourceRequirements
  extra : Extra
  deriving DecidableEq

structure TemplateMetadata where
  labels : SortedMap String
  annotations : SortedMap String
  extra : Extra
  deriving DecidableEq

structure PodSpec where
  nodeSelector : SortedMap String
  affinity : Option Affinity
  containers : List Container
  extra : Extra
  deriving DecidableEq

/-- What every pod of a group looks like. -/
structure PodTemplate where
  metadata : TemplateMetadata
  spec : PodSpec
  deriving DecidableEq

/-! ## Empty values -/

def NodeSelector.empty : NodeSelector := ⟨[]⟩

def SelectorTerm.empty : SelectorTerm := ⟨[], .empty⟩

def NodeAffinity.empty : NodeAffinity := ⟨none, .empty⟩

def Affinity.empty : Affinity := ⟨none, .empty⟩

def ResourceRequirements.empty : ResourceRequirements := ⟨.empty, .empty⟩

def TemplateMetadata.empty : TemplateMetadata := ⟨.empty, .empty, .empty⟩

def PodSpec.empty : PodSpec := ⟨.empty, none, [], .empty⟩

def PodTemplate.empty : PodTemplate := ⟨.empty, .empty⟩

/-! ## Quantities -/

/-- A quantity given as a number or as a numeral, white space around it allowed. -/
def quantity? : Json → Option Nat
  | .whole number =>
    if 0 ≤ number.value ∧ number.value ≤ Numeral.max32 then some number.value.toNat else none
  | .string text => Numeral.readBounded? Numeral.max32 (trim text.toList)
  | _ => none

/-- The chips that a container asks for. A limit wins over a request, even one that cannot be
read. -/
def Container.chips (container : Container) : Nat :=
  let amount := match container.resources.limits.get? Label.chipResource with
    | some limit => some limit
    | none => container.resources.requests.get? Label.chipResource
  (amount.bind quantity?).getD 0

namespace PodTemplate

/-! ## Reading a template -/

def annotation? (template : PodTemplate) (key : String) : Option String :=
  template.metadata.annotations.get? key

/-- The shape that the template asks for, as written. -/
def topologyText? (template : PodTemplate) : Option String := template.annotation? Label.topology

/-- The accelerator that the template asks for, as written. -/
def acceleratorText? (template : PodTemplate) : Option String :=
  template.spec.nodeSelector.get? Label.accelerator

/-- Chips asked for by one pod, summed over its containers. -/
def chipsPerPod (template : PodTemplate) : Nat :=
  template.spec.containers.foldr (fun container chips => container.chips + chips) 0

/-- Shape and accelerator, if the template asks for a slice that can be provided. -/
def requestedSlice? (template : PodTemplate) : Option (Topology × Accelerator) :=
  match template.topologyText?.map Topology.parse,
      template.acceleratorText?.map Accelerator.parse with
  | some (.ok topology), some (.ok accelerator) => some (topology, accelerator)
  | _, _ => none

/-- The required terms on nodes. -/
def requiredTerms (template : PodTemplate) : List SelectorTerm :=
  (do let affinity ← template.spec.affinity
      let nodeAffinity ← affinity.nodeAffinity
      let required ← nodeAffinity.required
      return required.terms).getD []

/-- Whether the template constrains a node label, by its selector or in a required term. -/
def constrainsLabel (template : PodTemplate) (key : String) : Bool :=
  template.spec.nodeSelector.contains key ||
    template.requiredTerms.any fun term =>
      term.expressions.any fun expression => expression.key = key

/-! ## Changing a template -/

/-- Adds a requirement to every term; where there is no term, it becomes the only one. -/
def addToTerms (requirement : Requirement) (terms : List SelectorTerm) : List SelectorTerm :=
  (if terms.isEmpty then [.empty] else terms).map fun term =>
    { term with expressions := term.expressions ++ [requirement] }

/-- Demands a node label in every required term. -/
def requireLabel (template : PodTemplate) (requirement : Requirement) : PodTemplate :=
  let affinity := template.spec.affinity.getD .empty
  let nodeAffinity := affinity.nodeAffinity.getD .empty
  let required := nodeAffinity.required.getD .empty
  let terms := addToTerms requirement required.terms
  { template with
    spec := { template.spec with
      affinity := some { affinity with
        nodeAffinity := some { nodeAffinity with required := some ⟨terms⟩ } } } }

/-- Sets an annotation. -/
def annotate (template : PodTemplate) (key value : String) : PodTemplate :=
  { template with
    metadata := { template.metadata with
      annotations := template.metadata.annotations.insert key value } }

end PodTemplate

end SliceControl
