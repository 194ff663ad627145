import Mathlib.Logic.Relation
import SliceControl.Proofs.Pass.Footprint
import SliceControl.Proofs.Pass.Settled
import SliceControl.Proofs.Reconcile.Partitions

/-!
# Telling workloads apart

The store knows a workload by its key, which is namespace and name joined by a slash. Storing and
removing a workload and passes over it leave alone what is stored under every other key, the slices
that are listed for it, and what reconciling it comes to.

The key tells workloads apart as long as it can be taken apart again. Where a namespace goes on with
a slash and the beginning of a name, two workloads share a key, and each takes the place of the
other.
-/

namespace SliceControl

/-! ## Keys -/

/-- What a workload is known by: its namespace, or the default one, and its name. -/
def Workload.identity (workload : Workload) : String × String :=
  (workload.namespaceName, workload.metadata.name)

namespace Identity

/-- The key under which a workload is stored. -/
def key (identity : String × String) : String := identity.1 ++ "/" ++ identity.2

/-- A part of the name of `identity` stands at the end of the namespace of `other`. -/
def Shifts (identity other : String × String) : Prop :=
  ∃ middle, other.1 = identity.1 ++ "/" ++ middle ∧ identity.2 = middle ++ "/" ++ other.2

variable {identity other : String × String}

theorem Shifts.key_eq (h : Shifts identity other) : key identity = key other := by
  obtain ⟨middle, hspace, hname⟩ := h
  rw [key, key, hspace, hname]
  simp only [String.append_assoc]

/-- A part of a name is only found in a namespace with a slash. -/
theorem not_shifts (h : '/' ∉ other.1.toList) : ¬Shifts identity other := by
  rintro ⟨middle, hspace, -⟩
  apply h
  simp [hspace]

/-- Apart from equal ones, the workloads that share a key are those of which one has a part of its
name in the namespace of the other. -/
theorem key_eq_iff :
    key identity = key other ↔
      identity = other ∨ Shifts identity other ∨ Shifts other identity := by
  constructor
  · obtain ⟨space, name⟩ := identity
    obtain ⟨otherSpace, otherName⟩ := other
    intro h
    have hletters : space.toList ++ '/' :: name.toList =
        otherSpace.toList ++ '/' :: otherName.toList := by
      simpa [key] using congrArg String.toList h
    -- Of two namespaces at the front of one key, one goes on where the other ends.
    rcases List.append_eq_append_iff.mp hletters with
      ⟨rest, hspace, hname⟩ | ⟨rest, hspace, hname⟩
    · cases rest with
      | nil =>
        simp only [List.append_nil, List.nil_append, List.cons.injEq, true_and] at hspace hname
        exact .inl (Prod.ext (String.toList_inj.mp hspace.symm) (String.toList_inj.mp hname))
      | cons slash middle =>
        obtain ⟨rfl, hname⟩ := List.cons.inj hname
        refine .inr (.inl ⟨String.ofList middle, ?_, ?_⟩) <;> apply String.toList_inj.mp
        · simpa using hspace
        · simpa using hname
    · cases rest with
      | nil =>
        simp only [List.append_nil, List.nil_append, List.cons.injEq, true_and] at hspace hname
        exact .inl (Prod.ext (String.toList_inj.mp hspace) (String.toList_inj.mp hname.symm))
      | cons slash middle =>
        obtain ⟨rfl, hname⟩ := List.cons.inj hname
        refine .inr (.inr ⟨String.ofList middle, ?_, ?_⟩) <;> apply String.toList_inj.mp
        · simpa using hspace
        · simpa using hname
  · rintro (rfl | h | h)
    · rfl
    · exact h.key_eq
    · exact h.key_eq.symm

end Identity

theorem Workload.key_eq (workload : Workload) : workload.key = Identity.key workload.identity := rfl

/-! ## What other keys see -/

namespace Store

/-- Nothing that concerns the workload `key` has changed: neither its record, nor the slices listed
for it, nor the outcome of reconciling it, whatever the settings and the time. -/
structure Undisturbed (store after : Store) (key : String) : Prop where
  record : after.workload? key = store.workload? key
  slices : after.ownedSlices key = store.ownedSlices key
  outcome : ∀ context,
    reconcile (after.reading key) context = reconcile (store.reading key) context

/-- Something is done about the workload of a namespace and name: it is stored in some form, it is
removed, or a pass is made over it, with whatever settings and whatever calls that fail. -/
inductive Deals (identity : String × String) : Store → Store → Prop where
  | upsert {store : Store} {workload : Workload} (h : workload.identity = identity)
      (now : Instant) : Deals identity store (store.upsertWorkload workload now).store
  | remove {store : Store} :
    Deals identity store (store.removeWorkload (Identity.key identity)).store
  | pass (settings : PassSettings) (cluster : Cluster) :
      Deals identity cluster.store
        ((settings.pass (Identity.key identity)).run Cluster.world cluster).2.store

variable {store after : Store} {key : String} {identity : String × String}

/-- What is read about a workload determines all that concerns it. -/
theorem Undisturbed.of_reading (h : after.reading key = store.reading key) :
    store.Undisturbed after key :=
  ⟨congrArg Snapshot.workload h, congrArg Snapshot.slices h, fun context ↦ by rw [h]⟩

theorem Undisturbed.refl (store : Store) (key : String) : store.Undisturbed store key :=
  .of_reading rfl

theorem Undisturbed.trans {last : Store} (h : store.Undisturbed after key)
    (hlast : after.Undisturbed last key) : store.Undisturbed last key :=
  ⟨hlast.record.trans h.record, hlast.slices.trans h.slices,
    fun context ↦ (hlast.outcome context).trans (h.outcome context)⟩

/-- Whatever calls fail, a procedure leaves a store that can be reached. -/
theorem Reachable.run {α : Type} {cluster : Cluster} (h : cluster.store.Reachable)
    (procedure : StoreProcedure α) :
    (procedure.run Cluster.world cluster).2.store.Reachable := by
  apply Procedure.run_preserves (fun cluster : Cluster ↦ cluster.store.Reachable) _ _ procedure h
  · intro request cluster hreachable
    have htried : cluster.store.Tried request (Cluster.world.serve request cluster).2.store :=
      cluster.tried_serve request
    rcases htried with hstill | ⟨now, hserved⟩
    · rw [hstill]
      exact hreachable
    · rw [hserved]
      exact hreachable.serve request now
  · exact fun _ _ hreachable ↦ hreachable

theorem Deals.reachable (h : Deals identity store after) (hstore : store.Reachable) :
    after.Reachable := by
  cases h with
  | @upsert _ workload hidentity now => exact hstore.mutate (.upsertWorkload workload) now
  | remove => exact hstore.mutate (.removeWorkload (Identity.key identity)) (.ofNanos 0)
  | pass settings cluster => exact hstore.run _

/-- What is done about one workload leaves alone what is found under other keys. -/
theorem Deals.undisturbed (h : Deals identity store after) (hstore : store.Reachable)
    (hne : key ≠ Identity.key identity) : store.Undisturbed after key := by
  cases h with
  | @upsert _ workload hidentity now =>
    have hother : workload.key ≠ key := by
      rw [workload.key_eq, hidentity]
      exact hne.symm
    apply Undisturbed.of_reading
    apply reading_of_other_workload
    rw [SortedMap.get?_insert, if_neg hother]
  | remove =>
    apply Undisturbed.of_reading
    unfold removeWorkload
    cases store.workloads.get? (Identity.key identity) with
    | none => rfl
    | some workload =>
      apply reading_of_other_workload
      rw [SortedMap.get?_erase, if_neg hne.symm]
  | pass settings cluster =>
    obtain ⟨hsame, -⟩ := settings.run_pass_own hstore (Identity.key identity)
    exact .of_reading
      (hsame.toSameOutside.reading hstore.consistent (hstore.run _).consistent hne)

/-- So does everything that is done about it one after the other. -/
theorem undisturbed_of_deals (hstore : store.Reachable)
    (h : Relation.ReflTransGen (Deals identity) store after) (hne : key ≠ Identity.key identity) :
    after.Reachable ∧ store.Undisturbed after key := by
  induction h with
  | refl => exact ⟨hstore, .refl store key⟩
  | tail _ hstep ih =>
    exact ⟨hstep.reachable ih.1, ih.2.trans (hstep.undisturbed ih.1 hne)⟩

end Store

/-! ## Workloads that share a key -/

/-- Every wanted slice has a pod on a node with a label. -/
theorem Workload.wanted_nil (workload : Workload) : workload.wanted [] = [] := by
  rw [List.eq_nil_iff_forall_not_mem]
  intro wanted hwanted
  obtain ⟨podSet, -, hwantedBy⟩ := mem_wanted_iff.mp hwanted
  obtain ⟨topology, accelerator, slices, -, hslices, hmem⟩ := mem_wantedBy_iff.mp hwantedBy
  obtain ⟨placement, count, pieces, -, -, hcut, hpieces⟩ := of_wantedSlices_eq_ok hslices
  obtain ⟨⟨piece, index⟩, hentry, hmade⟩ := exists_of_mem_mapM hpieces hmem
  have hpositive : 0 < count := Placement.count_pos_of_splitByReplica_eq_ok hcut
  have hnames : piece.NamesHosts := namesHosts_of_wantedSlice_eq_ok hmade
  have hget : pieces[index]? = some piece := List.mem_zipIdx_iff_getElem?.mp hentry
  obtain ⟨replicas, htotal, rfl⟩ := Placement.of_splitByReplica_eq_ok hcut
  have hpiece := List.mem_of_getElem? hget
  have hlength : piece.podHosts.length = count := by
    obtain ⟨level, hlevel, -⟩ := hnames
    rw [Placement.levelIndex?_of_mem_cut hpiece] at hlevel
    obtain ⟨hindex, -⟩ := List.getElem?_eq_some_iff.mp hget
    rw [Placement.length_cut] at hindex
    rw [Placement.podHosts_cut hlevel hget, Placement.length_replicaHosts hlevel htotal hindex]
  obtain ⟨host, hhost⟩ := List.exists_mem_of_length_pos (hlength ▸ hpositive)
  rw [wantedSlice_eq hnames fun domain ↦
    Placement.count_ne_zero_of_mem_pieces (Placement.mem_cut_iff.mp hpiece).1] at hmade
  unfold replica? at hmade
  split_ifs at hmade with hunlabelled
  exact hunlabelled (List.mem_map.mpr ⟨host, hhost, rfl⟩)

namespace Store

theorem workload?_upsertWorkload (store : Store) (workload : Workload) (now : Instant) :
    (store.upsertWorkload workload now).store.workload? workload.key =
      some { workload with metadata := workload.metadata.stamped now } := by
  simp [upsertWorkload, workload?]

/-- Storing one workload takes away the record of another one with the same key. -/
theorem not_undisturbed_upsertWorkload {first second : Workload}
    (hkey : first.key = second.key) (hne : first.identity ≠ second.identity) (now : Instant) :
    ¬((empty.upsertWorkload second now).store.Undisturbed
      ((empty.upsertWorkload second now).store.upsertWorkload first now).store second.key) := by
  intro h
  have hrecord := h.record
  rw [workload?_upsertWorkload, ← hkey, workload?_upsertWorkload] at hrecord
  have hidentity : some first.identity = some second.identity :=
    congrArg (Option.map Workload.identity) hrecord
  exact hne (Option.some.inj hidentity)

/-- Workloads of different identities that want no common name are told apart by what is done about
them, unless one of them has a part of its name in the namespace of the other. -/
theorem undisturbed_iff {first second : Workload} (hne : first.identity ≠ second.identity) :
    (∀ store after : Store, store.Reachable →
      (∀ wanted ∈ first.wanted store.listNodes, ∀ other ∈ second.wanted store.listNodes,
        wanted.name ≠ other.name) →
      Relation.ReflTransGen (Deals first.identity) store after →
        store.Undisturbed after second.key) ↔
      ¬(Identity.Shifts first.identity second.identity ∨
        Identity.Shifts second.identity first.identity) := by
  constructor
  · intro h hshifts
    have hkey : first.key = second.key := Identity.key_eq_iff.mpr (.inr hshifts)
    have hreachable : (empty.upsertWorkload second (.ofNanos 0)).store.Reachable :=
      Reachable.empty.mutate (.upsertWorkload second) (.ofNanos 0)
    have hnodes : (empty.upsertWorkload second (.ofNanos 0)).store.listNodes = [] := rfl
    apply not_undisturbed_upsertWorkload hkey hne (.ofNanos 0)
    apply h _ _ hreachable ?_ (.single (.upsert rfl (.ofNanos 0)))
    rw [hnodes, Workload.wanted_nil]
    exact fun wanted hwanted ↦ absurd hwanted List.not_mem_nil
  · intro hshifts store after hstore _ hdeals
    have hkey : second.key ≠ Identity.key first.identity := by
      intro hsame
      exact (Identity.key_eq_iff.mp hsame.symm).elim hne hshifts
    exact (undisturbed_of_deals hstore hdeals hkey).2

end Store

namespace Sample

/-- The sample workload and the other one are stored. -/
def neighbours : Store := (registered.upsertWorkload otherWorkload (.ofNanos 0)).store

/-- A pass is made over the other workload, and then it is removed. -/
def abandoned : Store :=
  let passed := (twice.pass otherWorkload.key).run Cluster.world
    { Cluster.start (.ofNanos 0) with store := neighbours }
  (passed.2.store.removeWorkload otherWorkload.key).store

theorem neighbours_reachable : neighbours.Reachable :=
  registered_reachable.mutate (.upsertWorkload otherWorkload) (.ofNanos 0)

theorem abandoned_of_neighbours :
    Relation.ReflTransGen (Store.Deals otherWorkload.identity) neighbours abandoned :=
  .tail (.single (.pass twice { Cluster.start (.ofNanos 0) with store := neighbours })) .remove

/-- Two workloads with one key, both without an admission. -/
def nested : Workload :=
  { workload with
    metadata := { Metadata.named "b/c" with
      namespaceName := some "a", uid := .given (List.replicate 32 ⟨10, by decide⟩) rfl }
    status.admission := none }

def nesting : Workload :=
  { nested with metadata := { nested.metadata with name := "c", namespaceName := some "a/b" } }

end Sample

/-- Neither the pass over the other workload nor its removal disturbs the sample workload. -/
theorem Store.undisturbed_iff_sample :
    Sample.neighbours.Reachable ∧
      Sample.otherWorkload.identity ≠ Sample.workload.identity ∧
      Sample.abandoned.workload? Sample.otherWorkload.key = none ∧
      Sample.neighbours.Undisturbed Sample.abandoned Sample.workload.key := by
  have hne : Sample.otherWorkload.identity ≠ Sample.workload.identity := by decide
  have hnames : ∀ wanted ∈ Sample.otherWorkload.wanted Sample.neighbours.listNodes,
      ∀ other ∈ Sample.workload.wanted Sample.neighbours.listNodes,
        wanted.name ≠ other.name := by
    decide +kernel
  have hshifts : ¬(Identity.Shifts Sample.otherWorkload.identity Sample.workload.identity ∨
      Identity.Shifts Sample.workload.identity Sample.otherWorkload.identity) :=
    not_or.mpr ⟨Identity.not_shifts (by decide), Identity.not_shifts (by decide)⟩
  have hundisturbed := (Store.undisturbed_iff hne).mpr hshifts Sample.neighbours Sample.abandoned
    Sample.neighbours_reachable hnames Sample.abandoned_of_neighbours
  exact ⟨Sample.neighbours_reachable, hne, by decide +kernel, hundisturbed⟩

/-- Both workloads can be read and want nothing, but storing the second takes away the first. -/
theorem Store.upsert_displaces_namesake :
    let before := (Store.empty.upsertWorkload Sample.nested (.ofNanos 0)).store
    let after := (before.upsertWorkload Sample.nesting (.ofNanos 0)).store
    Workload.ofJson .generated Sample.nested.toJson = .ok Sample.nested ∧
      Workload.ofJson .generated Sample.nesting.toJson = .ok Sample.nesting ∧
      Sample.nested.identity ≠ Sample.nesting.identity ∧
      before.Reachable ∧
      Sample.nested.wanted before.listNodes = [] ∧ Sample.nesting.wanted before.listNodes = [] ∧
      (before.workload? Sample.nested.key).map Workload.identity =
        some Sample.nested.identity ∧
      (after.workload? Sample.nested.key).map Workload.identity =
        some Sample.nesting.identity ∧
      ¬before.Undisturbed after Sample.nested.key := by
  intro before after
  have hne : Sample.nesting.identity ≠ Sample.nested.identity := by decide
  have hkey : Sample.nesting.key = Sample.nested.key := by decide
  refine ⟨by decide +kernel, by decide +kernel, hne.symm,
    Store.Reachable.empty.mutate (.upsertWorkload Sample.nested) (.ofNanos 0),
    Workload.wanted_nil _, Workload.wanted_nil _, by decide +kernel, by decide +kernel,
    Store.not_undisturbed_upsertWorkload hkey hne (.ofNanos 0)⟩

end SliceControl
