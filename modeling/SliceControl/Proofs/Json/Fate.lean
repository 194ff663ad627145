import SliceControl.Proofs.Json.Records

/-!
# What becomes of the parts of a value

A value that is decoded into records and written again does not have to come out as it went in: some
parts are kept, some are changed on the way, and some are lost because no record has a place for
them. A fate says for every part which of these it is, and a value carries its fate if what is
written for it bears this out.

The parts of a value are found by paths. Parts that hold nothing, such as null and empty lists, are
left out of account.
-/

namespace SliceControl.Json

open SortedMap

variable {α : Type}

/-! ## Paths -/

/-- One step from a value to a part of it. -/
inductive Step where
  | member (key : String)
  | item (index : Nat)
  deriving DecidableEq

abbrev Path := List Step

/-- The part of a value that is one step away. -/
def step? : Json → Step → Option Json
  | object entries, .member key => (ofList entries).get? key
  | array items, .item index => items[index]?
  | _, _ => none

/-- The part of a value that a path leads to. -/
def at? (value : Json) : Path → Option Json
  | [] => some value
  | step :: path => (value.step? step).bind fun part ↦ part.at? path

/-- Whether a value holds nothing: null, or a list or an object without parts. -/
def isVacant : Json → Bool
  | null | array [] | object [] => true
  | _ => false

theorem step?_eq_none_of_isVacant {value : Json} (h : value.isVacant = true) (step : Step) :
    value.step? step = none := by
  unfold isVacant at h
  split at h
  · cases step <;> rfl
  · cases step <;> rfl
  · cases step <;> rfl
  · cases h

/-- What holds something that holds something holds something. -/
theorem isVacant_of_step? {value part : Json} {step : Step} (h : value.step? step = some part) :
    value.isVacant = false := by
  by_contra hvacant
  rw [step?_eq_none_of_isVacant (Bool.not_eq_false _ ▸ hvacant)] at h
  cases h

/-- Two values that look the same without their parts. -/
def Alike : Json → Json → Prop
  | array items, array others => items.length = others.length
  | object _, object _ => True
  | value, other => value = other

theorem Alike.refl (value : Json) : Alike value value := by
  cases value <;> simp [Alike]

/-! ## Fates -/

/-- What becomes of a value and of its parts. -/
inductive Fate where
  /-- It comes out as it is. -/
  | kept
  /-- It does not come out at all. -/
  | lost
  /-- It comes out in some way. -/
  | free
  /-- It comes out as an object, with a fate for each of its members. If it is a list, its items are
  lost as such. -/
  | members (fate : String → Fate)
  /-- It comes out as a list of the same length, with a fate for each of its items. -/
  | items (fate : Nat → Fate)
  /-- It comes out as a list, to which `added` may have been added at the end. -/
  | grown (added : Json) (fate : Fate)

namespace Fate

/-- The fate of the members of a record: those in a list have a fate of their own, and the others
share one. -/
def record (fields : List (String × Fate)) (others : Fate) : Fate :=
  .members fun key ↦ (lookup key fields).getD others

/-- The fate of a part that is one step away. -/
def after : Fate → Step → Fate
  | lost, _ => lost
  | free, _ => free
  | members fate, .member key => fate key
  | members _, .item _ => lost
  | items fate, .item index => fate index
  | grown _ fate, .item _ => fate
  | _, _ => kept

/-- The fate of the part that a path leads to. -/
def along (fate : Fate) (path : Path) : Fate := path.foldl after fate

/-- Whether a part has met its fate, its own parts aside, where `found` is what came out. -/
def Met : Fate → (part : Json) → (found : Option Json) → Prop
  | lost, _, found => found = none
  | free, _, _ => True
  | members _, _, found => ∃ others, found = some (object others)
  | grown added _, part, found =>
    (∃ other, found = some other ∧ part.Alike other) ∨
      ∃ items, part = array items ∧ ∃ others, found = some (array others) ∧
        others.length = items.length + 1 ∧ others[items.length]? = some added
  | _, part, found => ∃ other, found = some other ∧ part.Alike other

end Fate

/-- Every part of a value that holds something has met its fate in what came out. -/
def Carries (fate : Fate) (value : Json) (found : Option Json) : Prop :=
  ∀ path part, value.at? path = some part → part.isVacant = false →
    (fate.along path).Met part (found.bind fun other ↦ other.at? path)

/-! ## Carrying -/

/-- A value carries its fate if it has met it itself and its parts do. -/
theorem carries_of_steps {fate : Fate} {value : Json} {found : Option Json}
    (hroot : value.isVacant = false → fate.Met value found)
    (hsteps : ∀ step part, value.step? step = some part → part.isVacant = false →
      Carries (fate.after step) part (found.bind fun other ↦ other.step? step)) :
    Carries fate value found := by
  intro path part hpart hvacant
  cases path with
  | nil =>
    cases hpart
    have hroot := hroot hvacant
    rwa [show (found.bind fun other ↦ other.at? []) = found by cases found <;> rfl]
  | cons step path =>
    obtain ⟨first, hfirst, hrest⟩ := Option.bind_eq_some_iff.mp hpart
    have hfirstVacant : first.isVacant = false := by
      cases path with
      | nil =>
        cases hrest
        exact hvacant
      | cons next path =>
        obtain ⟨second, hsecond, -⟩ := Option.bind_eq_some_iff.mp hrest
        exact isVacant_of_step? hsecond
    have hcarried := hsteps step first hfirst hfirstVacant path part hrest hvacant
    rwa [Option.bind_assoc] at hcarried

theorem carries_kept (value : Json) : Carries .kept value (some value) := by
  intro path part hpart _
  have hkept : Fate.kept.along path = .kept := by
    induction path generalizing value with
    | nil => rfl
    | cons step path ih =>
      obtain ⟨first, -, hrest⟩ := Option.bind_eq_some_iff.mp hpart
      exact ih first hrest
  rw [hkept, Option.bind_some, hpart]
  exact ⟨part, rfl, Alike.refl part⟩

theorem along_lost (path : Path) : Fate.lost.along path = .lost := by
  induction path with
  | nil => rfl
  | cons step path ih => exact ih

theorem along_free (path : Path) : Fate.free.along path = .free := by
  induction path with
  | nil => rfl
  | cons step path ih => exact ih

theorem carries_of_eq_some {value : Json} {found : Option Json} (h : found = some value) :
    Carries .kept value found := by
  rw [h]
  exact carries_kept value

theorem carries_lost (value : Json) : Carries .lost value none := by
  intro path part _ _
  rw [along_lost]
  rfl

theorem carries_free (value : Json) (found : Option Json) : Carries .free value found := by
  intro path part _ _
  rw [along_free]
  trivial

/-! ## Objects -/

section Objects

variable {fate : Fate} {name : String} {value : Json} {members written : SortedMap Json}

/-- An object carries its fate if its members do. -/
theorem carries_ofMap {entries : List (String × Json)}
    (hroot : fate.Met (object entries) (some (ofMap written)))
    (h : ∀ key part, (ofList entries).get? key = some part → part.isVacant = false →
      Carries (fate.after (.member key)) part (written.get? key)) :
    Carries fate (object entries) (some (ofMap written)) := by
  refine carries_of_steps (fun _ ↦ hroot) fun step part hpart hvacant ↦ ?_
  cases step with
  | item index => cases hpart
  | member key =>
    have hwritten : (ofMap written).step? (.member key) = written.get? key :=
      congrArg (·.get? key) (ofList_entries written)
    rw [Option.bind_some, hwritten]
    exact h key part hpart hvacant

variable {fields : List (String × Fate)} {known : List String} {listed : List (String × Json)}

theorem mem_of_lookup_eq_some {key : String} {fate : Fate} (h : lookup key fields = some fate) :
    (key, fate) ∈ fields := by
  induction fields with
  | nil => cases h
  | cons entry rest ih =>
    rw [lookup] at h
    split_ifs at h with hsame
    · cases h
      rw [← hsame]
      exact List.mem_cons_self
    · exact List.mem_cons_of_mem _ (ih h)

theorem lookup_eq_none_iff {key : String} :
    lookup key fields = none ↔ key ∉ fields.map Prod.fst := by
  induction fields with
  | nil => simp [lookup]
  | cons entry rest ih =>
    rw [lookup, List.map_cons, List.mem_cons, not_or, ← ih]
    by_cases hsame : entry.1 = key
    · simp [hsame]
    · simp [hsame, Ne.symm hsame]

theorem get?_ofList_eq_none {key : String} (hlisted : ∀ entry ∈ listed, entry.1 ∈ known)
    (hkey : key ∉ known) : (ofList listed).get? key = none := by
  cases hfound : (ofList listed).get? key with
  | none => rfl
  | some found => exact absurd (hlisted _ (mem_of_get?_ofList hfound)) hkey

/-- A record that keeps aside what it does not know carries the fates of the members it knows. -/
theorem carries_withExtra (hmembers : value.decodeMembers name = .ok members)
    (hnames : fields.map Prod.fst = known) (hlisted : ∀ entry ∈ listed, entry.1 ∈ known)
    (hknown : ∀ field ∈ fields, ∀ part, members.get? field.1 = some part →
      part.isVacant = false → Carries field.2 part ((ofList listed).get? field.1)) :
    Carries (.record fields .kept) value
      (some (withExtra (unknownMembers members known) listed)) := by
  obtain ⟨entries, rfl, rfl⟩ := decodeMembers_eq_ok_iff.mp hmembers
  refine carries_ofMap ⟨_, rfl⟩ fun key part hpart hvacant ↦ ?_
  show Carries ((lookup key fields).getD .kept) part _
  rw [get?_ofList_append, ofList_entries, unknownMembers, get?_filterKeys]
  cases hfate : lookup key fields with
  | some fate =>
    have hmem := mem_of_lookup_eq_some hfate
    have hkey : key ∈ known := hnames ▸ List.mem_map_of_mem hmem
    simpa [hkey] using hknown _ hmem part hpart hvacant
  | none =>
    have hkey : key ∉ known := hnames ▸ lookup_eq_none_iff.mp hfate
    simpa [hkey, get?_ofList_eq_none hlisted hkey, hpart] using carries_kept part

/-- A record that keeps nothing aside loses what it does not know. It may come as an array, and then
its members are found under their names afterwards, not at their positions. -/
theorem carries_ofMembers {places : List Field}
    (hmembers : value.decodeRecord name places = .ok members)
    (hlisted : ∀ entry ∈ listed, entry.1 ∈ fields.map Prod.fst)
    (hknown : ∀ field ∈ fields, ∀ part, members.get? field.1 = some part →
      part.isVacant = false → Carries field.2 part ((ofList listed).get? field.1)) :
    Carries (.record fields .lost) value (some (ofMembers listed)) := by
  rcases cases_of_decodeRecord hmembers with ⟨entries, rfl, rfl⟩ | ⟨items, rfl, -⟩
  · refine carries_ofMap ⟨_, rfl⟩ fun key part hpart hvacant ↦ ?_
    show Carries ((lookup key fields).getD .lost) part _
    cases hfate : lookup key fields with
    | some fate => exact hknown _ (mem_of_lookup_eq_some hfate) part hpart hvacant
    | none =>
      rw [get?_ofList_eq_none hlisted (lookup_eq_none_iff.mp hfate)]
      exact carries_lost part
  · refine carries_of_steps (fun _ ↦ ⟨_, rfl⟩) fun step part hpart _ ↦ ?_
    cases step with
    | member key => cases hpart
    | item index => exact carries_lost part

end Objects

/-! ## Members -/

section Members

variable {members : SortedMap Json} {key : String} {decode : Json → Decoded α} {encode : α → Json}
  {part : Json}

/-- A member that is there is decoded. -/
theorem exists_of_get? {found : Option α} (h : decodeMember members key decode = .ok found)
    (hpart : members.get? key = some part) :
    ∃ value, found = some value ∧ decode part = .ok value := by
  rw [decodeMember, hpart] at h
  obtain ⟨value, hvalue, rfl⟩ := map_eq_ok_iff.mp h
  exact ⟨value, rfl, hvalue⟩

theorem exists_of_decodeNullable {found : Option α} (h : decodeNullable decode part = .ok found)
    (hvacant : part.isVacant = false) : ∃ value, found = some value ∧ decode part = .ok value := by
  cases part with
  | null => cases hvacant
  | _ =>
    obtain ⟨value, hvalue, rfl⟩ := map_eq_ok_iff.mp h
    exact ⟨value, rfl, hvalue⟩

theorem string_of_decodeString {text : String} (h : decodeString part = .ok text) :
    string text = part := by
  cases part with
  | string found =>
    cases h
    rfl
  | _ => cases h

theorem ofUInt32_of_decodeUInt32 {number : UInt32} (h : decodeUInt32 part = .ok number) :
    ofUInt32 number = part := by
  obtain ⟨natural, hnatural, rfl⟩ := map_eq_ok_iff.mp h
  cases part with
  | whole found =>
    obtain ⟨value, hlower, hupper⟩ := found
    have hrange : 0 ≤ value ∧ value ≤ (Text.Numeral.max32 : Nat) := by
      by_contra hbeyond
      cases (if_neg hbeyond).symm.trans hnatural
    cases (if_pos hrange).symm.trans hnatural
    have hsmall : value.toNat < UInt32.size := by
      have hmax : value ≤ 4294967295 := hrange.2
      unfold UInt32.size
      omega
    have hvalue : ((UInt32.ofNat value.toNat).toNat : Int) = value := by
      rw [UInt32.toNat_ofNat_of_lt' hsmall]
      exact Int.toNat_of_nonneg hrange.1
    unfold ofUInt32 Whole.ofUInt32
    simp only [hvalue]
  | _ => cases hnatural

theorem ofStrings_of_decodeStrings {texts : List String} (h : decodeStrings part = .ok texts) :
    ofStrings texts = part := by
  cases part with
  | array items => exact congrArg array (map_of_mapM_eq_ok h fun _ _ ↦ string_of_decodeString)
  | _ => cases h

section Lists

variable {values written : List α}

/-- A list carries its fate if what is written at each position does. -/
theorem carries_of_decodeList {fate : Fate} (h : decodeList decode part = .ok values)
    (hroot : ∀ items, items.length = values.length →
      fate.Met (array items) (some (array (written.map encode))))
    (hitem : ∀ index item value, values[index]? = some value → decode item = .ok value →
      ∃ other, written[index]? = some other ∧
        Carries (fate.after (.item index)) item (some (encode other))) :
    Carries fate part (some (array (written.map encode))) := by
  cases part with
  | array items =>
    have hlength := length_of_mapM_eq_ok h
    refine carries_of_steps (fun _ ↦ hroot items hlength.symm) fun step item hstep _ ↦ ?_
    cases step with
    | member key => cases hstep
    | item index =>
      obtain ⟨value, hvalue, hdecoded⟩ := exists_getElem?_of_mapM_eq_ok h hstep
      obtain ⟨other, hother, hcarries⟩ := hitem index item value hvalue hdecoded
      have hwritten : (array (written.map encode)).step? (.item index) = some (encode other) := by
        show (written.map encode)[index]? = _
        rw [List.getElem?_map, hother, Option.map_some]
      rwa [Option.bind_some, hwritten]
  | _ => cases h

/-- A list may be written with other items, as long as there are as many. -/
theorem carries_items {fate : Nat → Fate} (h : decodeList decode part = .ok values)
    (hlength : written.length = values.length)
    (hitem : ∀ index item value other, values[index]? = some value →
      written[index]? = some other → decode item = .ok value →
      Carries (fate index) item (some (encode other))) :
    Carries (.items fate) part (some (array (written.map encode))) := by
  refine carries_of_decodeList h (fun items hitems ↦ ⟨_, rfl, ?_⟩) ?_
  · show items.length = (written.map encode).length
    rw [List.length_map, hlength, hitems]
  · intro index item value hvalue hdecoded
    have hlt : index < written.length := hlength ▸ (List.getElem?_eq_some_iff.mp hvalue).1
    have hother := List.getElem?_eq_getElem hlt
    exact ⟨_, hother, hitem index item value _ hvalue hother hdecoded⟩

variable {fate : Fate}
  (hitem : ∀ item value, decode item = .ok value → Carries fate item (some (encode value)))

include hitem

/-- A list that is written with the items that were decoded carries the fate of its items. -/
theorem carries_items_self (h : decodeList decode part = .ok values) :
    Carries (.items fun _ ↦ fate) part (some (array (values.map encode))) := by
  refine carries_items h rfl fun _ item value other hvalue hother hdecoded ↦ ?_
  cases hvalue.symm.trans hother
  exact hitem item value hdecoded

theorem carries_ungrown (h : decodeList decode part = .ok values) (added : Json) :
    Carries (.grown added fate) part (some (array (values.map encode))) := by
  refine carries_of_decodeList h (fun items hitems ↦ .inl ⟨_, rfl, ?_⟩) ?_
  · show items.length = (values.map encode).length
    rw [List.length_map, hitems]
  · intro index item value hvalue hdecoded
    exact ⟨value, hvalue, hitem item value hdecoded⟩

theorem carries_grown (h : decodeList decode part = .ok values) (extra : α) :
    Carries (.grown (encode extra) fate) part (some (array ((values ++ [extra]).map encode))) := by
  refine carries_of_decodeList h (fun items hitems ↦ .inr ⟨items, rfl, _, rfl, ?_, ?_⟩) ?_
  · rw [List.length_map, List.length_append, hitems, List.length_singleton]
  · rw [List.getElem?_map, hitems, List.getElem?_concat_length]
    rfl
  · intro index item value hvalue hdecoded
    have hlt : index < values.length := (List.getElem?_eq_some_iff.mp hvalue).1
    exact ⟨value, by rw [List.getElem?_append_left hlt, hvalue], hitem item value hdecoded⟩

end Lists

/-- What is written for a decoded map has the members of the map. -/
theorem exists_of_decodeMap {values : SortedMap α} (h : decodeMap decode part = .ok values)
    (hencode : ∀ item value, decode item = .ok value → encode value = item) :
    ∃ entries, part = object entries ∧ values.mapValues encode = ofList entries := by
  cases part with
  | object entries =>
    obtain ⟨found, hfound, rfl⟩ := map_eq_ok_iff.mp h
    have hback : found.map (fun entry ↦ (entry.1, encode entry.2)) = (ofList entries).entries := by
      apply map_of_mapM_eq_ok hfound
      intro item entry hentry
      obtain ⟨value, hvalue, rfl⟩ := map_eq_ok_iff.mp hentry
      rw [hencode item.2 value hvalue]
    have hsorted : found.Pairwise fun left right ↦ left.1 < right.1 := by
      have hsorted := (ofList entries).sorted
      rwa [← hback, List.pairwise_map] at hsorted
    refine ⟨entries, rfl, SortedMap.ext ?_⟩
    rw [← hback]
    exact congrArg _ (entries_ofList hsorted)
  | _ => cases h

theorem carries_of_decodeMap {values : SortedMap α} (h : decodeMap decode part = .ok values)
    (hencode : ∀ item value, decode item = .ok value → encode value = item) :
    Carries .kept part (some (ofMap (values.mapValues encode))) := by
  obtain ⟨entries, rfl, hvalues⟩ := exists_of_decodeMap h hencode
  rw [hvalues]
  exact carries_ofMap ⟨_, rfl, trivial⟩ fun _ _ hpart _ ↦ carries_of_eq_some hpart

theorem isEmpty_of_decodeList {values : List α} (h : decodeList decode part = .ok values)
    (hvacant : part.isVacant = false) : values.isEmpty = false := by
  cases part with
  | array items =>
    have hlength := length_of_mapM_eq_ok h
    cases items with
    | nil => cases hvacant
    | cons => exact List.isEmpty_eq_false_iff.mpr (List.ne_nil_of_length_eq_add_one hlength)
  | _ => cases h

theorem isEmpty_of_decodeMap {values : SortedMap α} (h : decodeMap decode part = .ok values)
    (hencode : ∀ item value, decode item = .ok value → encode value = item)
    (hvacant : part.isVacant = false) : values.isEmpty = false := by
  obtain ⟨entries, rfl, hvalues⟩ := exists_of_decodeMap h hencode
  cases entries with
  | nil => cases hvacant
  | cons entry rest =>
    by_contra hempty
    have hnone := SortedMap.isEmpty_iff.mp (Bool.not_eq_false _ ▸ hempty) entry.1
    have hget := congrArg (·.get? entry.1) hvalues
    simp [SortedMap.get?_mapValues, hnone] at hget

theorem carries_of_decodeTexts {texts : SortedMap String} (h : decodeTexts part = .ok texts)
    (hvacant : part.isVacant = false) :
    texts.isEmpty = false ∧ Carries .kept part (some (ofTexts texts)) :=
  ⟨isEmpty_of_decodeMap h (fun _ _ ↦ string_of_decodeString) hvacant,
    carries_of_decodeMap h fun _ _ ↦ string_of_decodeString⟩

end Members

end SliceControl.Json
