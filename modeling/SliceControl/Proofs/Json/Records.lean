import SliceControl.PodTemplate.Codec
import SliceControl.Proofs.Json.Shape
import SliceControl.Proofs.Sequence

/-!
# Records

A record is decoded member by member, and it keeps aside what it does not know. The lemmas take the
decoding of a record apart into the decoding of its members, whether these come as an object or as
an array, and they put it together again for an object that was written from the record: each member
is found under its own name, as long as nothing that was kept aside has the name of a known
member.
-/

namespace SliceControl.Json

open SortedMap

variable {α β : Type} {good : Nat → Json → Prop} {depth : Nat}

/-- What a record keeps aside: good values under names that it does not know. -/
structure Keeps (good : Nat → Json → Prop) (depth : Nat) (known : List String)
    (extra : Extra) : Prop where
  unknown : ∀ key ∈ known, extra.get? key = none
  good : ∀ key value, extra.get? key = some value → good (depth - 1) value

theorem keeps_empty (good : Nat → Json → Prop) (depth : Nat) (known : List String) :
    Keeps good depth known .empty :=
  ⟨fun _ _ ↦ rfl, fun _ _ h ↦ by cases h⟩

/-! ## Taking a record apart -/

theorem decodeMembers_eq_ok_iff {name : String} {value : Json} {members : SortedMap Json} :
    value.decodeMembers name = .ok members ↔
      ∃ entries, value = object entries ∧ members = ofList entries := by
  cases value with
  | object entries => simp [decodeMembers, eq_comm]
  | _ => simp [decodeMembers]

/-- The items of an array are put under the names of fields and stay as they are. -/
theorem mem_of_mem_place {expected : String} {position : Nat} {fields : List Field}
    {items : List Json} {members : List (String × Json)}
    (h : Field.place expected position fields items = .ok members) {entry : String × Json}
    (hentry : entry ∈ members) : entry.2 ∈ items := by
  induction fields generalizing position items members with
  | nil =>
    cases h
    cases hentry
  | cons field fields ih =>
    cases items with
    | nil =>
      rw [Field.place] at h
      split at h
      · cases ih h hentry
      · cases h
    | cons item items =>
      obtain ⟨_, -, hrest⟩ := bind_eq_ok_iff.mp h
      obtain ⟨others, hothers, hsame⟩ := bind_eq_ok_iff.mp hrest
      cases hsame
      rcases List.mem_cons.mp hentry with rfl | hentry
      · exact List.mem_cons_self
      · exact List.mem_cons_of_mem item (ih hothers hentry)

/-- A record is an object of its members or an array of some of them. -/
theorem cases_of_decodeRecord {name : String} {fields : List Field} {value : Json}
    {members : SortedMap Json} (h : value.decodeRecord name fields = .ok members) :
    (∃ entries, value = object entries ∧ members = ofList entries) ∨
      ∃ items, value = array items ∧
        ∀ key member, members.get? key = some member → member ∈ items := by
  cases value with
  | array items =>
    obtain ⟨placed, hplaced, hrest⟩ := bind_eq_ok_iff.mp h
    refine .inr ⟨items, rfl, fun key member hmember ↦ ?_⟩
    split at hrest
    · cases hrest
    · cases hrest
      exact mem_of_mem_place hplaced (mem_of_get?_ofList hmember)
  | object entries =>
    cases h
    exact .inl ⟨entries, rfl, rfl⟩
  | _ => cases h

/-- The members of a good record are good. -/
theorem good_of_decodeRecord (hgood : IsHereditary good) {value : Json} (h : good depth value)
    {name : String} {fields : List Field} {members : SortedMap Json}
    (hmembers : value.decodeRecord name fields = .ok members) (key : String) (member : Json)
    (hmember : members.get? key = some member) : good (depth - 1) member := by
  rcases cases_of_decodeRecord hmembers with ⟨entries, rfl, rfl⟩ | ⟨items, rfl, hitems⟩
  · exact hgood.member depth entries h _ (mem_of_get?_ofList hmember)
  · exact hgood.item depth items h _ (hitems key member hmember)

/-- So are those of a record that is an object only. -/
theorem good_of_decodeMembers (hgood : IsHereditary good) {value : Json} (h : good depth value)
    {name : String} {members : SortedMap Json} (hmembers : value.decodeMembers name = .ok members)
    (key : String) (member : Json) (hmember : members.get? key = some member) :
    good (depth - 1) member := by
  obtain ⟨entries, rfl, rfl⟩ := decodeMembers_eq_ok_iff.mp hmembers
  exact hgood.member depth entries h _ (mem_of_get?_ofList hmember)

theorem keeps_unknownMembers {members : SortedMap Json}
    (h : ∀ key member, members.get? key = some member → good (depth - 1) member)
    (known : List String) : Keeps good depth known (unknownMembers members known) := by
  constructor
  · intro key hkey
    simp [unknownMembers, get?_filterKeys, hkey]
  · intro key value hvalue
    rw [unknownMembers, get?_filterKeys] at hvalue
    split at hvalue
    · exact h key value hvalue
    · cases hvalue

section Decoded

variable {members : SortedMap Json} {key : String} {decode : Json → Decoded α}

theorem exists_of_decodeMember {value : α}
    (h : decodeMember members key decode = .ok (some value)) :
    ∃ member, members.get? key = some member ∧ decode member = .ok value := by
  unfold decodeMember at h
  cases hmember : members.get? key with
  | none =>
    rw [hmember] at h
    cases h
  | some member =>
    rw [hmember] at h
    obtain ⟨decoded, hdecoded, hsame⟩ := map_eq_ok_iff.mp h
    cases hsame
    exact ⟨member, rfl, hdecoded⟩

/-- A member has a property that its default has and that decoding leads to. -/
theorem decodeMember_getD {found : Option α} (h : decodeMember members key decode = .ok found)
    {motive : α → Prop} {default : α} (hdefault : motive default)
    (hdecode : ∀ member value, members.get? key = some member → decode member = .ok value →
      motive value) : motive (found.getD default) := by
  cases found with
  | none => exact hdefault
  | some value =>
    obtain ⟨member, hmember, hvalue⟩ := exists_of_decodeMember h
    exact hdecode member value hmember hvalue

/-- A member that has to be there is there. -/
theorem exists_of_required {found : Option α} (h : decodeMember members key decode = .ok found)
    {name : String} {value : α} (hvalue : required name found = .ok value) :
    ∃ member, members.get? key = some member ∧ decode member = .ok value := by
  cases found with
  | none => cases hvalue
  | some found =>
    cases hvalue
    exact exists_of_decodeMember h

/-- A member that has to be there has a property that decoding leads to. -/
theorem decodeMember_required {found : Option α} (h : decodeMember members key decode = .ok found)
    {name : String} {value : α} (hvalue : required name found = .ok value) {motive : α → Prop}
    (hdecode : ∀ member, members.get? key = some member → decode member = .ok value →
      motive value) : motive value := by
  obtain ⟨member, hmember, hdecoded⟩ := exists_of_required h hvalue
  exact hdecode member hmember hdecoded

variable (hmembers : ∀ key member, members.get? key = some member → good (depth - 1) member)

include hmembers

/-- A member that may be null has a property, if it is there, that decoding leads to. -/
theorem of_decodeNullable {found : Option (Option α)}
    (h : decodeMember members key (decodeNullable decode) = .ok found) {motive : α → Prop}
    (hdecode : ∀ {member value}, good (depth - 1) member → decode member = .ok value →
      motive value) {value : α} (hvalue : found.getD none = some value) : motive value := by
  revert value
  refine decodeMember_getD (motive := fun found ↦ ∀ {value : α}, found = some value → motive value)
    h (by simp) ?_
  intro member found hmember hfound value hvalue
  have hdecoded : decode member = .ok value := by
    cases member with
    | null =>
      cases hfound
      cases hvalue
    | _ =>
      obtain ⟨first, hfirst, rfl⟩ := map_eq_ok_iff.mp hfound
      cases hvalue
      exact hfirst
  exact hdecode (hmembers key member hmember) hdecoded

/-- Every item of a list has a property that decoding leads to. -/
theorem of_decodeList (hgood : IsHereditary good) {found : Option (List α)}
    (h : decodeMember members key (decodeList decode) = .ok found) {motive : α → Prop}
    (hdecode : ∀ {item value}, good (depth - 1 - 1) item → decode item = .ok value →
      motive value) : ∀ value ∈ found.getD [], motive value := by
  refine decodeMember_getD (motive := fun values ↦ ∀ value ∈ values, motive value) h (by simp) ?_
  intro member values hmember hvalues value hvalue
  cases member with
  | array items =>
    obtain ⟨item, hitem, hdecoded⟩ := exists_of_mem_mapM hvalues hvalue
    have hitems := hgood.item _ items (hmembers key _ hmember)
    exact hdecode (hitems item hitem) hdecoded
  | _ => cases hvalues

/-- The values of a map that is kept as it is are good. -/
theorem of_decodeMap (hgood : IsHereditary good) {found : Option (SortedMap Json)}
    (h : decodeMember members key (decodeMap .ok) = .ok found) (name : String) (value : Json)
    (hvalue : (found.getD .empty).get? name = some value) : good (depth - 1 - 1) value := by
  revert hvalue
  refine decodeMember_getD (motive := fun values ↦ values.get? name = some value → _) h (by simp) ?_
  intro member values hmember hvalues hvalue
  cases member with
  | object entries =>
    have hsame : (ofList entries).entries.mapM (decodeEntry .ok) =
        .ok ((ofList entries).entries.map id) := mapM_eq_ok_of_mem fun _ _ ↦ rfl
    rw [decodeMap, hsame, List.map_id] at hvalues
    cases hvalues
    rw [ofList_entries] at hvalue
    exact hgood.member _ entries (hmembers key _ hmember) _ (mem_of_get?_ofList hvalue)
  | _ => cases hvalues

end Decoded

/-! ## Putting a record together -/

theorem exists_decodeMembers (name : String) (members : List (String × Json)) :
    ∃ found, (ofMembers members).decodeMembers name = .ok found ∧
      ∀ key, found.get? key = (ofList members).get? key :=
  ⟨ofList members, decodeMembers_eq_ok_iff.mpr ⟨_, rfl, (ofList_entries _).symm⟩, fun _ ↦ rfl⟩

theorem decodeRecord_ofMap (name : String) (fields : List Field) (members : SortedMap Json) :
    (ofMap members).decodeRecord name fields = .ok members :=
  congrArg Except.ok (ofList_entries members)

/-- What is written for a record is an object. -/
theorem exists_decodeRecord (name : String) (fields : List Field)
    (members : List (String × Json)) :
    ∃ found, (ofMembers members).decodeRecord name fields = .ok found ∧
      ∀ key, found.get? key = (ofList members).get? key :=
  ⟨ofList members, decodeRecord_ofMap name fields _, fun _ ↦ rfl⟩

@[simp] theorem get?_ofList_unlessEmpty (key other : String) (isEmpty : Bool) (value : Json) :
    (ofList (unlessEmpty key isEmpty value)).get? other =
      if isEmpty = false ∧ key = other then some value else none := by
  cases isEmpty <;> simp [unlessEmpty]

@[simp] theorem get?_ofList_optional (key other : String) (value : Option Json) :
    (ofList (optional key value)).get? other = if key = other then value else none := by
  cases value <;> simp [optional]

section WithExtra

variable {known : List String} {extra : Extra} {members : List (String × Json)}

/-- What was kept aside is found beside the known members, and they are found beside it. -/
theorem Keeps.exists_decodeMembers (h : Keeps good depth known extra) (name : String)
    (members : List (String × Json)) (hmembers : ∀ entry ∈ members, entry.1 ∈ known) :
    ∃ found, (withExtra extra members).decodeMembers name = .ok found ∧
      (∀ key ∈ known, found.get? key = (ofList members).get? key) ∧
      unknownMembers found known = extra := by
  obtain ⟨found, hfound, hget⟩ := Json.exists_decodeMembers name (extra.entries ++ members)
  simp only [get?_ofList_append, ofList_entries] at hget
  have hknown (key : String) (hkey : key ∈ known) :
      found.get? key = (ofList members).get? key := by
    rw [hget, h.unknown key hkey, Option.or_none]
  have hextra : unknownMembers found known = extra := by
    apply ext_get?
    intro key
    rw [unknownMembers, get?_filterKeys, hget]
    by_cases hkey : key ∈ known
    · simp [hkey, h.unknown key hkey]
    · have hnone : (ofList members).get? key = none := by
        cases hfound : (ofList members).get? key with
        | none => rfl
        | some value => exact absurd (hmembers _ (mem_of_get?_ofList hfound)) hkey
      simp [hkey, hnone]
  exact ⟨found, hfound, hknown, hextra⟩

@[simp] theorem mem_unlessEmpty {entry : String × Json} {key : String} {isEmpty : Bool}
    {value : Json} :
    entry ∈ unlessEmpty key isEmpty value ↔ isEmpty = false ∧ entry = (key, value) := by
  cases isEmpty <;> simp [unlessEmpty]

@[simp] theorem mem_optional {entry : String × Json} {key : String} {value : Option Json} :
    entry ∈ optional key value ↔ ∃ found, value = some found ∧ entry = (key, found) := by
  cases value <;> simp [optional]

theorem Tidy.withExtra {reals : Bool} (hdepth : 0 < depth)
    (hextra : Keeps (Tidy reals) depth known extra)
    (hmembers : ∀ entry ∈ members, entry.2.Tidy reals (depth - 1)) :
    (Json.withExtra extra members).Tidy reals depth := by
  apply Tidy.ofMembers hdepth
  intro entry hentry
  rcases List.mem_append.mp hentry with hkept | hmember
  · exact hextra.good entry.1 entry.2 (mem_entries_iff.mp hkept)
  · exact hmembers entry hmember

end WithExtra

/-- Writing a list and reading it gives the list again if it does for each item. -/
theorem decodeList_map {decode : Json → Decoded α} {encode : α → Json} {values : List α}
    (h : ∀ value ∈ values, decode (encode value) = .ok value) :
    decodeList decode (array (values.map encode)) = .ok values := by
  have hback : (values.map encode).mapM decode = .ok (values.map id) := by
    rw [List.mapM_map]
    exact mapM_eq_ok_of_mem h
  rw [decodeList, hback, List.map_id]

/-- Writing a map and reading it gives the map again if it does for each value. -/
theorem decodeMap_mapValues {decode : Json → Decoded α} (encode : α → Json)
    (h : ∀ value, decode (encode value) = .ok value) (values : SortedMap α) :
    decodeMap decode (ofMap (values.mapValues encode)) = .ok values := by
  have hback : (values.mapValues encode).entries.mapM (decodeEntry decode) =
      .ok (values.entries.map id) := by
    show (values.entries.map fun entry ↦ (entry.1, encode entry.2)).mapM (decodeEntry decode) = _
    rw [List.mapM_map]
    apply mapM_eq_ok_of_mem
    intro entry hentry
    show (decode (encode entry.2)).map _ = .ok entry
    rw [h]
    rfl
  show ((ofList (values.mapValues encode).entries).entries.mapM (decodeEntry decode)).map ofList = _
  rw [ofList_entries, hback, List.map_id]
  exact congrArg Except.ok (ofList_entries values)

theorem decodeTexts_ofTexts (texts : SortedMap String) : decodeTexts (ofTexts texts) = .ok texts :=
  decodeMap_mapValues string (fun _ ↦ rfl) texts

theorem decodeMap_ofMap (members : SortedMap Json) :
    decodeMap .ok (ofMap members) = .ok members := by
  have hsame : members.mapValues id = members := SortedMap.ext (List.map_id members.entries)
  have hback : decodeMap .ok (ofMap (members.mapValues id)) = .ok members :=
    decodeMap_mapValues id (fun _ ↦ rfl) members
  rwa [hsame] at hback

theorem decodeUInt32_ofUInt32 (number : UInt32) : decodeUInt32 (ofUInt32 number) = .ok number := by
  have hbound := number.toNat_lt
  have hrange : 0 ≤ (number.toNat : Int) ∧ (number.toNat : Int) ≤ (Text.Numeral.max32 : Nat) := by
    rw [Text.Numeral.max32]
    omega
  have hnumber : decodeNat Text.Numeral.max32 "u32" (ofUInt32 number) = .ok number.toNat :=
    if_pos hrange
  rw [decodeUInt32, hnumber]
  exact congrArg Except.ok (UInt32.ofNat_toNat)

/-! ## Members read back -/

/-- A member reads as a value, which may be its default if it is left out. -/
def Reads (members : SortedMap Json) (key : String) (decode : Json → Decoded α)
    (default value : α) : Prop :=
  ∃ found, decodeMember members key decode = .ok found ∧ found.getD default = value

section Reads

variable {members : SortedMap Json} {key : String} {decode : Json → Decoded α} {default value : α}

theorem decodeMember_eq_ok_some {member : Json} (hmember : members.get? key = some member)
    (hvalue : decode member = .ok value) : decodeMember members key decode = .ok (some value) := by
  rw [decodeMember, hmember]
  exact congrArg (Except.map some) hvalue

theorem reads_of_some {member : Json} (hmember : members.get? key = some member)
    (hvalue : decode member = .ok value) : Reads members key decode default value :=
  ⟨some value, decodeMember_eq_ok_some hmember hvalue, rfl⟩

/-- What is left out when it is empty is read as its default, which has to be empty. -/
theorem reads_unlessEmpty {isEmpty : Bool} {member : Json}
    (hmember : members.get? key = (ofList (unlessEmpty key isEmpty member)).get? key)
    (hempty : isEmpty = true → value = default) (hvalue : decode member = .ok value) :
    Reads members key decode default value := by
  cases isEmpty with
  | false => exact reads_of_some (hmember.trans (by simp)) hvalue
  | true =>
    have hnone : members.get? key = none := hmember
    exact ⟨none, by rw [decodeMember, hnone], (hempty rfl).symm⟩

theorem reads_optional {encode : α → Json} {value : Option α}
    (hmember : members.get? key = value.map encode) (hnull : ∀ value, encode value ≠ null)
    (hvalue : ∀ found, value = some found → decode (encode found) = .ok found) :
    Reads members key (decodeNullable decode) none value := by
  cases value with
  | none => exact ⟨none, by rw [decodeMember, hmember]; rfl, rfl⟩
  | some found =>
    have hfound : decodeNullable decode (encode found) = .ok (some found) := by
      have hdecoded := hvalue found rfl
      have hne := hnull found
      cases hencoded : encode found with
      | null => exact absurd hencoded hne
      | _ =>
        rw [hencoded] at hdecoded
        rw [decodeNullable, hdecoded]
        · rfl
        · exact Json.noConfusion
    exact reads_of_some hmember hfound

theorem eq_empty_of_isEmpty {map : SortedMap α} (h : map.isEmpty = true) : map = .empty :=
  SortedMap.ext (List.isEmpty_iff.mp h)

/-- A list is left out when it is empty, and so are the other kinds of collections. -/
theorem reads_list {decode : Json → Decoded α} {encode : α → Json} {values : List α}
    (hmember : members.get? key =
      (ofList (unlessEmpty key values.isEmpty (array (values.map encode)))).get? key)
    (h : ∀ value ∈ values, decode (encode value) = .ok value) :
    Reads members key (decodeList decode) [] values :=
  reads_unlessEmpty hmember List.isEmpty_iff.mp (decodeList_map h)

theorem reads_strings {texts : List String}
    (hmember : members.get? key =
      (ofList (unlessEmpty key texts.isEmpty (ofStrings texts))).get? key) :
    Reads members key decodeStrings [] texts :=
  reads_list hmember fun _ _ ↦ rfl

theorem reads_texts {texts : SortedMap String}
    (hmember : members.get? key =
      (ofList (unlessEmpty key texts.isEmpty (ofTexts texts))).get? key) :
    Reads members key decodeTexts .empty texts :=
  reads_unlessEmpty hmember eq_empty_of_isEmpty (decodeTexts_ofTexts texts)

theorem reads_map {values : SortedMap Json}
    (hmember : members.get? key =
      (ofList (unlessEmpty key values.isEmpty (ofMap values))).get? key) :
    Reads members key (decodeMap .ok) .empty values :=
  reads_unlessEmpty hmember eq_empty_of_isEmpty (decodeMap_ofMap values)

end Reads

end SliceControl.Json
