import SliceControl.Json
import SliceControl.Proofs.SortedMap

/-!
# The shape of JSON values

A value is tidy if its objects list their members in order, each key once, and if its containers are
not nested too deeply. Whatever the reader yields is tidy, and what is tidy and free of reals
reads back once it is written.
-/

namespace SliceControl.Json

/-- Members are in order, containers are nested to this depth at most, and reals occur only if
they are allowed. -/
def Tidy (reals : Bool) : (depth : Nat) → Json → Prop
  | _, null => True
  | _, bool _ => True
  | _, whole _ => True
  | _, real _ => reals = true
  | _, string _ => True
  | 0, array _ => False
  | 0, object _ => False
  | depth + 1, array items => ∀ item ∈ items, item.Tidy reals depth
  | depth + 1, object members =>
    (members.Pairwise fun left right ↦ left.1 < right.1) ∧
      ∀ entry ∈ members, entry.2.Tidy reals depth

instance decidableTidy (reals : Bool) :
    (depth : Nat) → (value : Json) → Decidable (value.Tidy reals depth)
  | 0, .null | 0, .bool _ | 0, .whole _ | 0, .string _ => .isTrue trivial
  | _ + 1, .null | _ + 1, .bool _ | _ + 1, .whole _ | _ + 1, .string _ => .isTrue trivial
  | 0, .real _ | _ + 1, .real _ => inferInstanceAs (Decidable (reals = true))
  | 0, .array _ | 0, .object _ => .isFalse id
  | depth + 1, .array items =>
    have := decidableTidy reals depth
    inferInstanceAs (Decidable (∀ item ∈ items, item.Tidy reals depth))
  | depth + 1, .object members =>
    have := decidableTidy reals depth
    inferInstanceAs (Decidable ((members.Pairwise fun left right ↦ left.1 < right.1) ∧
      ∀ entry ∈ members, entry.2.Tidy reals depth))

mutual

/-- Whether a binary64 number occurs in a value. -/
def hasReal : Json → Bool
  | real _ => true
  | array items => itemsHaveReal items
  | object members => membersHaveReal members
  | _ => false

def itemsHaveReal : List Json → Bool
  | [] => false
  | item :: items => hasReal item || itemsHaveReal items

def membersHaveReal : List (String × Json) → Bool
  | [] => false
  | (_, value) :: members => hasReal value || membersHaveReal members

end

theorem hasReal_of_mem_items {items : List Json} (h : itemsHaveReal items = false) {item : Json}
    (hmem : item ∈ items) : item.hasReal = false := by
  induction items with
  | nil => cases hmem
  | cons first rest ih =>
    obtain ⟨hfirst, hrest⟩ := Bool.or_eq_false_iff.mp h
    rcases List.mem_cons.mp hmem with rfl | hmem
    · exact hfirst
    · exact ih hrest hmem

theorem hasReal_of_mem_members {members : List (String × Json)}
    (h : membersHaveReal members = false) {entry : String × Json} (hmem : entry ∈ members) :
    entry.2.hasReal = false := by
  induction members with
  | nil => cases hmem
  | cons first rest ih =>
    obtain ⟨hfirst, hrest⟩ := Bool.or_eq_false_iff.mp h
    rcases List.mem_cons.mp hmem with rfl | hmem
    · exact hfirst
    · exact ih hrest hmem

/-- A property of values at a depth that passes to what they contain. -/
structure IsHereditary (good : Nat → Json → Prop) : Prop where
  item : ∀ depth items, good depth (array items) → ∀ item ∈ items, good (depth - 1) item
  member : ∀ depth members, good depth (object members) → ∀ entry ∈ members,
    good (depth - 1) entry.2

theorem isHereditary_true : IsHereditary fun _ _ ↦ True :=
  ⟨fun _ _ _ _ _ ↦ trivial, fun _ _ _ _ _ ↦ trivial⟩

namespace Tidy

variable {reals : Bool} {depth : Nat}

@[simp] theorem null : Json.null.Tidy reals depth := by cases depth <;> trivial

@[simp] theorem bool (value : Bool) : (Json.bool value).Tidy reals depth := by
  cases depth <;> trivial

@[simp] theorem whole (value : Whole) : (Json.whole value).Tidy reals depth := by
  cases depth <;> trivial

@[simp] theorem string (text : String) : (Json.string text).Tidy reals depth := by
  cases depth <;> trivial

theorem isHereditary (reals : Bool) : IsHereditary (Tidy reals) where
  item
    | 0, _, h => h.elim
    | _ + 1, _, h => h
  member
    | 0, _, h => h.elim
    | _ + 1, _, h => h.2

/-- A value leaves room for one container more. -/
theorem succ {value : Json} (h : value.Tidy reals depth) : value.Tidy reals (depth + 1) := by
  induction depth generalizing value with
  | zero =>
    cases value with
    | array items => exact h.elim
    | object members => exact h.elim
    | _ => exact h
  | succ depth ih =>
    cases value with
    | array items => exact fun item hmem ↦ ih (h item hmem)
    | object members => exact ⟨h.1, fun entry hmem ↦ ih (h.2 entry hmem)⟩
    | _ => exact h

/-- A tidy value without reals. -/
theorem of_hasReal {value : Json} (h : value.Tidy true depth) (hreal : value.hasReal = false) :
    value.Tidy false depth := by
  induction depth generalizing value with
  | zero =>
    cases value with
    | real number => cases hreal
    | array items => exact h
    | object members => exact h
    | _ => trivial
  | succ depth ih =>
    cases value with
    | real number => cases hreal
    | array items => exact fun item hmem ↦ ih (h item hmem) (hasReal_of_mem_items hreal hmem)
    | object members =>
      exact ⟨h.1, fun entry hmem ↦ ih (h.2 entry hmem) (hasReal_of_mem_members hreal hmem)⟩
    | _ => trivial

theorem ofMap {members : SortedMap Json} (hdepth : 0 < depth)
    (h : ∀ key value, members.get? key = some value → value.Tidy reals (depth - 1)) :
    (Json.ofMap members).Tidy reals depth := by
  obtain ⟨below, rfl⟩ := Nat.exists_eq_add_of_lt hdepth
  rw [Nat.zero_add] at h ⊢
  exact ⟨members.sorted, fun entry hmem ↦ h entry.1 entry.2 (SortedMap.mem_entries_iff.mp hmem)⟩

theorem ofMembers {members : List (String × Json)} (hdepth : 0 < depth)
    (h : ∀ entry ∈ members, entry.2.Tidy reals (depth - 1)) :
    (Json.ofMembers members).Tidy reals depth :=
  ofMap hdepth fun _ _ hfound ↦ h _ (SortedMap.mem_of_get?_ofList hfound)

theorem array {items : List Json} (hdepth : 0 < depth)
    (h : ∀ item ∈ items, item.Tidy reals (depth - 1)) :
    (Json.array items).Tidy reals depth := by
  obtain ⟨below, rfl⟩ := Nat.exists_eq_add_of_lt hdepth
  rw [Nat.zero_add] at h ⊢
  exact h

theorem ofStrings (texts : List String) (hdepth : 0 < depth) :
    (Json.ofStrings texts).Tidy reals depth :=
  .array hdepth (by simp)

theorem ofTexts (texts : SortedMap String) (hdepth : 0 < depth) :
    (Json.ofTexts texts).Tidy reals depth := by
  apply Tidy.ofMap hdepth
  intro key value hvalue
  rw [SortedMap.get?_mapValues] at hvalue
  obtain ⟨text, -, rfl⟩ := Option.map_eq_some_iff.mp hvalue
  exact .string text

end Tidy

end SliceControl.Json
