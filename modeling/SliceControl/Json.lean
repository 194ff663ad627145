import SliceControl.Double
import SliceControl.SortedMap

/-!
# JSON values

Objects list their members in increasing order of the key, each key once; the reader and the
builders below keep to that. Whole numbers are those of 64 bits, with or without a sign. Other
numbers are binary64 numbers.
-/

namespace SliceControl

/-- A whole number of 64 bits, signed or unsigned. -/
structure Whole where
  value : Int
  lower : -9223372036854775808 ≤ value
  upper : value ≤ 18446744073709551615
  deriving DecidableEq

namespace Whole

/-- The whole number `value`, if it has 64 bits. -/
def ofInt? (value : Int) : Option Whole :=
  if h : -9223372036854775808 ≤ value ∧ value ≤ 18446744073709551615 then
    some ⟨value, h.1, h.2⟩
  else none

def ofUInt64 (value : UInt64) : Whole :=
  ⟨value.toNat, by omega, by have := value.toNat_lt; omega⟩

def ofUInt32 (value : UInt32) : Whole :=
  ⟨value.toNat, by omega, by have := value.toNat_lt; omega⟩

end Whole

/-- A JSON value. -/
inductive Json where
  | null
  | bool (value : Bool)
  | whole (value : Whole)
  | real (value : Double)
  | string (value : String)
  | array (items : List Json)
  | object (members : List (String × Json))
  deriving Inhabited

namespace Json

/-! ## Equality -/

mutual

/-- Whether two values are the same. -/
def same : Json → Json → Bool
  | null, null => true
  | bool left, bool right => left == right
  | whole left, whole right => left == right
  | real left, real right => left == right
  | string left, string right => left == right
  | array left, array right => sameItems left right
  | object left, object right => sameMembers left right
  | _, _ => false

def sameItems : List Json → List Json → Bool
  | [], [] => true
  | left :: lefts, right :: rights => same left right && sameItems lefts rights
  | _, _ => false

def sameMembers : List (String × Json) → List (String × Json) → Bool
  | [], [] => true
  | (leftKey, left) :: lefts, (rightKey, right) :: rights =>
    leftKey == rightKey && same left right && sameMembers lefts rights
  | _, _ => false

end

mutual

theorem same_self : (value : Json) → same value value = true
  | null | bool _ | whole _ | real _ | string _ => by simp [same]
  | array items => by simpa [same] using sameItems_self items
  | object members => by simpa [same] using sameMembers_self members

theorem sameItems_self : (items : List Json) → sameItems items items = true
  | [] => rfl
  | item :: items => by simp [sameItems, same_self item, sameItems_self items]

theorem sameMembers_self : (members : List (String × Json)) → sameMembers members members = true
  | [] => rfl
  | (_, value) :: members => by simp [sameMembers, same_self value, sameMembers_self members]

end

mutual

theorem eq_of_same : (left right : Json) → same left right = true → left = right
  | null, right, h => by cases right <;> simp_all [same]
  | bool _, right, h => by cases right <;> simp_all [same]
  | whole _, right, h => by cases right <;> simp_all [same]
  | real _, right, h => by cases right <;> simp_all [same]
  | string _, right, h => by cases right <;> simp_all [same]
  | array items, right, h => by
    cases right with
    | array others => exact congrArg array (eq_of_sameItems items others (by simpa [same] using h))
    | _ => simp [same] at h
  | object members, right, h => by
    cases right with
    | object others =>
      exact congrArg object (eq_of_sameMembers members others (by simpa [same] using h))
    | _ => simp [same] at h

theorem eq_of_sameItems : (left right : List Json) → sameItems left right = true → left = right
  | [], right, h => by cases right <;> simp_all [sameItems]
  | item :: items, right, h => by
    cases right with
    | nil => simp [sameItems] at h
    | cons other others =>
      simp only [sameItems, Bool.and_eq_true] at h
      rw [eq_of_same item other h.1, eq_of_sameItems items others h.2]

theorem eq_of_sameMembers :
    (left right : List (String × Json)) → sameMembers left right = true → left = right
  | [], right, h => by cases right <;> simp_all [sameMembers]
  | (key, value) :: members, right, h => by
    cases right with
    | nil => simp [sameMembers] at h
    | cons other others =>
      obtain ⟨otherKey, otherValue⟩ := other
      simp only [sameMembers, Bool.and_eq_true, beq_iff_eq] at h
      rw [h.1.1, eq_of_same value otherValue h.1.2, eq_of_sameMembers members others h.2]

end

theorem same_iff {left right : Json} : same left right = true ↔ left = right :=
  ⟨eq_of_same left right, fun h => h ▸ same_self left⟩

instance : DecidableEq Json := fun _ _ => decidable_of_iff _ same_iff

/-! ## Building -/

/-- An object with the members of a map. -/
def ofMap (members : SortedMap Json) : Json := object members.entries

/-- An object with the given members, sorted; of two with one key the later stays. -/
def ofMembers (members : List (String × Json)) : Json := ofMap (SortedMap.ofList members)

/-- A member that is present only if there is a value. -/
def optional (key : String) (value : Option Json) : List (String × Json) :=
  match value with
  | some value => [(key, value)]
  | none => []

def ofStrings (texts : List String) : Json := array (texts.map string)

/-- An object with one text for each key. -/
def ofTexts (texts : SortedMap String) : Json := ofMap (texts.mapValues string)

/-- A number, which is zero if it has more than 64 bits. -/
def ofNat (number : Nat) : Json :=
  whole ((Whole.ofInt? number).getD ⟨0, by decide, by decide⟩)

def ofUInt16 (number : UInt16) : Json := whole (.ofUInt64 number.toUInt64)

def ofUInt32 (number : UInt32) : Json := whole (.ofUInt32 number)

def ofUInt64 (number : UInt64) : Json := whole (.ofUInt64 number)

def ofOption (value : Option Json) : Json := value.getD null

/-! ## Looking inside -/

/-- The member of an object, or null where there is none. -/
def member (value : Json) (key : String) : Json :=
  match value with
  | object members => (SortedMap.lookup key members).getD null
  | _ => null

/-- The text of a string value. -/
def text? : Json → Option String
  | string value => some value
  | _ => none

/-- The number of a whole value that is not negative. -/
def natural? : Json → Option Nat
  | whole value => if 0 ≤ value.value then some value.value.toNat else none
  | _ => none

end Json

end SliceControl
