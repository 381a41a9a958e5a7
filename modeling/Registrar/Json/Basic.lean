/-!
Contract: JSON values.

Owns: the values, their equality, and the numbers as this program tells them
apart: naturals, negative integers and decimals.

Does not own: reading and writing them as text.
-/

set_option autoImplicit false

namespace Registrar

namespace Json

/-- The decimal `significand · 10 ^ exponent`, with its sign. -/
structure Decimal where
  negative : Bool
  significand : Nat
  exponent : Int
  deriving DecidableEq

/-- A number. Integers of 64 bits are exact, and all others are held as the
shortest decimal that stands for the double they are read as. -/
inductive Number where
  | natural (value : Nat)
  | negative (magnitude : Nat)
  | decimal (value : Decimal)
  deriving DecidableEq

end Json

/-- A JSON value. Objects keep their fields as written. -/
inductive Json where
  | null
  | bool (value : Bool)
  | number (value : Json.Number)
  | string (value : String)
  | array (items : List Json)
  | object (fields : List (String × Json))
  /-- A well-formed text that stands for no value: a number beyond all doubles,
  or a string with half a surrogate pair. -/
  | unreadable

namespace Json

/-! ## Equality -/

mutual

/-- Whether two values are equal. -/
def same : Json → Json → Bool
  | null, null => true
  | bool left, bool right => left == right
  | number left, number right => left == right
  | string left, string right => left == right
  | array left, array right => sameItems left right
  | object left, object right => sameFields left right
  | unreadable, unreadable => true
  | _, _ => false

/-- Whether two lists hold equal values. -/
def sameItems : List Json → List Json → Bool
  | [], [] => true
  | left :: lefts, right :: rights => same left right && sameItems lefts rights
  | _, _ => false

/-- Whether two objects have equal fields in the same order. -/
def sameFields : List (String × Json) → List (String × Json) → Bool
  | [], [] => true
  | (leftKey, left) :: lefts, (rightKey, right) :: rights =>
      leftKey == rightKey && same left right && sameFields lefts rights
  | _, _ => false

end

mutual

theorem same_refl : ∀ value : Json, same value value = true
  | null => rfl
  | bool value => by simp [same]
  | number value => by simp [same]
  | string value => by simp [same]
  | array items => by rw [same]; exact sameItems_refl items
  | object fields => by rw [same]; exact sameFields_refl fields
  | unreadable => rfl

theorem sameItems_refl : ∀ items : List Json, sameItems items items = true
  | [] => rfl
  | item :: rest => by simp [sameItems, same_refl item, sameItems_refl rest]

theorem sameFields_refl : ∀ fields : List (String × Json), sameFields fields fields = true
  | [] => rfl
  | (key, value) :: rest => by simp [sameFields, same_refl value, sameFields_refl rest]

end

mutual

theorem eq_of_same : ∀ left right : Json, same left right = true → left = right
  | null, right, equal => by cases right <;> simp_all [same]
  | bool left, right, equal => by cases right <;> simp_all [same]
  | number left, right, equal => by cases right <;> simp_all [same]
  | string left, right, equal => by cases right <;> simp_all [same]
  | array left, right, equal => by
      cases right with
      | array right => rw [eq_of_sameItems left right (by simpa [same] using equal)]
      | _ => simp [same] at equal
  | object left, right, equal => by
      cases right with
      | object right => rw [eq_of_sameFields left right (by simpa [same] using equal)]
      | _ => simp [same] at equal
  | unreadable, right, equal => by cases right <;> simp_all [same]

theorem eq_of_sameItems : ∀ left right : List Json, sameItems left right = true → left = right
  | [], right, equal => by cases right <;> simp_all [sameItems]
  | item :: rest, right, equal => by
      cases right with
      | nil => simp [sameItems] at equal
      | cons other others =>
          simp only [sameItems, Bool.and_eq_true] at equal
          rw [eq_of_same item other equal.1, eq_of_sameItems rest others equal.2]

theorem eq_of_sameFields : ∀ left right : List (String × Json),
    sameFields left right = true → left = right
  | [], right, equal => by cases right <;> simp_all [sameFields]
  | (key, value) :: rest, right, equal => by
      cases right with
      | nil => simp [sameFields] at equal
      | cons other others =>
          obtain ⟨otherKey, otherValue⟩ := other
          simp only [sameFields, Bool.and_eq_true, beq_iff_eq] at equal
          rw [equal.1.1, eq_of_same value otherValue equal.1.2,
            eq_of_sameFields rest others equal.2]

end

instance : DecidableEq Json := fun left right =>
  if equal : same left right = true then isTrue (eq_of_same left right equal)
  else isFalse fun identical => equal (identical ▸ same_refl left)

/-! ## Fields and depth -/

def field? (fields : List (String × Json)) (key : String) : Option Json :=
  (fields.find? fun entry => entry.1 == key).map (·.2)

mutual

/-- Whether the value can be read in full and its arrays and objects nest at
most to the given depth. -/
def readableTo (depth : Nat) : Json → Bool
  | array items => depth != 0 && itemsReadableTo (depth - 1) items
  | object fields => depth != 0 && fieldsReadableTo (depth - 1) fields
  | unreadable => false
  | _ => true

/-- Whether all values of the list can be read in full. -/
def itemsReadableTo (depth : Nat) : List Json → Bool
  | [] => true
  | item :: rest => readableTo depth item && itemsReadableTo depth rest

/-- Whether the values of all fields can be read in full. -/
def fieldsReadableTo (depth : Nat) : List (String × Json) → Bool
  | [] => true
  | (_, value) :: rest => readableTo depth value && fieldsReadableTo depth rest

end

/-! ## Fields in order of their keys -/

/-- Puts a field in its place among fields in ascending order of their keys. A
field of the same key gives way. -/
def insertField (key : String) (value : Json) :
    List (String × Json) → List (String × Json)
  | [] => [(key, value)]
  | (otherKey, other) :: rest =>
      if key < otherKey then (key, value) :: (otherKey, other) :: rest
      else if key == otherKey then (key, value) :: rest
      else (otherKey, other) :: insertField key value rest

mutual

/-- The value with the fields of every object in ascending order of their keys,
and of the fields with one key the last. -/
def sorted : Json → Json
  | array items => array (sortedItems items)
  | object fields => object (sortedFields fields)
  | other => other

def sortedItems : List Json → List Json
  | [] => []
  | item :: rest => sorted item :: sortedItems rest

/-- The fields in ascending order of their keys, each sorted. -/
def sortedFields : List (String × Json) → List (String × Json)
  | [] => []
  | (key, value) :: rest =>
      let others := sortedFields rest
      if others.any fun entry => entry.1 == key then others
      else insertField key (sorted value) others

end

end Json

end Registrar
