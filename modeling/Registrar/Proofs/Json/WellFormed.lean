import Mathlib
import Registrar.Json.Basic

/-!
Contract: the values that a program holds.

Owns: which values are held in memory: integers have 64 bits with their sign, and the keys of an
object ascend; and that such a value is in order already.

Does not own: which values a text can hold.
-/

set_option autoImplicit false

namespace Registrar.Json

/-- Integers have 64 bits, and a sign only below zero. -/
def Number.isWellFormed : Number → Bool
  | natural value => value < 1 <<< 64
  | negative magnitude => 0 < magnitude && magnitude ≤ 1 <<< 63
  | decimal _ => true

mutual

def isWellFormed : Json → Bool
  | number value => value.isWellFormed
  | array items => itemsWellFormed items
  | object fields => fieldsWellFormed fields
  | unreadable => false
  | _ => true

def itemsWellFormed : List Json → Bool
  | [] => true
  | item :: rest => isWellFormed item && itemsWellFormed rest

/-- The keys ascend, and the values are well-formed. -/
def fieldsWellFormed : List (String × Json) → Bool
  | [] => true
  | (key, value) :: rest =>
      rest.all (fun entry => key < entry.1) && isWellFormed value && fieldsWellFormed rest

end

theorem itemsWellFormed_iff {items : List Json} :
    itemsWellFormed items = true ↔ ∀ item ∈ items, item.isWellFormed = true := by
  induction items with
  | nil => simp [itemsWellFormed]
  | cons item rest inductionHypothesis => simp [itemsWellFormed, inductionHypothesis]

/-! ## Order -/

/-- A field whose key comes before all others stays in front of them. -/
theorem insertField_of_lt {key : String} {value : Json} {others : List (String × Json)}
    (before : ∀ entry ∈ others, key < entry.1) :
    insertField key value others = (key, value) :: others := by
  cases others with
  | nil => rfl
  | cons other rest =>
      rw [insertField, if_pos (before other List.mem_cons_self)]

mutual

theorem sorted_of_isWellFormed : ∀ {value : Json}, value.isWellFormed = true → value.sorted = value
  | .null, _ => rfl
  | .bool _, _ => rfl
  | .number _, _ => rfl
  | .string _, _ => rfl
  | .array items, wellFormed => by
      rw [isWellFormed] at wellFormed
      rw [sorted, sortedItems_of_itemsWellFormed wellFormed]
  | .object fields, wellFormed => by
      rw [isWellFormed] at wellFormed
      rw [sorted, sortedFields_of_fieldsWellFormed wellFormed]
  | .unreadable, _ => rfl

theorem sortedItems_of_itemsWellFormed :
    ∀ {items : List Json}, itemsWellFormed items = true → sortedItems items = items
  | [], _ => rfl
  | item :: rest, wellFormed => by
      rw [itemsWellFormed, Bool.and_eq_true] at wellFormed
      rw [sortedItems, sorted_of_isWellFormed wellFormed.1,
        sortedItems_of_itemsWellFormed wellFormed.2]

theorem sortedFields_of_fieldsWellFormed :
    ∀ {fields : List (String × Json)}, fieldsWellFormed fields = true →
      sortedFields fields = fields
  | [], _ => rfl
  | (key, value) :: rest, wellFormed => by
      simp only [fieldsWellFormed, Bool.and_eq_true, List.all_eq_true, decide_eq_true_eq]
        at wellFormed
      obtain ⟨⟨before, valueWellFormed⟩, restWellFormed⟩ := wellFormed
      have isNew : rest.any (fun entry => entry.1 == key) = false := by
        rw [List.any_eq_false]
        intro entry listed
        rw [beq_iff_eq]
        exact (before entry listed).ne'
      rw [sortedFields, sortedFields_of_fieldsWellFormed restWellFormed, isNew,
        sorted_of_isWellFormed valueWellFormed]
      exact insertField_of_lt before

end

end Registrar.Json
