import Mathlib
import Registrar.Json.Part
import Registrar.Proofs.Json.WellFormed

/-!
Contract: parts of values that were written are read.

Owns: reading lists, values that may be missing and fields back, whatever their parts are, if
these are read back; and what is readable inside a readable value.

Does not own: which fields a value has.
-/

set_option autoImplicit false

namespace Registrar.Decode

variable {α : Type}

/-! ## Values -/

@[simp]
theorem text?_string (value : String) : text? (.string value) = some value := rfl

@[simp]
theorem bool?_bool (value : Bool) : bool? (.bool value) = some value := rfl

theorem word?_nat {value : Nat} (fits : value < 1 <<< 32) : word? (.nat value) = some value := by
  rw [Json.nat, word?, if_pos fits]

/-- What is not there is written as nothing, so that nothing else may be. -/
theorem optional?_ofOption {read : Json → Option α} {write : α → Json} {value : Option α}
    (readsBack : ∀ inner ∈ value, read (write inner) = some inner)
    (notNull : ∀ inner, write inner ≠ .null) :
    optional? read (Json.ofOption write value) = some value := by
  cases value with
  | none => rfl
  | some inner =>
      rw [Json.ofOption, optional?, readsBack inner rfl]
      · rfl
      · exact notNull inner

theorem items?_map {read : Json → Option α} {write : α → Json} {items : List α}
    (readsBack : ∀ item ∈ items, read (write item) = some item) :
    items? read (items.map write) = some items := by
  induction items with
  | nil => rfl
  | cons item rest inductionHypothesis =>
      rw [List.forall_mem_cons] at readsBack
      rw [List.map_cons, items?, readsBack.1, inductionHypothesis readsBack.2]
      rfl

theorem list?_map {read : Json → Option α} {write : α → Json} {items : List α}
    (readsBack : ∀ item ∈ items, read (write item) = some item) :
    list? read (.array (items.map write)) = some items :=
  items?_map readsBack

/-! ## Fields -/

section Fields

variable {fields : List (String × Json)} {key : String} {value : Json}

theorem noneRepeated_of_nodup (distinct : (fields.map Prod.fst).Nodup) (keys : List String) :
    noneRepeated keys fields = true := by
  unfold noneRepeated
  rw [List.all_eq_true]
  intro key _
  have once := List.nodup_iff_count_le_one.mp distinct key
  rw [List.count_eq_countP, List.countP_map, List.countP_eq_length_filter] at once
  rw [decide_eq_true_eq]
  exact once

theorem part?_object (distinct : (fields.map Prod.fst).Nodup) (keys : List String) :
    part? keys (.object fields) = some fields := by
  rw [part?, if_pos (noneRepeated_of_nodup distinct keys)]

theorem wholePart?_object (distinct : (fields.map Prod.fst).Nodup) (keys : List String) :
    wholePart? keys (.object fields) = some fields :=
  part?_object distinct keys

theorem field?_of_mem (distinct : (fields.map Prod.fst).Nodup) (member : (key, value) ∈ fields) :
    Json.field? fields key = some value := by
  unfold Json.field?
  cases found : fields.find? fun entry => entry.1 == key with
  | none =>
      rw [List.find?_eq_none] at found
      exact absurd (beq_self_eq_true key) (found _ member)
  | some entry =>
      have sameKey : (entry.1 == key) = true :=
        List.find?_some (p := fun other : String × Json => other.1 == key) found
      have same : entry = (key, value) :=
        List.inj_on_of_nodup_map distinct (List.mem_of_find?_eq_some found) member
          (beq_iff_eq.mp sameKey)
      rw [same, Option.map_some]

variable {read : Json → Option α}

theorem required?_of_field? (isField : Json.field? fields key = some value) :
    required? fields key read = read value := by
  rw [required?, isField, Option.bind_some]

end Fields

end Registrar.Decode

namespace Registrar.Json

/-! ## Readable values -/

theorem itemsReadableTo_iff {depth : Nat} {items : List Json} :
    itemsReadableTo depth items = true ↔ ∀ item ∈ items, item.readableTo depth = true := by
  induction items with
  | nil => simp [itemsReadableTo]
  | cons item rest inductionHypothesis => simp [itemsReadableTo, inductionHypothesis]

theorem fieldsReadableTo_iff {depth : Nat} {fields : List (String × Json)} :
    fieldsReadableTo depth fields = true ↔
      ∀ entry ∈ fields, entry.2.readableTo depth = true := by
  induction fields with
  | nil => simp [fieldsReadableTo]
  | cons entry rest inductionHypothesis => simp [fieldsReadableTo, inductionHypothesis]

end Registrar.Json
