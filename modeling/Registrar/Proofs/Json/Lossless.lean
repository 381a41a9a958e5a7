import Mathlib
import Registrar.Proofs.Json.Part
import Registrar.Proofs.Json.Reader

/-!
Contract: written forms that tell values apart.

Owns: the plain values, which every written form has a place for, what it means that a form
loses nothing of them, and that text does not.

Does not own: which values are written.
-/

set_option autoImplicit false

namespace Registrar.Json

/-! ## Plain values -/

theorem mem_itemsNumbers {number : Number} {items : List Json} :
    number ∈ itemsNumbers items ↔ ∃ item ∈ items, number ∈ item.numbers := by
  induction items with
  | nil => simp [itemsNumbers]
  | cons item rest inductionHypothesis => simp [itemsNumbers, inductionHypothesis]

theorem mem_fieldsNumbers {number : Number} {fields : List (String × Json)} :
    number ∈ fieldsNumbers fields ↔ ∃ entry ∈ fields, number ∈ entry.2.numbers := by
  induction fields with
  | nil => simp [fieldsNumbers]
  | cons entry rest inductionHypothesis => simp [fieldsNumbers, inductionHypothesis]

/-- The value consists of strings, integers of 64 bits, truth values, nothing, lists and objects,
and these nest at most to the given depth. -/
structure IsPlain (depth : Nat) (value : Json) : Prop where
  integers : ∀ number ∈ value.numbers, number.isWellFormed = true ∧ number.isInteger = true
  readable : value.readableTo depth = true

namespace IsPlain

@[simp]
theorem string (depth : Nat) (value : String) : IsPlain depth (.string value) := ⟨nofun, rfl⟩

@[simp]
theorem bool (depth : Nat) (value : Bool) : IsPlain depth (.bool value) := ⟨nofun, rfl⟩

@[simp]
theorem textOrNull (depth : Nat) (text : Option String) : IsPlain depth (.textOrNull text) := by
  cases text with
  | none => exact ⟨nofun, rfl⟩
  | some value => exact string depth value

theorem nat (depth : Nat) {value : Nat} (fits : value < 1 <<< 64) : IsPlain depth (.nat value) := by
  refine ⟨?_, rfl⟩
  rw [Json.nat, numbers, List.forall_mem_singleton]
  exact ⟨decide_eq_true fits, rfl⟩

theorem array {depth : Nat} {items : List Json} (plain : ∀ item ∈ items, IsPlain depth item) :
    IsPlain (depth + 1) (.array items) := by
  constructor
  · intro number listed
    rw [numbers, mem_itemsNumbers] at listed
    obtain ⟨item, isItem, inItem⟩ := listed
    exact (plain item isItem).integers number inItem
  · rw [readableTo, Nat.add_sub_cancel]
    exact itemsReadableTo_iff.mpr fun item isItem => (plain item isItem).readable

theorem object {depth : Nat} {fields : List (String × Json)}
    (plain : ∀ entry ∈ fields, IsPlain depth entry.2) : IsPlain (depth + 1) (.object fields) := by
  constructor
  · intro number listed
    rw [numbers, mem_fieldsNumbers] at listed
    obtain ⟨entry, isEntry, inEntry⟩ := listed
    exact (plain entry isEntry).integers number inEntry
  · rw [readableTo, Nat.add_sub_cancel]
    exact fieldsReadableTo_iff.mpr fun entry isEntry => (plain entry isEntry).readable

/-- Every item of the list is written to a plain value. -/
theorem array_map {α : Type} {depth : Nat} {write : α → Json} {items : List α}
    (plain : ∀ item ∈ items, IsPlain depth (write item)) :
    IsPlain (depth + 1) (.array (items.map write)) :=
  array (List.forall_mem_map.mpr plain)

end IsPlain

/-! ## Written forms -/

/-- No two plain values are written alike. -/
def Lossless {Written : Type} (write : Json → Written) : Prop :=
  ∀ ⦃value other : Json⦄, IsPlain textDepth value → IsPlain textDepth other →
    write value = write other → value = other

theorem IsPlain.readsBack {value : Json} (plain : IsPlain textDepth value) : value.ReadsBack :=
  readsBack_of_integers (fun number listed => (plain.integers number listed).1)
    (fun number listed => (plain.integers number listed).2) plain.readable

theorem lossless_toPrettyText : Lossless toPrettyText := by
  intro value other plain otherPlain same
  have parsed := plain.readsBack.parsed
  rw [same, otherPlain.readsBack.parsed, Option.some.injEq, Prod.mk.injEq] at parsed
  exact parsed.1.symm

end Registrar.Json
