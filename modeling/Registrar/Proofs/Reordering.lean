import Mathlib
import Registrar.Proofs.Renumbering.Arena
import Registrar.Proofs.Renumbering.Plan

/-!
Contract: units whose declarations are listed in another order.

Owns: that neither the outcome of a run nor its records depend on the order in
which the declarations are listed.

Does not own: the order of warnings.
-/

set_option autoImplicit false

namespace Registrar

variable {configuration : Configuration} {unit other : TranslationUnit}

/-- In another order a unit with a plan has a plan with the same records. -/
theorem Plan.exists_of_reorders (reorders : unit.Reorders other)
    (namesApart : Declaration.NamesApart unit.declarations) {plan : Plan}
    (planned : ofUnit configuration unit = .ok plan) :
    ∃ found, ofUnit configuration other = .ok found ∧
      found.records configuration = plan.records configuration := by
  obtain ⟨table, steps⟩ := exists_steps planned
  obtain ⟨otherTable, marked, sameTable⟩ := MarkingTable.ofUnit_reorders reorders steps.marked
  obtain ⟨number, graph, built, renumbers⟩ :=
    Graph.ofUnit_renumbers reorders namesApart sameTable steps.built
  exact exists_records_eq planned marked built renumbers reorders.get?_eq

namespace Generation

theorem exists_of_reorders (reorders : unit.Reorders other)
    (namesApart : Declaration.NamesApart unit.declarations) {generation : Generation}
    (generated : ofUnit configuration unit = .ok generation) :
    ∃ found, ofUnit configuration other = .ok found ∧ found.records = generation.records := by
  unfold ofUnit at generated
  split at generated
  · rename_i plan planned
    obtain ⟨found, isFound, sameRecords⟩ := Plan.exists_of_reorders reorders namesApart planned
    rw [← Except.ok.inj generated]
    exact ⟨⟨found.records configuration, found.warnings⟩, by rw [ofUnit, isFound], sameRecords⟩
  · cases generated

/-- The order in which declarations are listed decides neither whether a run
succeeds nor what it records, as long as they differ in their places in the source
and those that are looked up by one name declare one entity. -/
theorem records_independentOfOrder {first second : List Declaration}
    (configuration : Configuration) (isUnit : TranslationUnit.ofDeclarations first = .ok unit)
    (isOther : TranslationUnit.ofDeclarations second = .ok other) (perm : second.Perm first)
    (ordersApart : (first.map Declaration.order).Nodup)
    (namesApart : Declaration.NamesApart first) :
    ((∃ generation, ofUnit configuration other = .ok generation) ↔
        ∃ generation, ofUnit configuration unit = .ok generation) ∧
      ∀ generation found, ofUnit configuration unit = .ok generation →
        ofUnit configuration other = .ok found → found.records = generation.records := by
  rw [TranslationUnit.ofDeclarations_eq_ok_iff] at isUnit isOther
  subst isUnit isOther
  have reorders : unit.Reorders other := ⟨perm, ordersApart⟩
  have otherNamesApart : Declaration.NamesApart other.declarations := by
    intro left leftListed right rightListed
    exact namesApart left (perm.mem_iff.mp leftListed) right (perm.mem_iff.mp rightListed)
  refine ⟨⟨?_, ?_⟩, ?_⟩
  · rintro ⟨generation, generated⟩
    obtain ⟨found, isFound, _⟩ :=
      exists_of_reorders reorders.symm otherNamesApart generated
    exact ⟨found, isFound⟩
  · rintro ⟨generation, generated⟩
    obtain ⟨found, isFound, _⟩ := exists_of_reorders reorders namesApart generated
    exact ⟨found, isFound⟩
  · intro generation found generated isFound
    obtain ⟨same, isSame, sameRecords⟩ := exists_of_reorders reorders namesApart generated
    rw [isFound, Except.ok.injEq] at isSame
    rw [isSame, sameRecords]

/-- A namespace that is opened twice, with a class in it and then a function. -/
def reopened : TranslationUnit where
  root := { id := 0, kind := .translationUnit, order := 0 }
  others :=
    [ { id := 1, kind := .namespace false, name := "n", qualifiedName := "n", parent := some 0
        order := 1, payloads := [.text "visible"] },
      { id := 2, kind := .class [] none, name := "A", qualifiedName := "n::A", parent := some 1
        order := 2 },
      { id := 3, kind := .namespace false, name := "n", qualifiedName := "n", parent := some 0
        order := 3 },
      { id := 4, kind := .function {} none, name := "f", qualifiedName := "n::f"
        parent := some 3, order := 4 } ]
  valid := by decide

/-- The same declarations, with the later opening listed first. -/
def reopenedBefore : TranslationUnit where
  root := { id := 0, kind := .translationUnit, order := 0 }
  others :=
    [ { id := 3, kind := .namespace false, name := "n", qualifiedName := "n", parent := some 0
        order := 3 },
      { id := 4, kind := .function {} none, name := "f", qualifiedName := "n::f"
        parent := some 3, order := 4 },
      { id := 1, kind := .namespace false, name := "n", qualifiedName := "n", parent := some 0
        order := 1, payloads := [.text "visible"] },
      { id := 2, kind := .class [] none, name := "A", qualifiedName := "n::A", parent := some 1
        order := 2 } ]
  valid := by decide

theorem reopened_sameRecords :
    ∃ generation found, ofUnit {} reopened = .ok generation ∧
      ofUnit {} reopenedBefore = .ok found ∧ found.records = generation.records ∧
        generation.records.length = 5 := by
  have perm : reopenedBefore.declarations.Perm reopened.declarations := by decide +kernel
  have ordersApart : (reopened.declarations.map Declaration.order).Nodup := by decide
  have namesApart : Declaration.NamesApart reopened.declarations := by decide +kernel
  obtain ⟨succeeds, sameRecords⟩ := records_independentOfOrder {}
    (TranslationUnit.ofDeclarations_eq_ok_iff.mpr rfl)
    (TranslationUnit.ofDeclarations_eq_ok_iff.mpr rfl) perm ordersApart namesApart
  have generates : (ofUnit {} reopened).toOption.any
      (fun generation => generation.records.length == 5) = true := by cbv
  obtain ⟨generation, generated, isLong⟩ := exists_ok_of_any generates
  obtain ⟨found, isFound⟩ := succeeds.mpr ⟨generation, generated⟩
  exact ⟨generation, found, generated, isFound, sameRecords generation found generated isFound,
    beq_iff_eq.mp isLong⟩

end Generation

end Registrar
