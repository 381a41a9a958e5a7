import Mathlib
import Registrar.Proofs.Renumbering.Instantiations
import Registrar.Proofs.Renumbering.Records

/-!
Contract: plans of graphs under other numbers.

Owns: that a graph under other numbers has a plan if the graph has one, with the
same records.

Does not own: which units have such graphs.
-/

set_option autoImplicit false

namespace Registrar.Plan

variable {configuration : Configuration} {unit : TranslationUnit} {plan : Plan}

/-- Where every step has a result there is a plan. -/
theorem exists_ofUnit {table : MarkingTable} {graph : Graph} {instantiations : Instantiations}
    {visibility : Visibility} {inheritance : Inheritance} {properties : PropertyTable}
    {schedule : Schedule} (marked : MarkingTable.ofUnit unit = .ok table)
    (built : Graph.ofUnit unit table = .ok graph)
    (instantiated : Instantiations.resolve unit graph
      (Visibility.ofGraph graph configuration) = .ok instantiations)
    (isNamed : visibility = instantiations.rename (Visibility.ofGraph graph configuration))
    (inherited : (Inheritance.ofGraph graph visibility configuration).1 = .ok inheritance)
    (propertied : PropertyTable.ofGraph graph visibility inheritance = .ok properties)
    (scheduled : Schedule.ofGroundwork
      (groundworkOf graph visibility inheritance properties) = .ok schedule) :
    ∃ plan, ofUnit configuration unit = .ok plan ∧
      plan.groundwork = groundworkOf graph visibility inheritance properties ∧
      plan.schedule = schedule := by
  subst isNamed
  unfold ofUnit
  dsimp only
  rw [marked]
  dsimp only
  rw [built]
  dsimp only
  unfold ofGraph
  simp only [Preparation.ofGraph, ClassWork.ofGraph, named, instantiated, inherited, propertied,
    scheduled]
  exact ⟨_, rfl, rfl, rfl⟩

/-- A unit whose graph is that of a unit with a plan under other numbers has a
plan with the same records. -/
theorem exists_records_eq (planned : ofUnit configuration unit = .ok plan)
    {number : Nat → Nat} {otherUnit : TranslationUnit} {otherTable : MarkingTable} {other : Graph}
    (marked : MarkingTable.ofUnit otherUnit = .ok otherTable)
    (built : Graph.ofUnit otherUnit otherTable = .ok other)
    (renumbers : Graph.Renumbers number plan.groundwork.graph other)
    (sameDeclarations : ∀ id, otherUnit.get? id = unit.get? id) :
    ∃ found, ofUnit configuration otherUnit = .ok found ∧
      found.records configuration = plan.records configuration := by
  obtain ⟨table, steps⟩ := exists_steps planned
  obtain ⟨instantiations, instantiated, sameVisibility⟩ :=
    Instantiations.resolve_renumber renumbers sameDeclarations steps.instantiated
  rw [← steps.named] at sameVisibility
  obtain ⟨inheritance, inherited, sameTaken⟩ :=
    Inheritance.ofGraph_renumbers renumbers sameVisibility steps.inherited
  obtain ⟨properties, propertied, sameProperties⟩ :=
    PropertyTable.ofGraph_renumbers renumbers sameVisibility sameTaken steps.propertied
  have groundworkRenumbers : Groundwork.Renumbers number plan.groundwork
      (groundworkOf other (instantiations.rename (Visibility.ofGraph other configuration))
        inheritance properties) :=
    { laid := steps.laid
      otherLaid :=
        { wired := Graph.ofUnit_wired built
          decided := (Visibility.ofGraph_decided _ configuration).of_emitted_eq
            (Visibility.emitted_renameAll instantiations _)
          inheritance := ⟨configuration, inherited⟩
          properties := propertied
          operators := rfl }
      graph := renumbers
      visibility := sameVisibility
      inheritance := sameTaken
      properties := sameProperties }
  obtain ⟨schedule, scheduled, sameSchedule⟩ :=
    Schedule.ofGroundwork_renumbers groundworkRenumbers steps.scheduled
  obtain ⟨found, isFound, groundwork, isSchedule⟩ :=
    exists_ofUnit marked built instantiated rfl inherited propertied scheduled
  refine ⟨found, isFound, ?_⟩
  unfold records
  rw [groundwork, isSchedule]
  exact Record.ofSchedule_eq groundworkRenumbers sameSchedule

end Registrar.Plan
