import Mathlib
import Registrar.Plan
import Registrar.Proofs.Graph.Tree
import Registrar.Proofs.Inheritance
import Registrar.Proofs.Visibility

/-!
Contract: what a plan can be relied on for.

Owns: the steps that led to a plan, and what they say of its groundwork.

Does not own: the schedule that is made from the groundwork.
-/

set_option autoImplicit false

namespace Registrar

/-- All of a groundwork was made from one wired graph. -/
structure Groundwork.Laid (groundwork : Groundwork) : Prop where
  wired : groundwork.graph.Wired
  decided : groundwork.visibility.Decided groundwork.graph
  inheritance : ∃ configuration,
    (Inheritance.ofGraph groundwork.graph groundwork.visibility configuration).1 =
      .ok groundwork.inheritance
  properties : PropertyTable.ofGraph groundwork.graph groundwork.visibility
    groundwork.inheritance = .ok groundwork.properties
  operators : groundwork.operators =
    OperatorTable.ofGraph groundwork.graph groundwork.visibility groundwork.inheritance

theorem Groundwork.Laid.exists_root {groundwork : Groundwork} (laid : groundwork.Laid) :
    ∃ root ∈ groundwork.graph.nodes, groundwork.graph.node? Graph.root = some root := by
  obtain ⟨root, isRoot⟩ := Graph.node?_of_lt laid.wired.nonempty
  exact ⟨root, Graph.mem_nodes_of_node? isRoot, isRoot⟩

namespace Visibility

theorem emitted_rename (visibility : Visibility) (id : Nat) (name : String) :
    (visibility.rename id name).emitted = visibility.emitted := rfl

theorem emitted_renameAll (instantiations : Instantiations) (visibility : Visibility) :
    (instantiations.rename visibility).emitted = visibility.emitted := by
  unfold Instantiations.rename
  generalize instantiations.records = records
  induction records generalizing visibility with
  | nil => rfl
  | cons record rest inductionHypothesis =>
      rw [List.foldl_cons, inductionHypothesis, emitted_rename]

/-- Another name leaves what is visible as it is. -/
theorem isVisible_rename (visibility : Visibility) (id : Nat) (name : String) (other : Nat) :
    (visibility.rename id name).isVisible other = visibility.isVisible other := by
  unfold isVisible decision? rename
  rw [List.getElem?_modify]
  cases visibility.decisions[other]? with
  | none => rfl
  | some decision =>
      by_cases isOther : id = other <;> simp [isOther]

theorem isVisible_renameAll (instantiations : Instantiations) (visibility : Visibility)
    (id : Nat) :
    (instantiations.rename visibility).isVisible id = visibility.isVisible id := by
  unfold Instantiations.rename
  generalize instantiations.records = records
  induction records generalizing visibility with
  | nil => rfl
  | cons record rest inductionHypothesis =>
      rw [List.foldl_cons, inductionHypothesis, isVisible_rename]

end Visibility

namespace Plan

/-- The steps that led to a plan, each with its result. -/
structure Steps (configuration : Configuration) (unit : TranslationUnit) (plan : Plan)
    (table : MarkingTable) : Prop where
  marked : MarkingTable.ofUnit unit = .ok table
  built : Graph.ofUnit unit table = .ok plan.groundwork.graph
  instantiated : Instantiations.resolve unit plan.groundwork.graph
    (Visibility.ofGraph plan.groundwork.graph configuration) = .ok plan.instantiations
  named : plan.groundwork.visibility =
    plan.instantiations.rename (Visibility.ofGraph plan.groundwork.graph configuration)
  inherited : (Inheritance.ofGraph plan.groundwork.graph plan.groundwork.visibility
    configuration).1 = .ok plan.groundwork.inheritance
  propertied : PropertyTable.ofGraph plan.groundwork.graph plan.groundwork.visibility
    plan.groundwork.inheritance = .ok plan.groundwork.properties
  operators : plan.groundwork.operators = OperatorTable.ofGraph plan.groundwork.graph
    plan.groundwork.visibility plan.groundwork.inheritance
  scheduled : Schedule.ofGroundwork plan.groundwork = .ok plan.schedule

variable {configuration : Configuration} {unit : TranslationUnit} {plan : Plan}

theorem steps_of_ofGraph {graph : Graph} {earlier : List Diagnostic} {table : MarkingTable}
    (marked : MarkingTable.ofUnit unit = .ok table) (built : Graph.ofUnit unit table = .ok graph)
    (planned : ofGraph configuration unit graph earlier = .ok plan) :
    Steps configuration unit plan table := by
  unfold ofGraph at planned
  dsimp only at planned
  split at planned
  · rename_i instantiations inheritance properties instantiated inherited propertied
    split at planned
    · rename_i schedule scheduled
      have instantiatedOk : Instantiations.resolve unit graph
          (Visibility.ofGraph graph configuration) = .ok instantiations := instantiated
      simp only [Preparation.ofGraph, ClassWork.ofGraph, named, instantiatedOk]
        at inherited propertied scheduled planned
      rw [inherited] at propertied
      rw [← Except.ok.inj planned]
      exact {
        marked, built
        instantiated := instantiatedOk
        named := rfl
        inherited
        propertied
        operators := rfl
        scheduled }
    · cases planned
  · cases planned

/-- A plan is led to by steps that all have results. -/
theorem exists_steps (planned : ofUnit configuration unit = .ok plan) :
    ∃ table, Steps configuration unit plan table := by
  unfold ofUnit at planned
  dsimp only at planned
  split at planned
  · cases planned
  · rename_i table marked
    split at planned
    · cases planned
    · rename_i graph built
      exact ⟨table, steps_of_ofGraph marked built planned⟩

theorem Steps.laid {table : MarkingTable} (steps : Steps configuration unit plan table) :
    plan.groundwork.Laid where
  wired := Graph.ofUnit_wired steps.built
  decided := by
    rw [steps.named]
    exact (Visibility.ofGraph_decided _ configuration).of_emitted_eq
      (Visibility.emitted_renameAll plan.instantiations _)
  inheritance := ⟨configuration, steps.inherited⟩
  properties := steps.propertied
  operators := steps.operators

/-- Naming instantiations leaves what is emitted as it was decided. -/
theorem Steps.isEmitted_eq {table : MarkingTable} (steps : Steps configuration unit plan table)
    (id : Nat) : plan.groundwork.visibility.isEmitted id =
      (Visibility.ofGraph plan.groundwork.graph configuration).isEmitted id := by
  unfold Visibility.isEmitted
  rw [steps.named, Visibility.emitted_renameAll]

/-- Naming instantiations leaves what is visible as it was decided. -/
theorem Steps.isVisible_eq {table : MarkingTable} (steps : Steps configuration unit plan table)
    (id : Nat) : plan.groundwork.visibility.isVisible id =
      (Visibility.ofGraph plan.groundwork.graph configuration).isVisible id := by
  rw [steps.named, Visibility.isVisible_renameAll]

theorem exists_of_any {test : Plan → Bool}
    (passed : (ofUnit configuration unit).toOption.any test = true) :
    ∃ plan, ofUnit configuration unit = .ok plan ∧ test plan = true :=
  exists_ok_of_any passed

/-- A class with a field, in a module. -/
def nestedClass : TranslationUnit where
  root := { id := 0, kind := .translationUnit, order := 0 }
  others :=
    [ { id := 1, kind := .namespace false, name := "n", qualifiedName := "n", parent := some 0
        order := 1, payloads := [.text "visible", .text "module"] },
      { id := 2, kind := .class [] none, name := "A", qualifiedName := "n::A", parent := some 1
        order := 2 },
      { id := 3, kind := .field "int" false false, name := "x", qualifiedName := "n::A::x"
        parent := some 2, order := 3 } ]
  valid := by decide

theorem exists_nestedClass :
    ∃ plan, ofUnit {} nestedClass = .ok plan ∧ plan.groundwork.graph.WalkEnds := by
  have ends : (ofUnit {} nestedClass).toOption.any
      (fun plan => (plan.groundwork.graph.level 4).isEmpty) = true := by decide +kernel
  obtain ⟨plan, planned, isEmpty⟩ := exists_of_any ends
  exact ⟨plan, planned, 4, List.isEmpty_iff.mp isEmpty⟩

end Plan

end Registrar
