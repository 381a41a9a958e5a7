import Mathlib
import Registrar.Proofs.Inheritance.Circles
import Registrar.Proofs.Merging.Conflicts
import Registrar.Proofs.Schedule.Circles

/-!
Contract: what a run that fails tells of its faults.

Owns: that a run that fails has faults, that each names a declaration and its
position, and which circles are told.

Does not own: when a run fails.

Most faults are located where they are made. Those that are not are the circles
of bases and of units, which are located at a node that is looked up, and the
circle of items, which cannot arise.
-/

set_option autoImplicit false

namespace Registrar

/-! ## Located faults -/

namespace Fault

/-- The fault names a declaration, and where it is. -/
def IsLocated (fault : Fault) : Prop :=
  fault.declaration?.isSome = true ∧ fault.location?.isSome = true

theorem isLocated_located (fault : Fault) (declaration : String) (location : Location) :
    (fault.located declaration location).IsLocated :=
  ⟨rfl, rfl⟩

/-- There are faults, and each can be located. -/
structure Locatable (faults : List Fault) : Prop where
  nonempty : faults ≠ []
  located : ∀ fault ∈ faults, fault.IsLocated

theorem locatable_singleton {fault : Fault} (isLocated : fault.IsLocated) : Locatable [fault] :=
  ⟨List.cons_ne_nil _ _, by simpa using isLocated⟩

/-- A step that fails where it found faults reports them. -/
theorem locatable_of_ite {α : Type} {found faults : List Fault} {value : α}
    (located : ∀ fault ∈ found, fault.IsLocated)
    (failed : (if found.isEmpty then Except.ok value else .error found) = .error faults) :
    Locatable faults := by
  split at failed
  · cases failed
  · rename_i nonempty
    rw [← Except.error.inj failed]
    exact ⟨fun isNil => nonempty (List.isEmpty_iff.mpr isNil), located⟩

end Fault

open Fault

variable {configuration : Configuration} {unit : TranslationUnit} {table : MarkingTable}
  {graph : Graph} {visibility : Visibility} {faults : List Fault}

/-! ## Annotations -/

theorem MarkingTable.locatable_of_ofUnit (failed : ofUnit unit = .error faults) :
    Locatable faults := by
  refine locatable_of_ite ?_ failed
  intro fault listed
  obtain ⟨declaration, _, isOwn⟩ := List.mem_flatMap.mp listed
  unfold Examination.ofDeclaration at isOwn
  dsimp only at isOwn
  split at isOwn
  · rw [List.mem_singleton.mp isOwn]
    exact isLocated_located ..
  · obtain ⟨cause, _, rfl⟩ := List.mem_map.mp isOwn
    exact isLocated_located ..

/-! ## The graph -/

theorem Entity.isLocated_of_ofGroups {groups : List Group} :
    ∀ fault ∈ (ofGroups table groups).2, fault.IsLocated := by
  intro fault listed
  obtain ⟨made, isMade, isOwn⟩ := List.mem_flatMap.mp listed
  obtain ⟨index, inside, rfl⟩ := List.mem_mapIdx.mp isMade
  obtain ⟨declaration, _, directive, rfl⟩ := eq_of_mem_mergeMarkings isOwn
  exact isLocated_located ..

namespace Move

theorem isLocated_of_requested {entities : List Entity} {entity : Entity} {fault : Fault}
    (fails : requested entities entity = .error fault) : fault.IsLocated := by
  unfold requested at fails
  split at fails
  · cases fails
  · cases fails
  · split at fails
    · cases fails
    · rw [← Except.error.inj fails]
      exact isLocated_located ..

theorem isLocated_of_makeAll {entities rest : List Entity} {moves : List Move} :
    ∀ fault ∈ (makeAll entities moves rest).2, fault.IsLocated := by
  induction rest generalizing moves with
  | nil => intro fault listed; cases listed
  | cons entity rest inductionHypothesis =>
      intro fault listed
      rw [makeAll] at listed
      split at listed
      · rename_i found fails
        rcases List.mem_cons.mp listed with rfl | later
        · exact isLocated_of_requested fails
        · exact inductionHypothesis fault later
      · exact inductionHypothesis fault listed
      · split at listed
        · exact inductionHypothesis fault listed
        · rcases List.mem_cons.mp listed with rfl | later
          · exact isLocated_located ..
          · exact inductionHypothesis fault later

end Move

theorem Arena.isLocated_of_circleFaults {arena : Arena} :
    ∀ fault ∈ arena.circleFaults, fault.IsLocated := by
  intro fault listed
  obtain ⟨circle, _, isFault⟩ := List.mem_filterMap.mp listed
  unfold circleFault? at isFault
  split at isFault
  · cases isFault
  · rw [← Option.some.inj isFault]
    exact isLocated_located ..

theorem Graph.locatable_of_ofUnit (failed : ofUnit unit table = .error faults) :
    Locatable faults := by
  refine locatable_of_ite ?_ failed
  intro fault listed
  rcases List.mem_append.mp listed with earlier | isCircle
  · rcases List.mem_append.mp earlier with isConflict | isMove
    · exact Entity.isLocated_of_ofGroups fault isConflict
    · exact Move.isLocated_of_makeAll fault isMove
  · exact Arena.isLocated_of_circleFaults fault isCircle

/-! ## Instantiations -/

namespace Instantiation

theorem isLocated_of_repeatedFault? {node : Node} {instantiation : Instantiation} {fault : Fault}
    (isFault : repeatedFault? unit node instantiation = some fault) : fault.IsLocated := by
  unfold repeatedFault? at isFault
  split at isFault
  · cases isFault
  · split at isFault
    · rw [← Option.some.inj isFault]
      exact isLocated_located ..
    · cases isFault

theorem isLocated_of_inheritedFaults {node : Node} :
    ∀ fault ∈ inheritedFaults graph node, fault.IsLocated := by
  intro fault listed
  unfold inheritedFaults at listed
  split at listed
  · split at listed
    · cases listed
    · obtain ⟨cause, _, rfl⟩ := List.mem_map.mp listed
      exact ⟨rfl, rfl⟩
  · cases listed

theorem isLocated_of_collision {first second : Instantiation} {fault : Fault}
    (isFault : collision graph first second = some fault) : fault.IsLocated := by
  obtain ⟨firstNode, _, isFault⟩ := Option.bind_eq_some_iff.mp isFault
  obtain ⟨secondNode, _, isFault⟩ := Option.bind_eq_some_iff.mp isFault
  rw [← Option.some.inj isFault]
  exact isLocated_located ..

theorem isLocated_of_collisionsFrom {earlier rest : List Instantiation} :
    ∀ fault ∈ collisionsFrom graph earlier rest, fault.IsLocated := by
  induction rest generalizing earlier with
  | nil => intro fault listed; cases listed
  | cons instantiation rest inductionHypothesis =>
      intro fault listed
      rw [collisionsFrom] at listed
      split at listed
      · exact inductionHypothesis fault listed
      · split at listed
        · exact inductionHypothesis fault listed
        · rcases List.mem_append.mp listed with here | later
          · exact isLocated_of_collision (Option.mem_toList.mp here)
          · exact inductionHypothesis fault later

end Instantiation

theorem Instantiations.locatable_of_resolve
    (failed : resolve unit graph visibility = .error faults) : Locatable faults := by
  refine locatable_of_ite ?_ failed
  intro fault listed
  rcases List.mem_append.mp listed with isOwn | collides
  · obtain ⟨instantiation, _, isOwn⟩ := List.mem_flatMap.mp isOwn
    unfold ownFaults at isOwn
    split at isOwn
    · cases isOwn
    · rcases List.mem_append.mp isOwn with isRepeated | isInherited
      · exact Instantiation.isLocated_of_repeatedFault? (Option.mem_toList.mp isRepeated)
      · exact Instantiation.isLocated_of_inheritedFaults fault isInherited
  · exact Instantiation.isLocated_of_collisionsFrom fault collides

/-! ## Bases -/

namespace Inheritance

theorem isLocated_cycleFault {path : List Nat} {id : Nat} {node : Node}
    (found : graph.node? id = some node) : (cycleFault graph path id).IsLocated := by
  unfold cycleFault
  simp only [found]
  exact isLocated_located ..

theorem locatable_of_ofGraph
    (failed : (ofGraph graph visibility configuration).1 = .error faults) :
    Locatable faults := by
  obtain ⟨nonempty, tell⟩ := ofGraph_error failed
  refine ⟨nonempty, fun fault listed => ?_⟩
  obtain ⟨first, _, path, id, descent, again, rfl⟩ := tell fault listed
  obtain ⟨node, found⟩ := Graph.node?_of_lt (descent.inside id again)
  exact isLocated_cycleFault found

end Inheritance

/-! ## Properties -/

theorem Property.isLocated_of_duplicateFaults {earlier rest : List Accessor} :
    ∀ fault ∈ duplicateFaults earlier rest, fault.IsLocated := by
  induction rest generalizing earlier with
  | nil => intro fault listed; cases listed
  | cons accessor rest inductionHypothesis =>
      intro fault listed
      rw [duplicateFaults] at listed
      split at listed
      · rcases List.mem_cons.mp listed with rfl | later
        · exact isLocated_located ..
        · exact inductionHypothesis fault later
      · exact inductionHypothesis fault listed

theorem Property.isLocated_of_faults {all : List Accessor} :
    ∀ fault ∈ Property.faults all, fault.IsLocated := by
  intro fault listed
  rcases List.mem_append.mp listed with isDuplicate | isSetter
  · exact isLocated_of_duplicateFaults fault isDuplicate
  · obtain ⟨name, _, isFault⟩ := List.mem_filterMap.mp isSetter
    unfold setterFault? at isFault
    split at isFault
    · rw [← Option.some.inj isFault]
      exact isLocated_located ..
    · cases isFault

theorem PropertyTable.locatable_of_ofGraph {inheritance : Inheritance}
    (failed : ofGraph graph visibility inheritance = .error faults) : Locatable faults := by
  refine locatable_of_ite ?_ failed
  intro fault listed
  obtain ⟨node, _, isOwn⟩ := List.mem_flatMap.mp listed
  exact Property.isLocated_of_faults fault isOwn

/-! ## The schedule -/

namespace Schedule

variable {groundwork : Groundwork}

/-- The faults of a schedule are those of the items of some units. -/
theorem exists_itemsOf_error {ids : List UnitId} {fault : Fault}
    (listed : fault ∈ (schedule groundwork ids).2) :
    ∃ id ∈ ids, ∃ found, itemsOf groundwork id = .error found ∧ fault ∈ found := by
  induction ids with
  | nil => cases listed
  | cons id rest inductionHypothesis =>
      have later (isLater : fault ∈ (schedule groundwork rest).2) :
          ∃ other ∈ id :: rest, ∃ found, itemsOf groundwork other = .error found ∧
            fault ∈ found := by
        obtain ⟨other, isOther, found⟩ := inductionHypothesis isLater
        exact ⟨other, List.mem_cons_of_mem id isOther, found⟩
      rw [schedule] at listed
      cases isItems : itemsOf groundwork id with
      | ok items =>
          simp only [isItems] at listed
          exact later listed
      | error found =>
          simp only [isItems] at listed
          rcases List.mem_append.mp listed with here | isLater
          · exact ⟨id, List.mem_cons_self, found, isItems, here⟩
          · exact later isLater

/-- What keeps units without items is what keeps the items of a context from being in
order. -/
theorem exists_inOrder_error {id : UnitId} (fails : itemsOf groundwork id = .error faults) :
    ∃ context ∈ groundwork.graph.nodes, Item.ofContext groundwork context = .error faults := by
  unfold itemsOf at fails
  split at fails
  · split at fails
    · rename_i node found
      exact ⟨node, Graph.mem_nodes_of_node? found, fails⟩
    · cases fails
  · cases fails

/-- A schedule fails because of a circle of units, or because of the items of contexts. -/
theorem ofGroundwork_error (failed : ofGroundwork groundwork = .error faults) :
    (∃ circle, TopologicalOrder.order (orderOf groundwork.graph)
        (dependencies groundwork (targets groundwork.graph groundwork.visibility))
        (unitsOf groundwork.graph groundwork.visibility) = .error circle ∧
      faults = [circleFault groundwork.graph circle]) ∨
    (faults ≠ [] ∧ ∀ fault ∈ faults, ∃ context ∈ groundwork.graph.nodes, ∃ found,
      Item.ofContext groundwork context = .error found ∧ fault ∈ found) := by
  unfold ofGroundwork at failed
  dsimp only at failed
  split at failed
  · rename_i circle stuck
    exact .inl ⟨circle, stuck, (Except.error.inj failed).symm⟩
  · split at failed
    · cases failed
    · rename_i nonempty
      rw [← Except.error.inj failed]
      refine .inr ⟨fun isNil => nonempty (List.isEmpty_iff.mpr isNil), ?_⟩
      intro fault listed
      obtain ⟨id, _, found, fails, isFault⟩ := exists_itemsOf_error listed
      obtain ⟨context, member, contextFails⟩ := exists_inOrder_error fails
      exact ⟨context, member, found, contextFails, isFault⟩

theorem locatable_of_ofGroundwork (wired : groundwork.graph.Wired)
    (failed : ofGroundwork groundwork = .error faults) : Locatable faults := by
  rcases ofGroundwork_error failed with ⟨circle, stuck, rfl⟩ | ⟨nonempty, fromItems⟩
  · obtain ⟨first, rest, isCons, _⟩ := exists_nodes_of_circle wired stuck
    apply locatable_singleton
    unfold circleFault
    simp only [isCons]
    exact isLocated_located ..
  · refine ⟨nonempty, fun fault listed => ?_⟩
    obtain ⟨context, _, found, fails, isFault⟩ := fromItems fault listed
    obtain ⟨name, node, _, rfl⟩ := Item.eq_of_inOrder_error fails isFault
    exact isLocated_located ..

/-- A circle that keeps a schedule from being made is one of contexts, which are told. -/
theorem contexts_of_cyclicDependency (wired : groundwork.graph.Wired)
    (failed : ofGroundwork groundwork = .error faults) {fault : Fault} (listed : fault ∈ faults)
    {participants : List String} (isCircle : fault.cause = .cyclicDependency participants) :
    participants ≠ [] ∧ ∀ name ∈ participants, ∃ context ∈ groundwork.graph.nodes,
      context.kind.isContext = true ∧ context.displayName = name := by
  rcases ofGroundwork_error failed with ⟨circle, stuck, rfl⟩ | ⟨_, fromItems⟩
  · obtain ⟨first, rest, isCons, areContexts⟩ := exists_nodes_of_circle wired stuck
    rw [List.mem_singleton.mp listed] at isCircle
    unfold circleFault at isCircle
    simp only [isCons] at isCircle
    obtain rfl := Cause.cyclicDependency.inj isCircle
    refine ⟨List.cons_ne_nil _ _, fun name named => ?_⟩
    obtain ⟨context, isMember, rfl⟩ := List.mem_map.mp named
    exact ⟨context, (areContexts context isMember).1, (areContexts context isMember).2, rfl⟩
  · obtain ⟨context, _, found, fails, isFault⟩ := fromItems fault listed
    obtain ⟨name, node, _, rfl⟩ := Item.eq_of_inOrder_error fails isFault
    cases isCircle

end Schedule

/-! ## Runs -/

namespace Plan

section Steps

variable {α : Type} {result : Except (List Fault) α}
  (locatable : ∀ faults, result = .error faults → Locatable faults)

include locatable

theorem isLocated_of_faultsOf : ∀ fault ∈ faultsOf result, fault.IsLocated := by
  cases result with
  | ok value => intro fault listed; cases listed
  | error faults => exact (locatable faults rfl).located

theorem exists_ok_of_faultsOf (noFaults : faultsOf result = []) : ∃ value, result = .ok value := by
  cases result with
  | ok value => exact ⟨value, rfl⟩
  | error faults => exact absurd noFaults (locatable faults rfl).nonempty

end Steps

/-- Steps that are not all done have faults, each of which can be located. -/
theorem locatable_of_preparation {preparation : Preparation}
    (prepared : Preparation.ofGraph configuration unit graph = preparation)
    (undone : ∀ instantiations inheritance properties,
      preparation.instantiations = .ok instantiations →
      preparation.classes.inheritance = .ok inheritance →
      preparation.classes.properties = .ok properties → False) :
    Locatable preparation.faults := by
  have instantiations (faults : List Fault)
      (failed : preparation.instantiations = .error faults) : Locatable faults := by
    rw [← prepared] at failed
    exact Instantiations.locatable_of_resolve failed
  have inheritance (faults : List Fault)
      (failed : preparation.classes.inheritance = .error faults) : Locatable faults := by
    rw [← prepared] at failed
    exact Inheritance.locatable_of_ofGraph failed
  have properties (faults : List Fault)
      (failed : preparation.classes.properties = .error faults) : Locatable faults := by
    rw [← prepared] at failed
    simp only [Preparation.ofGraph, ClassWork.ofGraph] at failed
    split at failed
    · exact PropertyTable.locatable_of_ofGraph failed
    · cases failed
  constructor
  · intro noFaults
    obtain ⟨noneEarlier, noProperties⟩ := List.append_eq_nil_iff.mp noFaults
    obtain ⟨noInstantiations, noInheritance⟩ := List.append_eq_nil_iff.mp noneEarlier
    obtain ⟨instantiated, isInstantiated⟩ := exists_ok_of_faultsOf instantiations noInstantiations
    obtain ⟨inherited, isInherited⟩ := exists_ok_of_faultsOf inheritance noInheritance
    obtain ⟨table, isTable⟩ := exists_ok_of_faultsOf properties noProperties
    exact undone instantiated inherited table isInstantiated isInherited isTable
  · intro fault listed
    rcases List.mem_append.mp listed with earlier | ofProperties
    · rcases List.mem_append.mp earlier with ofInstantiations | ofInheritance
      · exact isLocated_of_faultsOf instantiations fault ofInstantiations
      · exact isLocated_of_faultsOf inheritance fault ofInheritance
    · exact isLocated_of_faultsOf properties fault ofProperties

theorem locatable_of_ofGraph (wired : graph.Wired) {earlier : List Diagnostic} {failure : Failure}
    (failed : ofGraph configuration unit graph earlier = .error failure) :
    Locatable failure.faults := by
  unfold ofGraph at failed
  dsimp only at failed
  split at failed
  · split at failed
    · cases failed
    · rename_i unscheduled
      rw [← Except.error.inj failed]
      exact Schedule.locatable_of_ofGroundwork wired unscheduled
  · rename_i undone
    rw [← Except.error.inj failed]
    exact locatable_of_preparation rfl undone

theorem locatable_of_ofUnit {failure : Failure}
    (failed : ofUnit configuration unit = .error failure) : Locatable failure.faults := by
  unfold ofUnit at failed
  dsimp only at failed
  split at failed
  · rename_i unmarked
    rw [← Except.error.inj failed]
    exact MarkingTable.locatable_of_ofUnit unmarked
  · split at failed
    · rename_i unbuilt
      rw [← Except.error.inj failed]
      exact Graph.locatable_of_ofUnit unbuilt
    · rename_i built
      exact locatable_of_ofGraph (Graph.ofUnit_wired built) failed

/-- A run that fails has faults, each of which names a declaration and its position. The
items of a context are never kept from being in order by a circle, and a circle that keeps
units from it is one of contexts, at least one of which is named. -/
theorem faults_located (configuration : Configuration) (unit : TranslationUnit) :
    (∀ failure, ofUnit configuration unit = .error failure →
        failure.faults ≠ [] ∧ ∀ fault ∈ failure.faults, fault.IsLocated) ∧
      (∀ graph visibility items faults, Item.inOrder graph visibility items = .error faults →
        ∀ fault ∈ faults, ∀ participants, fault.cause ≠ .cyclicDependency participants) ∧
      ∀ table groundwork faults, Graph.ofUnit unit table = .ok groundwork.graph →
        Schedule.ofGroundwork groundwork = .error faults →
        ∀ fault ∈ faults, ∀ participants, fault.cause = .cyclicDependency participants →
          participants ≠ [] ∧ ∀ name ∈ participants, ∃ context ∈ groundwork.graph.nodes,
            context.kind.isContext = true ∧ context.displayName = name := by
  refine ⟨?_, ?_, ?_⟩
  · intro failure failed
    have locatable := locatable_of_ofUnit failed
    exact ⟨locatable.nonempty, locatable.located⟩
  · intro graph visibility items faults fails fault listed participants
    obtain ⟨name, node, _, rfl⟩ := Item.eq_of_inOrder_error fails listed
    exact Cause.noConfusion
  · intro table groundwork faults built failed fault listed participants isCircle
    exact Schedule.contexts_of_cyclicDependency (Graph.ofUnit_wired built) failed listed isCircle

theorem exists_error_of_any {α : Type} {result : Except (List Fault) α} {test : Fault → Bool}
    (passed : (faultsOf result).any test = true) :
    ∃ faults, result = .error faults ∧ ∃ fault ∈ faults, test fault = true := by
  cases result with
  | ok value => cases passed
  | error faults => exact ⟨faults, rfl, List.any_eq_true.mp passed⟩

/-- Two classes that have each other as bases and are not shown, and a block without its
anchor. -/
def mutualBases : TranslationUnit where
  root := { id := 0, kind := .translationUnit, order := 0 }
  others :=
    [ { id := 1, kind := .class [{ qualifiedName := "B" }] none, name := "A", qualifiedName := "A"
        parent := some 0, order := 1 },
      { id := 2, kind := .class [{ qualifiedName := "A" }] none, name := "B", qualifiedName := "B"
        parent := some 0, order := 2 },
      { id := 3, kind := .manualBlock "x();", parent := some 0, order := 3
        payloads := [.text "before(\"C\")"] } ]
  valid := by decide

/-- The groundwork in which both classes are shown. -/
def mutualBasesShown (graph : Graph) : Groundwork where
  graph
  visibility := ⟨[], [1, 2]⟩
  inheritance := ⟨[(1, { registered := [2] }), (2, { registered := [1] })]⟩
  properties := ⟨[]⟩
  operators := ⟨[]⟩

theorem mutualBases_faultsLocated :
    (∃ failure, ofUnit {} mutualBases = .error failure ∧ failure.faults ≠ [] ∧
        ∀ fault ∈ failure.faults, fault.IsLocated) ∧
      ∃ table graph, Graph.ofUnit mutualBases table = .ok graph ∧
        (∃ faults, Item.inOrder graph ⟨[], []⟩ [⟨.manualBlock 3, 3⟩] = .error faults ∧
          ∃ fault ∈ faults, ∀ participants, fault.cause ≠ .cyclicDependency participants) ∧
        ∃ faults, Schedule.ofGroundwork (mutualBasesShown graph) = .error faults ∧
          ∃ fault ∈ faults, fault.cause = .cyclicDependency ["A", "B"] ∧
            ∃ context ∈ graph.nodes, context.kind.isContext = true ∧
              context.displayName = "A" := by
  obtain ⟨located, noCircle, contexts⟩ := faults_located {} mutualBases
  constructor
  · have fails : (ofUnit {} mutualBases).toOption.isNone = true := by cbv
    cases failed : ofUnit {} mutualBases with
    | ok plan =>
        rw [failed] at fails
        cases fails
    | error failure => exact ⟨failure, rfl, located failure failed⟩
  · have stuck : (Graph.withTable? mutualBases).any (fun made =>
        (faultsOf (Item.inOrder made.2 ⟨[], []⟩ [⟨.manualBlock 3, 3⟩])).any (fun _ => true) &&
        (faultsOf (Schedule.ofGroundwork (mutualBasesShown made.2))).any
          fun fault => fault.cause == .cyclicDependency ["A", "B"]) = true := by
      cbv
    obtain ⟨table, graph, _, built, fail⟩ := Graph.exists_of_any stuck
    obtain ⟨unanchored, hasCircle⟩ := Bool.and_eq_true_iff.mp fail
    refine ⟨table, graph, built, ?_, ?_⟩
    · obtain ⟨faults, failed, fault, listed, _⟩ := exists_error_of_any unanchored
      exact ⟨faults, failed, fault, listed, noCircle _ _ _ faults failed fault listed⟩
    · obtain ⟨faults, failed, fault, listed, isCircle⟩ := exists_error_of_any hasCircle
      rw [beq_iff_eq] at isCircle
      refine ⟨faults, failed, fault, listed, isCircle, ?_⟩
      exact (contexts table (mutualBasesShown graph) faults built failed fault listed _
        isCircle).2 "A" List.mem_cons_self

end Plan

end Registrar
