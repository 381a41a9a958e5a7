import Mathlib
import Registrar.Proofs.Emission
import Registrar.Proofs.Graph.Ancestors
import Registrar.Proofs.Hidden

/-!
Contract: namespaces that are kept to other modules.

Owns: that nothing in such a namespace is visible or emitted, and that no plan
opens, closes or names again what is in it.

Does not own: what is taken out of such a namespace, by a move or by a class that
inlines a base.
-/

set_option autoImplicit false

namespace Registrar

namespace Visibility

variable {graph : Graph} {configuration : Configuration} {node scope : Node}

theorem restricts_iff : restricts configuration scope = true ↔
    scope.kind.target = .namespace ∧ scope.marking.onlyExposeIn ≠ [] ∧
      configuration.moduleName ∉ scope.marking.onlyExposeIn := by
  simp [restricts, and_assoc]

/-! ## What is visible -/

/-- Whatever is said of a node, it is hidden where it is kept to other modules. -/
theorem decide_of_restricted (encouraged : List Nat) (inherited : Bool) :
    decide graph encouraged node inherited true = false := by
  unfold decide
  cases node.kind <;> simp

/-- Nothing below a namespace that is kept to other modules is visible. -/
theorem isVisible_of_restricted (wired : graph.Wired) (member : node ∈ graph.nodes)
    (below : Relation.ReflTransGen graph.Below node scope)
    (elsewhere : restricts configuration scope = true) :
    (ofGraph graph configuration).isVisible node.id = false := by
  have onWayUp : scope ∈ wayUp graph node := (wired.mem_ancestors_iff member).mpr below
  have restricted : (wayUp graph node).any (restricts configuration) = true :=
    List.any_eq_true.mpr ⟨scope, onWayUp, elsewhere⟩
  rw [isVisible_ofGraph wired member]
  unfold wayUp at restricted ⊢
  rw [visibleAlong, restricted]
  exact decide_of_restricted ..

/-! ## What is emitted -/

/-- What is emitted in a scope that lets it be is visible, or something below it is. -/
theorem exists_visible_of_emitsInScope {isVisible : Node → Bool} {depth : Nat}
    (wired : graph.Wired) (member : node ∈ graph.nodes)
    (inScope : emitsInScope graph isVisible depth node = true) :
    ∃ lower ∈ graph.nodes, Relation.ReflTransGen graph.Below lower node ∧
      isVisible lower = true := by
  induction depth generalizing node with
  | zero => cases inScope
  | succ depth inductionHypothesis =>
      by_cases isNamespace : node.kind.target = .namespace
      · rw [emitsInScope_namespace isNamespace, Bool.or_eq_true, List.any_eq_true,
          Bool.and_eq_true] at inScope
        rcases inScope with ⟨child, listed, childInScope⟩ | ⟨visible, _⟩
        · obtain ⟨childMember, around⟩ := (wired.mem_childrenOf member).mp listed
          obtain ⟨lower, lowerMember, below, visible⟩ :=
            inductionHypothesis childMember childInScope
          have step : graph.Below child node := ⟨node.id, around, wired.node?_id member⟩
          exact ⟨lower, lowerMember, below.tail step, visible⟩
        · exact ⟨node, member, .refl, visible⟩
      · exact ⟨node, member, .refl, visible_of_emitsInScope isNamespace inScope⟩

/-- An emitted node that is not the unit is visible, or something below it is. -/
theorem exists_visible_of_isEmitted (wired : graph.Wired) (member : node ∈ graph.nodes)
    (notUnit : node.kind.target ≠ .translationUnit)
    (isEmitted : (ofGraph graph configuration).isEmitted node.id = true) :
    ∃ lower ∈ graph.nodes, Relation.ReflTransGen graph.Below lower node ∧
      (ofGraph graph configuration).isVisible lower.id = true := by
  have emitted := (isEmitted_iff_emits wired rfl member).mp isEmitted
  rw [emits, Bool.or_eq_true, beq_iff_eq, or_iff_right notUnit, Bool.and_eq_true] at emitted
  exact exists_visible_of_emitsInScope wired member emitted.2

/-- The unit is below nothing but itself. -/
theorem notUnit_of_below (tree : graph.Tree) (member : node ∈ graph.nodes)
    (below : Relation.ReflTransGen graph.Below node scope)
    (isNamespace : scope.kind.target = .namespace) : node.kind.target ≠ .translationUnit := by
  intro isUnit
  rcases below.cases_head with rfl | ⟨around, ⟨id, isParent, _⟩, _⟩
  · rw [isUnit] at isNamespace
    cases isNamespace
  · exact tree.ne_root_of_parent member isParent (tree.id_eq_root member isUnit)

/-- Nothing below a namespace that is kept to other modules is emitted. -/
theorem isEmitted_of_restricted (tree : graph.Tree) (member : node ∈ graph.nodes)
    (below : Relation.ReflTransGen graph.Below node scope)
    (elsewhere : restricts configuration scope = true) :
    (ofGraph graph configuration).isEmitted node.id = false := by
  rw [← Bool.not_eq_true]
  intro isEmitted
  have notUnit := notUnit_of_below tree member below (restricts_iff.mp elsewhere).1
  obtain ⟨lower, lowerMember, further, visible⟩ :=
    exists_visible_of_isEmitted tree.toWired member notUnit isEmitted
  rw [isVisible_of_restricted tree.toWired lowerMember (further.trans below) elsewhere] at visible
  cases visible

end Visibility

namespace Plan

/-- The node is kept from the module: it is neither visible nor emitted, and no plan
has a unit for it, nor a record that opens, closes or names it again. -/
structure Withholds (configuration : Configuration) (unit : TranslationUnit) (graph : Graph)
    (node : Node) : Prop where
  notVisible : (Visibility.ofGraph graph configuration).isVisible node.id = false
  notEmitted : (Visibility.ofGraph graph configuration).isEmitted node.id = false
  unscheduled : ∀ plan, ofUnit configuration unit = .ok plan →
    ∀ scheduled ∈ plan.schedule.units, scheduled.id.node? ≠ some node.id
  unregistered : ∀ plan, ofUnit configuration unit = .ok plan →
    ∀ stretch ∈ plan.stretches configuration, ∀ record ∈ stretch.2, record.isItem = false →
      ∀ subjects, Record.Origin plan.groundwork configuration stretch.1 record subjects →
        node.id ∉ subjects

variable {configuration : Configuration} {unit : TranslationUnit} {plan : Plan}
  {table : MarkingTable} {graph : Graph} {node scope : Node}

/-- The nodes with units are emitted. -/
theorem isEmitted_of_scheduled (steps : Steps configuration unit plan table)
    (member : node ∈ plan.groundwork.graph.nodes) {scheduled : ScheduledUnit}
    (listed : scheduled ∈ plan.schedule.units) (isUnit : scheduled.id.node? = some node.id) :
    (Visibility.ofGraph plan.groundwork.graph configuration).isEmitted node.id = true := by
  obtain ⟨inner, made⟩ := Schedule.exists_made steps.laid steps.scheduled
  rw [← steps.isEmitted_eq]
  exact (made.unitOf?_of_mem_units steps.laid listed member isUnit).1

/-- Whatever is in a namespace that is kept to other modules is kept from this one,
whatever else is said of it. -/
theorem withholds_of_restricted (marked : MarkingTable.ofUnit unit = .ok table)
    (built : Graph.ofUnit unit table = .ok graph) (ends : graph.WalkEnds)
    (isNamespace : scope.kind.target = .namespace) (someModules : scope.marking.onlyExposeIn ≠ [])
    (elsewhere : configuration.moduleName ∉ scope.marking.onlyExposeIn)
    (member : node ∈ graph.nodes) (below : Relation.ReflTransGen graph.Below node scope) :
    Withholds configuration unit graph node := by
  have wired := Graph.ofUnit_wired built
  have restricted : Visibility.restricts configuration scope = true :=
    Visibility.restricts_iff.mpr ⟨isNamespace, someModules, elsewhere⟩
  have notEmitted :=
    Visibility.isEmitted_of_restricted (wired.tree ends) member below restricted
  have unscheduled : ∀ plan, ofUnit configuration unit = .ok plan →
      ∀ scheduled ∈ plan.schedule.units, scheduled.id.node? ≠ some node.id := by
    intro plan planned scheduled listed isUnit
    obtain ⟨other, steps⟩ := exists_steps planned
    obtain rfl : table = other := Except.ok.inj (marked.symm.trans steps.marked)
    obtain rfl : graph = plan.groundwork.graph := Except.ok.inj (built.symm.trans steps.built)
    rw [isEmitted_of_scheduled steps member listed isUnit] at notEmitted
    cases notEmitted
  refine ⟨Visibility.isVisible_of_restricted wired member below restricted, notEmitted,
    unscheduled, ?_⟩
  intro plan planned stretch listed record _ notItem subjects origin subject
  exact unscheduled plan planned stretch.1 (Record.mem_stretches listed).1
    (origin.node?_of_notItem notItem subject)

/-- A namespace that is kept to another module, into which an alias moves a class. The
namespace, the alias and the class all ask to be visible. -/
def keptElsewhere : TranslationUnit where
  root := { id := 0, kind := .translationUnit, order := 0 }
  others :=
    [ { id := 1, kind := .namespace false, name := "n", qualifiedName := "n", parent := some 0
        order := 1
        payloads := [.text "visible", .map [("only_expose_in", .array [.string "m"])]] },
      { id := 2, kind := .manualBlock "x();", parent := some 1, order := 2 },
      { id := 3, kind := .class [] none, name := "A", qualifiedName := "A", parent := some 0
        order := 3, payloads := [.text "visible"] },
      { id := 4, kind := .typeAlias (some "A"), name := "B", qualifiedName := "n::B"
        parent := some 1, order := 4, payloads := [.text "visible", .text "expose_here"] } ]
  valid := by decide

theorem keptElsewhere_withholds :
    ∃ table graph scope node, MarkingTable.ofUnit keptElsewhere = .ok table ∧
      Graph.ofUnit keptElsewhere table = .ok graph ∧ graph.WalkEnds ∧
      scope.kind.target = .namespace ∧ scope.marking.onlyExposeIn = ["m"] ∧
      node ∈ graph.nodes ∧ graph.Below node scope ∧ node.marking.visible = some true ∧
      Withholds {} keptElsewhere graph node := by
  have isMoved : (Graph.withTable? keptElsewhere).any (fun (_, graph) =>
      graph.parentLink Graph.root == none &&
        (graph.node? 1).any (fun scope =>
          scope.kind.target == .namespace && scope.marking.onlyExposeIn == ["m"]) &&
        (graph.node? 3).any fun node =>
          node.parent == some 1 && node.marking.visible == some true) = true := by
    decide +kernel
  obtain ⟨table, graph, marked, built, holds⟩ := Graph.exists_of_any isMoved
  simp only [Bool.and_eq_true, Option.any_eq_true, beq_iff_eq] at holds
  obtain ⟨⟨outermost, scope, isScope, isNamespace, modules⟩, node, isNode, around, visible⟩ := holds
  have ends := ((Graph.ofUnit_wired built).tree_of_outermost outermost).walkEnds
  have member := Graph.mem_nodes_of_node? isNode
  have below : graph.Below node scope := ⟨1, around, isScope⟩
  refine ⟨table, graph, scope, node, marked, built, ends, isNamespace, modules, member, below,
    visible, ?_⟩
  exact withholds_of_restricted marked built ends isNamespace (by rw [modules]; decide)
    (by rw [modules]; decide) member (.single below)

end Plan

end Registrar
