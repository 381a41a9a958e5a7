import Mathlib
import Registrar.Proofs.Record.Subjects

/-!
Contract: what is left of a node that is marked as hidden.

Owns: that it is not visible, not emitted and not told of by any record, and the
nodes that are shown all the same.

Does not own: what is marked as hidden.

A manual block is visible wherever its access and the modules around it allow,
whatever is said of its visibility. The root is emitted whether it is visible or
not, and can be hidden where a declaration that redeclares it is.
-/

set_option autoImplicit false

namespace Registrar

namespace Visibility

/-- The node is a public manual block, and nothing around it is kept to other
modules. -/
def IsOpenBlock (graph : Graph) (configuration : Configuration) (node : Node) : Prop :=
  node.kind.target = .manualBlock ∧ node.access = .public ∧
    (wayUp graph node).any (restricts configuration) = false

instance (graph : Graph) (configuration : Configuration) (node : Node) :
    Decidable (IsOpenBlock graph configuration node) :=
  inferInstanceAs (Decidable (_ ∧ _ ∧ _))

variable {graph : Graph} {configuration : Configuration} {node : Node}

/-- Of the nodes that are marked as hidden only manual blocks are visible. -/
theorem decide_of_hidden {encouraged : List Nat} {inherited restricted : Bool}
    (hidden : node.marking.visible = some false) :
    decide graph encouraged node inherited restricted = true ↔
      node.kind.target = .manualBlock ∧ node.access = .public ∧ restricted = false := by
  unfold decide
  cases kind : node.kind <;> simp [hidden, DeclarationKind.target]

theorem isVisible_ofGraph (wired : graph.Wired) (member : node ∈ graph.nodes) :
    (ofGraph graph configuration).isVisible node.id =
      visibleAlong graph configuration (encouraged graph) (wayUp graph node) := by
  have found : graph.nodes[node.id]? = some node := wired.node?_id member
  simp [isVisible, decision?, ofGraph, found, decisionOf]

theorem isVisible_of_hidden_iff (wired : graph.Wired) (member : node ∈ graph.nodes)
    (hidden : node.marking.visible = some false) :
    (ofGraph graph configuration).isVisible node.id = true ↔
      IsOpenBlock graph configuration node := by
  rw [isVisible_ofGraph wired member]
  exact decide_of_hidden hidden

theorem visible_of_emitsInScope {isVisible : Node → Bool} {depth : Nat}
    (notNamespace : node.kind.target ≠ .namespace)
    (inScope : emitsInScope graph isVisible depth node = true) : isVisible node = true := by
  cases depth with
  | zero => cases inScope
  | succ depth =>
      rw [emitsInScope] at inScope
      cases kind : node.kind with
      | «namespace» isInline => exact absurd (by rw [kind]; rfl) notNamespace
      | classTemplate => simp [kind] at inScope
      | functionTemplate => simp [kind] at inScope
      | typeAlias target =>
          simp only [kind, Bool.and_eq_true] at inScope
          exact inScope.1
      | _ =>
          simp only [kind] at inScope
          exact inScope

/-- Only the unit and namespaces are emitted without being visible. -/
theorem isVisible_of_isEmitted (wired : graph.Wired) (member : node ∈ graph.nodes)
    (notUnit : node.kind.target ≠ .translationUnit) (notNamespace : node.kind.target ≠ .namespace)
    (isEmitted : (ofGraph graph configuration).isEmitted node.id = true) :
    (ofGraph graph configuration).isVisible node.id = true := by
  have emitted := (isEmitted_iff_emits wired rfl member).mp isEmitted
  rw [emits, Bool.or_eq_true, beq_iff_eq, or_iff_right notUnit, Bool.and_eq_true] at emitted
  exact visible_of_emitsInScope notNamespace emitted.2

theorem isEmitted_unit (wired : graph.Wired) (member : node ∈ graph.nodes)
    (isUnit : node.kind.target = .translationUnit) :
    (ofGraph graph configuration).isEmitted node.id = true := by
  rw [isEmitted_iff_emits wired rfl member, emits, isUnit]
  rfl

end Visibility

namespace Plan

/-- The units of a plan, each with the records that it becomes. -/
def stretches (configuration : Configuration) (plan : Plan) :
    List (ScheduledUnit × List Record) :=
  Record.stretches plan.groundwork configuration plan.schedule.aliasTargets Record.Scopes.start
    plan.schedule.units

theorem records_eq_flatMap (configuration : Configuration) (plan : Plan) :
    plan.records configuration = (plan.stretches configuration).flatMap Prod.snd :=
  Record.ofUnits_eq_flatMap ..

theorem map_fst_stretches (configuration : Configuration) (plan : Plan) :
    (plan.stretches configuration).map Prod.fst = plan.schedule.units :=
  Record.map_fst_stretches ..

/-- Where each unit is related to the records of a sort in its stretch, all units are to
all records of the sort. -/
theorem forall₂_records {configuration : Configuration} {plan : Plan} {α : Type}
    {relates : α → Record → Prop} {parts : ScheduledUnit → List α} {isOne : Record → Bool}
    (unitByUnit : ∀ stretch ∈ plan.stretches configuration,
      List.Forall₂ relates (parts stretch.1) (stretch.2.filter isOne)) :
    List.Forall₂ relates (plan.schedule.units.flatMap parts)
      ((plan.records configuration).filter isOne) := by
  rw [records_eq_flatMap, ← map_fst_stretches configuration plan, List.flatMap_map,
    List.filter_flatMap]
  refine List.rel_flatMap (R := fun left right =>
    left = right ∧ left ∈ plan.stretches configuration) ?_ ?_
  · exact List.forall₂_same.mpr fun stretch listed => ⟨rfl, listed⟩
  · rintro stretch _ ⟨rfl, listed⟩
    exact unitByUnit stretch listed

/-- Nothing is left of the node: it is not visible, it is not emitted, and no record of
a plan is about it. -/
structure Hides (configuration : Configuration) (unit : TranslationUnit) (graph : Graph)
    (node : Node) : Prop where
  notVisible : (Visibility.ofGraph graph configuration).isVisible node.id = false
  notEmitted : (Visibility.ofGraph graph configuration).isEmitted node.id = false
  untold : ∀ plan, ofUnit configuration unit = .ok plan →
    ∀ stretch ∈ plan.stretches configuration, ∀ record ∈ stretch.2, ∀ subjects,
      Record.Origin plan.groundwork configuration stretch.1 record subjects → node.id ∉ subjects

variable {configuration : Configuration} {unit : TranslationUnit} {plan : Plan}

/-- Every record of a plan has an origin. -/
theorem exists_origin (planned : ofUnit configuration unit = .ok plan)
    {stretch : ScheduledUnit × List Record} (listed : stretch ∈ plan.stretches configuration)
    {record : Record} (isRecord : record ∈ stretch.2) :
    ∃ subjects, Record.Origin plan.groundwork configuration stretch.1 record subjects := by
  obtain ⟨table, steps⟩ := exists_steps planned
  obtain ⟨inner, made⟩ := Schedule.exists_made steps.laid steps.scheduled
  exact (Record.shape_of_mem_stretches steps.laid made listed).exists_origin isRecord

/-- A hidden node that records are about is emitted. -/
theorem isEmitted_of_origin {table : MarkingTable} (steps : Steps configuration unit plan table)
    {node : Node} (member : node ∈ plan.groundwork.graph.nodes)
    (hidden : node.marking.visible = some false) {stretch : ScheduledUnit × List Record}
    (listed : stretch ∈ plan.stretches configuration) {record : Record} {subjects : List Nat}
    (origin : Record.Origin plan.groundwork configuration stretch.1 record subjects)
    (subject : node.id ∈ subjects) :
    (Visibility.ofGraph plan.groundwork.graph configuration).isEmitted node.id = true := by
  obtain ⟨inner, made⟩ := Schedule.exists_made steps.laid steps.scheduled
  have isScheduled := (Record.mem_stretches listed).1
  obtain ⟨other, found, isEmitted | notHidden⟩ :=
    origin.admits steps.laid made isScheduled subject
  · rwa [steps.isEmitted_eq] at isEmitted
  · rw [steps.laid.wired.node?_id member, Option.some.injEq] at found
    rw [← found] at notHidden
    exact absurd hidden notHidden

/-- Of a node other than a namespace that is marked as hidden nothing is left, unless it
is an open manual block or the unit itself. -/
theorem hides_iff {table : MarkingTable} {graph : Graph} {node : Node}
    (marked : MarkingTable.ofUnit unit = .ok table) (built : Graph.ofUnit unit table = .ok graph)
    (member : node ∈ graph.nodes) (notNamespace : node.kind.target ≠ .namespace)
    (hidden : node.marking.visible = some false) :
    Hides configuration unit graph node ↔
      ¬ (Visibility.IsOpenBlock graph configuration node ∨
        node.kind.target = .translationUnit) := by
  have wired := Graph.ofUnit_wired built
  have isVisible : (Visibility.ofGraph graph configuration).isVisible node.id = true ↔ _ :=
    Visibility.isVisible_of_hidden_iff wired member hidden
  constructor
  · rintro hides (isOpen | isUnit)
    · exact Bool.eq_false_iff.mp hides.notVisible (isVisible.mpr isOpen)
    · exact Bool.eq_false_iff.mp hides.notEmitted
        (Visibility.isEmitted_unit wired member isUnit)
  · rw [not_or, ← isVisible]
    rintro ⟨notVisible, notUnit⟩
    have notEmitted : ¬ (Visibility.ofGraph graph configuration).isEmitted node.id = true :=
      fun isEmitted => notVisible
        (Visibility.isVisible_of_isEmitted wired member notUnit notNamespace isEmitted)
    refine ⟨Bool.eq_false_iff.mpr notVisible, Bool.eq_false_iff.mpr notEmitted, ?_⟩
    intro plan planned stretch listed record _ subjects origin subject
    obtain ⟨other, steps⟩ := exists_steps planned
    obtain rfl : table = other := Except.ok.inj (marked.symm.trans steps.marked)
    obtain rfl : graph = plan.groundwork.graph := Except.ok.inj (built.symm.trans steps.built)
    exact notEmitted (isEmitted_of_origin steps member hidden listed origin subject)

/-- A manual block that is marked as hidden. -/
def hiddenBlock : TranslationUnit where
  root := { id := 0, kind := .translationUnit, order := 0 }
  others :=
    [ { id := 1, kind := .manualBlock "x();", parent := some 0, order := 1
        payloads := [.text "hidden"] } ]
  valid := by decide

theorem hiddenBlock_isShown :
    ∃ table graph node, MarkingTable.ofUnit hiddenBlock = .ok table ∧
      Graph.ofUnit hiddenBlock table = .ok graph ∧ node ∈ graph.nodes ∧
      node.marking.visible = some false ∧ ¬ Hides {} hiddenBlock graph node := by
  have shown : (Graph.withTable? hiddenBlock).any (fun (_, graph) =>
      graph.nodes.any fun node => node.marking.visible == some false &&
        decide (Visibility.IsOpenBlock graph {} node)) = true := by
    decide +kernel
  obtain ⟨table, graph, marked, built, holds⟩ := Graph.exists_of_any shown
  obtain ⟨node, member, isBlock⟩ := List.any_eq_true.mp holds
  rw [Bool.and_eq_true, beq_iff_eq, decide_eq_true_eq] at isBlock
  obtain ⟨hidden, isOpen⟩ := isBlock
  refine ⟨table, graph, node, marked, built, member, hidden, ?_⟩
  rw [hides_iff marked built member (by simp [isOpen.1]) hidden, not_not]
  exact .inl isOpen

end Plan

end Registrar
