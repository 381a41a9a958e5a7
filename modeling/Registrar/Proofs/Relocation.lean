import Mathlib
import Registrar.Proofs.Exposure
import Registrar.Proofs.Graph.Aliases
import Registrar.Proofs.Restriction

/-!
Contract: classes and namespaces that ask to be moved into a hidden context.

Owns: that they have nothing from the context, so are visible for causes of their own
alone, and what is emitted of them.

Does not own: what is moved by an alias, and where the moves of a unit lead.

What is said of a node itself is decided before anything that it inherits, so a node
that asks to be visible is so in a hidden context as well.
-/

set_option autoImplicit false

namespace Registrar

namespace Graph

/-- The node asks to be moved into the context, by the name of the context. -/
def MovedInto (graph : Graph) (node context : Node) : Prop :=
  ∃ name, node.marking.exposeHere = some (.into name) ∧ graph.named? name = some context

variable {unit : TranslationUnit} {table : MarkingTable} {graph : Graph} {node context : Node}

/-- What asks to be moved into a context is moved there, on its own request. -/
theorem below_of_movedInto (built : ofUnit unit table = .ok graph) (member : node ∈ graph.nodes)
    (moved : graph.MovedInto node context) :
    graph.Below node context ∧ node.relocatedBy = some node.id := by
  obtain ⟨name, asks, named⟩ := moved
  obtain ⟨id, found, isContext⟩ := Option.bind_eq_some_iff.mp named
  obtain ⟨entity, isEntity, rfl⟩ := exists_entity_of_mem built member
  obtain ⟨asked, isAsked, made⟩ := exists_requested built isEntity
  change entity.marking.exposeHere = _ at asks
  simp only [Move.requested, asks] at isAsked
  split at isAsked
  · rename_i destination isDestination
    have isMove := made _ (Except.ok.inj isAsked).symm
    obtain ⟨isLookup, _⟩ := Option.filter_eq_some_iff.mp isDestination
    rw [lookup, entities_of_ofUnit built, isLookup, Option.some.injEq] at found
    refine ⟨⟨id, ?_, isContext⟩, ?_⟩
    · change entity.parentAfter _ = _
      simp only [Entity.parentAfter, isMove, found]
    · change (Move.find? _ entity.id).map Move.requestedBy = _
      simp only [isMove, Option.map_some]
      rfl
  · cases isAsked

theorem relocatingAlias?_of_movedInto (built : ofUnit unit table = .ok graph)
    (member : node ∈ graph.nodes) (moved : graph.MovedInto node context) :
    node.relocatingAlias? = none := by
  simp [Node.relocatingAlias?, (below_of_movedInto built member moved).2]

/-- The ancestors of a node are what is directly around it, and the ancestors of that within
one step less. -/
theorem ancestors_of_below (nonempty : 0 < graph.size) (below : graph.Below node context) :
    graph.ancestors node = context :: graph.ancestorsWithin (graph.size - 1) context := by
  rw [ancestors, ← Nat.sub_add_cancel nonempty, ancestorsWithin, below_iff.mp below,
    Nat.add_sub_cancel]

end Graph

namespace Visibility

/-! ## Statements -/

/-- Nothing keeps the node from being visible: it is public and not marked as hidden, and
neither it nor a namespace around it is kept to other modules. -/
structure Unhindered (graph : Graph) (configuration : Configuration) (node : Node) : Prop where
  isPublic : node.access = .public
  notHidden : node.marking.visible ≠ some false
  notElsewhere : ∀ scope, Relation.ReflTransGen graph.Below node scope →
    ¬ restricts configuration scope = true

/-- A node in a context is exposed for its own sake alone. -/
structure ExposedAlone (graph : Graph) (configuration : Configuration)
    (node context : Node) : Prop where
  /-- It is visible for a cause of its own. -/
  visible : (ofGraph graph configuration).isVisible node.id = true ↔
    HasCause graph node ∧ Unhindered graph configuration node
  ofClass : node.kind.target = .class →
    (ofGraph graph configuration).isEmitted node.id = true →
      (ofGraph graph configuration).isVisible node.id = true
  /-- A namespace is emitted for what is in it, or because it asks for it. -/
  ofNamespace : node.kind.target = .namespace →
    (ofGraph graph configuration).isEmitted node.id = true →
      (∃ child ∈ graph.childrenOf node,
        (ofGraph graph configuration).isEmitted child.id = true) ∨
      (ofGraph graph configuration).isVisible node.id = true ∧ node.marking.visible = some true
  /-- In a class or an enumeration it is not emitted at all. -/
  inType : context.IsType → (ofGraph graph configuration).isEmitted node.id = false

variable {unit : TranslationUnit} {table : MarkingTable} {graph : Graph}
  {configuration : Configuration} {node context : Node}

/-! ## What is visible -/

theorem target_ne_of_isScope (isScope : node.kind.target = .class ∨ node.kind.target = .namespace)
    (other : Target) (isOther : other ≠ .class ∧ other ≠ .namespace) :
    node.kind.target ≠ other := by
  rcases isScope with isClass | isNamespace
  · rw [isClass]
    exact isOther.1.symm
  · rw [isNamespace]
    exact isOther.2.symm

theorem unhindered_of_isVisible (wired : graph.Wired) (member : node ∈ graph.nodes)
    (notBlock : node.kind.target ≠ .manualBlock)
    (visible : (ofGraph graph configuration).isVisible node.id = true) :
    Unhindered graph configuration node := by
  rw [isVisible_ofGraph wired member, wayUp, visibleAlong_cons, decide_eq_true_iff notBlock]
    at visible
  obtain ⟨_, _, isPublic, notRestricted, stated⟩ := visible
  refine ⟨isPublic, ?_, ?_⟩
  · intro isHidden
    simp [isHidden] at stated
  · intro scope around
    exact List.any_eq_false.mp notRestricted scope ((wired.mem_ancestors_iff member).mpr around)

/-- A node of which nothing is said has what its cause gives it, unless an alias moved it. -/
theorem unstated_of_cause (wired : graph.Wired) (member : node ∈ graph.nodes)
    (notMoved : node.relocatingAlias? = none) (notAlias : node.kind.target ≠ .typeAlias)
    (silent : node.marking.visible = none) (cause : HasCause graph node) (inherited : Bool) :
    unstated graph (encouraged graph) node inherited = true := by
  unfold unstated
  rw [Bool.or_eq_true, List.contains_iff_mem]
  cases cause with
  | asked visible =>
      rw [silent] at visible
      cases visible
  | encouraged listed encourages isAlias target =>
      exact .inl (mem_encouraged_iff.mpr ⟨_, listed, encourages, _, isAlias, target⟩)
  | @relocated mover listed isAlias moved _ =>
      simp only [Node.relocatingAlias?, moved, Option.filter_eq_none_iff, Option.some.injEq,
        bne_iff_ne, ne_eq, not_not, forall_eq'] at notMoved
      rw [wired.eq_of_id_eq listed member notMoved] at isAlias
      exact absurd isAlias notAlias
  | @requested template listed isImplicit instantiates requests visible =>
      right
      rw [Node.relocatedByAlias, notMoved, isImplicit]
      simp only [Option.isSome_none, Bool.not_false, Bool.and_self, ↓reduceIte]
      rw [onRequest_eq_true_iff, instantiates, Option.bind_some, wired.node?_id listed,
        Option.bind_some]
      exact ⟨requests, .inl visible⟩

/-- A cause of its own makes a node visible wherever nothing hinders it. -/
theorem isVisible_of_cause (wired : graph.Wired) (member : node ∈ graph.nodes)
    (isScope : node.kind.target = .class ∨ node.kind.target = .namespace)
    (notMoved : node.relocatingAlias? = none) (cause : HasCause graph node)
    (unhindered : Unhindered graph configuration node) :
    (ofGraph graph configuration).isVisible node.id = true := by
  have notRestricted : (node :: graph.ancestors node).any (restricts configuration) = false := by
    rw [List.any_eq_false]
    exact fun scope listed =>
      unhindered.notElsewhere scope ((wired.mem_ancestors_iff member).mp listed)
  have notAlias := target_ne_of_isScope isScope .typeAlias (by decide)
  rw [isVisible_ofGraph wired member, wayUp, visibleAlong_cons,
    decide_eq_true_iff (target_ne_of_isScope isScope .manualBlock (by decide))]
  refine ⟨target_ne_of_isScope isScope .translationUnit (by decide),
    target_ne_of_isScope isScope .destructor (by decide), unhindered.isPublic, notRestricted, ?_⟩
  cases stated : node.marking.visible with
  | none =>
      exact .inr ⟨rfl, notAlias, unstated_of_cause wired member notMoved notAlias stated cause _⟩
  | some visible =>
      cases visible with
      | true => exact .inl rfl
      | false => exact absurd stated unhindered.notHidden

/-- A node that is visible in a hidden context has a cause of its own. -/
theorem cause_of_isVisible (built : Graph.ofUnit unit table = .ok graph)
    (member : node ∈ graph.nodes) (notBlock : node.kind.target ≠ .manualBlock)
    (below : graph.Below node context)
    (hidden : (ofGraph graph configuration).isVisible context.id = false)
    (visible : (ofGraph graph configuration).isVisible node.id = true) : HasCause graph node := by
  have wired := Graph.ofUnit_wired built
  have unhindered := unhindered_of_isVisible wired member notBlock visible
  rw [isVisible_ofGraph wired member] at visible
  rcases cause_or_below built member notBlock visible with
    cause | ⟨fewer, around, isSize, isBelow, stillVisible⟩
  · exact cause
  · -- What is around the node is the hidden context, seen with one step less.
    rw [Graph.below_iff] at isBelow
    obtain rfl : around = context :=
      Option.some.inj (isBelow.symm.trans (Graph.below_iff.mp below))
    have contextMember := Graph.mem_nodes_of_below below
    rw [isVisible_ofGraph wired contextMember] at hidden
    refine absurd (visibleAlong_mono (by omega) ?_ stillVisible) (Bool.eq_false_iff.mp hidden)
    intro scope listed
    exact unhindered.notElsewhere scope
      (.head below ((wired.mem_ancestors_iff contextMember).mp listed))

/-! ## What is emitted -/

/-- A namespace that is emitted has something in it that is, or asks for it. -/
theorem child_or_asks_of_isEmitted (wired : graph.Wired) (member : node ∈ graph.nodes)
    (isNamespace : node.kind.target = .namespace)
    (isEmitted : (ofGraph graph configuration).isEmitted node.id = true) :
    (∃ child ∈ graph.childrenOf node,
        (ofGraph graph configuration).isEmitted child.id = true) ∨
      (ofGraph graph configuration).isVisible node.id = true ∧
        node.marking.visible = some true := by
  have emitted := (isEmitted_iff_emits wired rfl member).mp isEmitted
  rw [emits, Bool.or_eq_true, beq_iff_eq, or_iff_right (by simp [isNamespace]),
    Bool.and_eq_true] at emitted
  obtain ⟨isOpen, inScope⟩ := emitted
  have oneLess : graph.size = graph.size - 1 + 1 := (Nat.sub_add_cancel wired.nonempty).symm
  rw [oneLess, emitsInScope_namespace isNamespace, Bool.or_eq_true, List.any_eq_true,
    Bool.and_eq_true, beq_iff_eq] at inScope
  refine inScope.imp_left ?_
  rintro ⟨child, listed, childInScope⟩
  obtain ⟨childMember, around⟩ := (wired.mem_childrenOf member).mp listed
  refine ⟨child, listed, (isEmitted_iff_emits wired rfl childMember).mpr ?_⟩
  rw [emits, Bool.or_eq_true, Bool.and_eq_true]
  refine .inr ⟨?_, emitsInScope_mono (Nat.sub_le _ _) childInScope⟩
  rw [Graph.ancestors_of_below wired.nonempty ⟨node.id, around, wired.node?_id member⟩,
    scopeOpen_namespace isNamespace]
  rw [Graph.ancestors, oneLess] at isOpen
  exact scopeOpen_of_more isOpen

/-- Nothing is emitted directly in a class or an enumeration that is hidden. -/
theorem isEmitted_of_hidden_type (wired : graph.Wired) (member : node ∈ graph.nodes)
    (notUnit : node.kind.target ≠ .translationUnit) (below : graph.Below node context)
    (isType : context.IsType)
    (hidden : (ofGraph graph configuration).isVisible context.id = false) :
    (ofGraph graph configuration).isEmitted node.id = false := by
  rw [← Bool.not_eq_true, isEmitted_iff_emits wired rfl member, emits, Bool.or_eq_true,
    beq_iff_eq, or_iff_right notUnit, Bool.and_eq_true,
    Graph.ancestors_of_below wired.nonempty below, scopeOpen]
  rintro ⟨isOpen, _⟩
  cases kind : context.kind <;>
    simp [kind, Node.IsType, DeclarationKind.target] at isType isOpen
  all_goals
    exact Bool.eq_false_iff.mp hidden isOpen.2

/-- A class or namespace that asks to be moved into a hidden context has nothing from it: it
is exposed for its own sake alone, and in a class not at all. -/
theorem ofGraph_exposesAlone (built : Graph.ofUnit unit table = .ok graph)
    (member : node ∈ graph.nodes)
    (isScope : node.kind.target = .class ∨ node.kind.target = .namespace)
    (moved : graph.MovedInto node context)
    (hidden : (ofGraph graph configuration).isVisible context.id = false) :
    ExposedAlone graph configuration node context := by
  have wired := Graph.ofUnit_wired built
  have below := (Graph.below_of_movedInto built member moved).1
  have notMoved := Graph.relocatingAlias?_of_movedInto built member moved
  have notBlock := target_ne_of_isScope isScope .manualBlock (by decide)
  have notUnit := target_ne_of_isScope isScope .translationUnit (by decide)
  exact {
    visible :=
      ⟨fun visible => ⟨cause_of_isVisible built member notBlock below hidden visible,
          unhindered_of_isVisible wired member notBlock visible⟩,
        fun ⟨cause, unhindered⟩ =>
          isVisible_of_cause wired member isScope notMoved cause unhindered⟩
    ofClass := fun isClass isEmitted =>
      isVisible_of_isEmitted wired member notUnit (by simp [isClass]) isEmitted
    ofNamespace := fun isNamespace isEmitted =>
      child_or_asks_of_isEmitted wired member isNamespace isEmitted
    inType := fun isType =>
      isEmitted_of_hidden_type wired member notUnit below isType hidden }

/-- A class that asks to be visible, one that does not, and a namespace with a visible class,
all moved into a hidden namespace. -/
def movedIntoHidden : TranslationUnit where
  root := { id := 0, kind := .translationUnit, order := 0 }
  others :=
    [ { id := 1, kind := .class [] none, name := "A", qualifiedName := "A", parent := some 0
        order := 1
        payloads := [.text "visible", .map [("expose_here", .string "n")]] },
      { id := 2, kind := .class [] none, name := "B", qualifiedName := "B", parent := some 0
        order := 2, payloads := [.map [("expose_here", .string "n")]] },
      { id := 3, kind := .namespace false, name := "m", qualifiedName := "m", parent := some 0
        order := 3, payloads := [.map [("expose_here", .string "n")]] },
      { id := 4, kind := .class [] none, name := "C", qualifiedName := "m::C", parent := some 3
        order := 4, payloads := [.text "visible"] },
      { id := 5, kind := .namespace false, name := "n", qualifiedName := "n", parent := some 0
        order := 5 } ]
  valid := by decide

/-- In the hidden namespace, the class that asks to be visible is visible and emitted, and
the namespace, which is hidden, is emitted for the class in it. -/
theorem movedIntoHidden_isExposed :
    ∃ table graph node scope context, Graph.ofUnit movedIntoHidden table = .ok graph ∧
      (node ∈ graph.nodes ∧ node.kind.target = .class ∧ graph.MovedInto node context) ∧
      (scope ∈ graph.nodes ∧ scope.kind.target = .namespace ∧ graph.MovedInto scope context) ∧
      (ofGraph graph {}).isVisible context.id = false ∧
      ((ofGraph graph {}).isVisible node.id = true ∧
        (ofGraph graph {}).isEmitted node.id = true) ∧
      (ofGraph graph {}).isVisible scope.id = false ∧
      (ofGraph graph {}).isEmitted scope.id = true := by
  have isExposed : (Graph.withTable? movedIntoHidden).any (fun (_, graph) =>
      (graph.node? 1).any (fun node => node.kind.target == .class &&
        node.marking.exposeHere == some (.into "n") &&
        (ofGraph graph {}).isVisible node.id && (ofGraph graph {}).isEmitted node.id) &&
      (graph.node? 3).any (fun scope => scope.kind.target == .namespace &&
        scope.marking.exposeHere == some (.into "n") &&
        !(ofGraph graph {}).isVisible scope.id && (ofGraph graph {}).isEmitted scope.id) &&
      (graph.named? "n").any fun context => !(ofGraph graph {}).isVisible context.id) = true := by
    decide +kernel
  obtain ⟨table, graph, _, built, holds⟩ := Graph.exists_of_any isExposed
  simp only [Bool.and_eq_true, Option.any_eq_true, beq_iff_eq, Bool.not_eq_true'] at holds
  obtain ⟨⟨⟨node, isNode, ⟨⟨isClass, asks⟩, visible⟩, isEmitted⟩,
    scope, isScope, ⟨⟨isNamespace, scopeAsks⟩, scopeHidden⟩, scopeEmitted⟩,
    context, named, hidden⟩ := holds
  exact ⟨table, graph, node, scope, context, built,
    ⟨Graph.mem_nodes_of_node? isNode, isClass, "n", asks, named⟩,
    ⟨Graph.mem_nodes_of_node? isScope, isNamespace, "n", scopeAsks, named⟩, hidden,
    ⟨visible, isEmitted⟩, scopeHidden, scopeEmitted⟩

/-- The class that asks for nothing but the move is neither. -/
theorem movedIntoHidden_staysHidden :
    ∃ table graph node context, Graph.ofUnit movedIntoHidden table = .ok graph ∧
      node ∈ graph.nodes ∧ node.kind.target = .class ∧ graph.MovedInto node context ∧
      (ofGraph graph {}).isVisible context.id = false ∧ ExposedAlone graph {} node context ∧
      (ofGraph graph {}).isVisible node.id = false ∧
      (ofGraph graph {}).isEmitted node.id = false := by
  have isHidden : (Graph.withTable? movedIntoHidden).any (fun (_, graph) =>
      (graph.node? 2).any (fun node => node.kind.target == .class &&
        node.marking.exposeHere == some (.into "n") && !(ofGraph graph {}).isVisible node.id) &&
      (graph.named? "n").any fun context => !(ofGraph graph {}).isVisible context.id) = true := by
    decide +kernel
  obtain ⟨table, graph, _, built, holds⟩ := Graph.exists_of_any isHidden
  simp only [Bool.and_eq_true, Option.any_eq_true, beq_iff_eq, Bool.not_eq_true'] at holds
  obtain ⟨⟨node, isNode, ⟨isClass, asks⟩, notVisible⟩, context, named, hidden⟩ := holds
  have member := Graph.mem_nodes_of_node? isNode
  have moved : graph.MovedInto node context := ⟨"n", asks, named⟩
  have alone := ofGraph_exposesAlone built member (.inl isClass) moved hidden
  refine ⟨table, graph, node, context, built, member, isClass, moved, hidden, alone, notVisible, ?_⟩
  rw [← Bool.not_eq_true]
  intro isEmitted
  rw [alone.ofClass isClass isEmitted] at notVisible
  cases notVisible

end Visibility

end Registrar
