import Mathlib
import Registrar.Proofs.Graph.Redeclarations
import Registrar.Proofs.Visibility

/-!
Contract: exactly which nodes are emitted.

Owns: that a node is emitted as its own visibility, that of the classes around
it and, for a namespace, what is in it say, and when the root is emitted too.

Does not own: which nodes are visible.
-/

set_option autoImplicit false

namespace Registrar

/-- Whether the node is a template. -/
def Node.IsTemplate (node : Node) : Prop :=
  node.kind.target = .classTemplate ∨ node.kind.target = .functionTemplate

/-- Whether the node is a class or an enumeration. -/
def Node.IsType (node : Node) : Prop :=
  node.kind.target = .class ∨ node.kind.target = .enum

namespace Visibility

/-- The classes and enumerations around a node are visible, and no template is
around it. -/
def OpenAround (graph : Graph) (visibility : Visibility) (node : Node) : Prop :=
  ∀ above ∈ graph.ancestors node,
    ¬ above.IsTemplate ∧ (above.IsType → visibility.isVisible above.id = true)

/-- The nodes that are emitted are those that their own visibility and what is
around them or in them calls for. -/
structure EmitsExactly (graph : Graph) (visibility : Visibility) : Prop where
  /-- A node inside others is emitted if it is visible and all around it is
  open, save an alias that moved its target. -/
  inner : ∀ node ∈ graph.nodes, node.id ≠ Graph.root → node.kind.target ≠ .namespace →
    ¬ node.IsTemplate → (visibility.isEmitted node.id = true ↔
      visibility.isVisible node.id = true ∧ OpenAround graph visibility node ∧
        ¬ (node.kind.target = .typeAlias ∧ node.relocates.isSome = true))
  /-- A namespace is emitted for what is in it, or because it asks for it. -/
  ofNamespace : ∀ node ∈ graph.nodes, node.kind.target = .namespace →
    (visibility.isEmitted node.id = true ↔ OpenAround graph visibility node ∧
      ((∃ child ∈ graph.childrenOf node, visibility.isEmitted child.id = true) ∨
        visibility.isVisible node.id = true ∧ node.marking.visible = some true))
  ofTemplate : ∀ node ∈ graph.nodes, node.IsTemplate → visibility.isEmitted node.id = false
  ofRoot : visibility.isEmitted Graph.root = true
  parent : ∀ node ∈ graph.nodes, ∀ around ∈ graph.nodes, node.parent = some around.id →
    visibility.isEmitted node.id = true → visibility.isEmitted around.id = true

variable {graph : Graph} {visibility : Visibility}

/-! ## Scopes -/

/-- A namespace leaves what is in it to the scopes around the namespace. -/
theorem scopeOpen_namespace {isVisible : Node → Bool} {scope : Node} {above : List Node}
    (isNamespace : scope.kind.target = .namespace) :
    scopeOpen isVisible (scope :: above) = scopeOpen isVisible above := by
  cases kind : scope.kind <;> simp [kind, DeclarationKind.target] at isNamespace
  simp [scopeOpen, kind]

theorem emitsInScope_namespace {isVisible : Node → Bool} {depth : Nat} {node : Node}
    (isNamespace : node.kind.target = .namespace) :
    emitsInScope graph isVisible (depth + 1) node =
      ((graph.childrenOf node).any (emitsInScope graph isVisible depth) ||
        (isVisible node && node.marking.visible == some true)) := by
  cases kind : node.kind <;> simp [kind, DeclarationKind.target] at isNamespace
  simp [emitsInScope, kind]

/-- What is said of the scopes around a node can be read off the way up: only what
can own others is around it, and the unit ends the way. -/
theorem scopeOpen_iff (tree : graph.Tree)
    (owners : ∀ node ∈ graph.nodes, ∀ parent ∈ graph.nodes, node.parent = some parent.id →
      parent.kind.canOwn = true) :
    ∀ node ∈ graph.nodes,
      scopeOpen (fun scope => visibility.isVisible scope.id) (graph.ancestors node) = true ↔
        OpenAround graph visibility node := by
  refine tree.induction ?_ ?_
  · intro node member isRoot
    unfold OpenAround
    rw [tree.ancestors_root member isRoot]
    simp [scopeOpen]
  · intro node member parent parentMember around inductionHypothesis
    have canOwn := owners node member parent parentMember around
    unfold OpenAround at inductionHypothesis ⊢
    rw [tree.ancestors_of_parent member parentMember around, scopeOpen, List.forall_mem_cons,
      ← inductionHypothesis]
    cases kind : parent.kind with
    | translationUnit =>
        have isRoot := tree.id_eq_root parentMember (by rw [kind]; rfl)
        simp [tree.ancestors_root parentMember isRoot, scopeOpen, Node.IsTemplate, Node.IsType,
          kind, DeclarationKind.target]
    | «namespace» isInline =>
        simp [Node.IsTemplate, Node.IsType, kind, DeclarationKind.target]
    | «class» bases template =>
        simp [Node.IsTemplate, Node.IsType, kind, DeclarationKind.target, and_comm]
    | enum isScoped =>
        simp [Node.IsTemplate, Node.IsType, kind, DeclarationKind.target, and_comm]
    | classTemplate =>
        simp [Node.IsTemplate, kind, DeclarationKind.target]
    | _ =>
        rw [kind] at canOwn
        cases canOwn

/-! ## Node by node -/

section Settled

variable (tree : graph.Tree)
  (owners : ∀ node ∈ graph.nodes, ∀ parent ∈ graph.nodes, node.parent = some parent.id →
    parent.kind.canOwn = true)
  (settled : visibility.emitted =
    (graph.nodes.filter (emits graph fun node => visibility.isVisible node.id)).map
      fun node => node.id)

include tree settled

/-- A node other than the unit is emitted if all around it is open and it is
emitted there. -/
theorem isEmitted_iff_scopeOpen {node : Node} (member : node ∈ graph.nodes)
    (notUnit : node.kind.target ≠ .translationUnit) :
    visibility.isEmitted node.id = true ↔
      scopeOpen (fun scope => visibility.isVisible scope.id) (graph.ancestors node) = true ∧
        emitsInScope graph (fun scope => visibility.isVisible scope.id) graph.size node =
          true := by
  rw [isEmitted_iff_emits tree.toWired settled member, emits, Bool.or_eq_true, Bool.and_eq_true,
    beq_iff_eq, or_iff_right notUnit]

theorem isEmitted_template {node : Node} (member : node ∈ graph.nodes)
    (isTemplate : node.IsTemplate) : visibility.isEmitted node.id = false := by
  have notUnit : node.kind.target ≠ .translationUnit := by
    rcases isTemplate with isTarget | isTarget <;> simp [isTarget]
  rw [← Bool.not_eq_true, isEmitted_iff_scopeOpen tree settled member notUnit,
    ← Nat.sub_add_cancel tree.nonempty, emitsInScope]
  rintro ⟨_, inScope⟩
  cases kind : node.kind <;> simp [kind] at inScope <;>
    simp [Node.IsTemplate, kind, DeclarationKind.target] at isTemplate

include owners

theorem isEmitted_inner_iff {node : Node} (member : node ∈ graph.nodes)
    (notUnit : node.kind.target ≠ .translationUnit)
    (notNamespace : node.kind.target ≠ .namespace) (notTemplate : ¬ node.IsTemplate) :
    visibility.isEmitted node.id = true ↔
      visibility.isVisible node.id = true ∧ OpenAround graph visibility node ∧
        ¬ (node.kind.target = .typeAlias ∧ node.relocates.isSome = true) := by
  rw [isEmitted_iff_scopeOpen tree settled member notUnit, scopeOpen_iff tree owners node member,
    ← Nat.sub_add_cancel tree.nonempty, emitsInScope]
  cases kind : node.kind with
  | «namespace» isInline => exact absurd (by rw [kind]; rfl) notNamespace
  | classTemplate => exact absurd (.inl (by rw [kind]; rfl)) notTemplate
  | functionTemplate => exact absurd (.inr (by rw [kind]; rfl)) notTemplate
  | typeAlias target =>
      simp [DeclarationKind.target, and_left_comm]
  | _ => simp [DeclarationKind.target, and_comm]

omit owners in
/-- What is in a namespace that all around is open for is emitted as it would be in
the scope around the namespace. -/
theorem isEmitted_iff_of_mem_childrenOf {node child : Node} (member : node ∈ graph.nodes)
    (isNamespace : node.kind.target = .namespace) (listed : child ∈ graph.childrenOf node) :
    visibility.isEmitted child.id = true ↔
      scopeOpen (fun scope => visibility.isVisible scope.id) (graph.ancestors node) = true ∧
        emitsInScope graph (fun scope => visibility.isVisible scope.id) (graph.size - 1) child =
          true := by
  obtain ⟨childMember, around⟩ := (tree.mem_childrenOf member).mp listed
  have below := tree.ne_root_of_parent childMember around
  have notUnit : child.kind.target ≠ .translationUnit := fun isUnit =>
    below (tree.id_eq_root childMember isUnit)
  rw [isEmitted_iff_scopeOpen tree settled childMember notUnit,
    tree.ancestors_of_parent childMember member around, scopeOpen_namespace isNamespace]
  refine and_congr_right fun _ => ⟨?_, emitsInScope_mono (Nat.sub_le _ _)⟩
  exact emitsInScope_of_below tree childMember below

theorem isEmitted_namespace_iff {node : Node} (member : node ∈ graph.nodes)
    (isNamespace : node.kind.target = .namespace) :
    visibility.isEmitted node.id = true ↔ OpenAround graph visibility node ∧
      ((∃ child ∈ graph.childrenOf node, visibility.isEmitted child.id = true) ∨
        visibility.isVisible node.id = true ∧ node.marking.visible = some true) := by
  have notUnit : node.kind.target ≠ .translationUnit := by simp [isNamespace]
  rw [isEmitted_iff_scopeOpen tree settled member notUnit,
    ← scopeOpen_iff tree owners node member, ← Nat.sub_add_cancel tree.nonempty,
    emitsInScope_namespace isNamespace, Bool.or_eq_true, List.any_eq_true, Bool.and_eq_true,
    beq_iff_eq]
  refine and_congr_right fun isOpen => or_congr_left ?_
  constructor
  · rintro ⟨child, listed, childInScope⟩
    exact ⟨child, listed,
      (isEmitted_iff_of_mem_childrenOf tree settled member isNamespace listed).mpr
        ⟨isOpen, childInScope⟩⟩
  · rintro ⟨child, listed, childEmitted⟩
    exact ⟨child, listed,
      ((isEmitted_iff_of_mem_childrenOf tree settled member isNamespace listed).mp
        childEmitted).2⟩

/-- The root is emitted if it is the unit. As a class it has to be visible. -/
theorem isEmitted_root_iff {root : Node} (isRoot : graph.node? Graph.root = some root) :
    visibility.isEmitted Graph.root = true ↔
      root.kind.target = .translationUnit ∨ visibility.isVisible Graph.root = true := by
  have member := Graph.mem_nodes_of_node? isRoot
  have rootId := tree.id_eq isRoot
  rcases tree.sort_of_root member rootId with isUnit | isClass
  · simp only [isUnit, true_or, iff_true]
    rw [← rootId, isEmitted_iff_emits tree.toWired settled member, emits, isUnit]
    rfl
  · rw [isClass, or_iff_right (by decide)]
    have isInner := isEmitted_inner_iff tree owners settled member (by simp [isClass])
      (by simp [isClass]) (by simp [Node.IsTemplate, isClass])
    rw [← rootId, isInner, isClass, OpenAround, tree.ancestors_root member rootId]
    simp

end Settled

/-! ## The emitted nodes of a unit -/

section OfUnit

variable {unit : TranslationUnit} {table : MarkingTable} {configuration : Configuration}

/-- All is emitted as it should be once the root is. -/
theorem emitsExactly_of_isEmitted_root (tree : graph.Tree)
    (built : Graph.ofUnit unit table = .ok graph)
    (rootEmitted : (ofGraph graph configuration).isEmitted Graph.root = true) :
    EmitsExactly graph (ofGraph graph configuration) := by
  have owners : ∀ node ∈ graph.nodes, ∀ parent ∈ graph.nodes, node.parent = some parent.id →
      parent.kind.canOwn = true :=
    fun _ member _ parentMember around => Graph.canOwn_of_parent built member parentMember around
  exact {
    inner := by
      intro node member below notNamespace notTemplate
      have notUnit : node.kind.target ≠ .translationUnit := fun isUnit =>
        below (tree.id_eq_root member isUnit)
      exact isEmitted_inner_iff tree owners rfl member notUnit notNamespace notTemplate
    ofNamespace := fun node member isNamespace =>
      isEmitted_namespace_iff tree owners rfl member isNamespace
    ofTemplate := fun node member isTemplate => isEmitted_template tree rfl member isTemplate
    ofRoot := rootEmitted
    parent := fun node member parent parentMember around isEmitted =>
      ((ofGraph_decided graph configuration).isEmitted_parent tree member parentMember around
        isEmitted).1 }

/-- What is emitted is exactly what should be, unless the root was declared again as
a class and is not visible: then the root, and so all of the unit, is left out. -/
theorem ofGraph_emitsExactly_iff (built : Graph.ofUnit unit table = .ok graph)
    (outermost : graph.parentLink Graph.root = none) :
    EmitsExactly graph (ofGraph graph configuration) ↔
      ∃ root, graph.node? Graph.root = some root ∧
        (root.kind.target = .translationUnit ∨
          (ofGraph graph configuration).isVisible Graph.root = true) := by
  have tree := (Graph.ofUnit_wired built).tree_of_outermost outermost
  obtain ⟨root, isRoot⟩ : ∃ root, graph.node? Graph.root = some root :=
    Graph.node?_of_lt tree.nonempty
  have rootEmitted : (ofGraph graph configuration).isEmitted Graph.root = true ↔ _ :=
    isEmitted_root_iff tree
      (fun _ member _ parentMember around =>
        Graph.canOwn_of_parent built member parentMember around)
      rfl isRoot
  constructor
  · intro exactly
    exact ⟨root, isRoot, rootEmitted.mp exactly.ofRoot⟩
  · rintro ⟨other, isOther, emitted⟩
    rw [isRoot, Option.some.injEq] at isOther
    rw [← isOther] at emitted
    exact emitsExactly_of_isEmitted_root tree built (rootEmitted.mpr emitted)

/-- A root without a name is always emitted, and with it exactly what should be. -/
theorem ofGraph_emitsExactly_of_unnamed (built : Graph.ofUnit unit table = .ok graph)
    (unnamed : unit.root.qualifiedName = "") (outermost : graph.parentLink Graph.root = none) :
    EmitsExactly graph (ofGraph graph configuration) := by
  have tree := (Graph.ofUnit_wired built).tree_of_outermost outermost
  obtain ⟨root, isRoot⟩ := Graph.node?_of_lt tree.nonempty
  refine emitsExactly_of_isEmitted_root tree built ((isEmitted_root_iff tree ?_ rfl isRoot).mpr ?_)
  · exact fun _ member _ parentMember around =>
      Graph.canOwn_of_parent built member parentMember around
  · rw [Graph.root_kind_of_unnamed built unnamed isRoot]
    exact .inl rfl

end OfUnit

/-- A class with a base that has the name of the root, and is not visible. -/
def classAsRoot : TranslationUnit where
  root := { id := 0, kind := .translationUnit, qualifiedName := "A", order := 0 }
  others :=
    [ { id := 1, kind := .class [{ qualifiedName := "B" }] none, name := "A", qualifiedName := "A"
        parent := some 0, order := 1 } ]
  valid := by decide

theorem classAsRoot_emitsNothing :
    ∃ table graph, Graph.ofUnit classAsRoot table = .ok graph ∧
      graph.parentLink Graph.root = none ∧ ¬ EmitsExactly graph (ofGraph graph {}) := by
  have leftOut : (Graph.withTable? classAsRoot).any (fun (_, graph) =>
      graph.parentLink Graph.root == none && !(ofGraph graph {}).isVisible Graph.root &&
        (graph.node? Graph.root).any fun root => root.kind.target == .class) = true := by
    cbv
  obtain ⟨table, graph, _, built, holds⟩ := Graph.exists_of_any leftOut
  rw [Bool.and_eq_true, Bool.and_eq_true, beq_iff_eq, Bool.not_eq_true'] at holds
  obtain ⟨⟨outermost, hidden⟩, isClass⟩ := holds
  refine ⟨table, graph, built, outermost, ?_⟩
  rw [ofGraph_emitsExactly_iff built outermost]
  rintro ⟨root, isRoot, isUnit | visible⟩
  · rw [isRoot, Option.any_some, isUnit] at isClass
    cases isClass
  · rw [hidden] at visible
    cases visible

end Visibility

end Registrar
