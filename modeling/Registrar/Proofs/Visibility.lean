import Mathlib
import Registrar.Proofs.Graph.Tree
import Registrar.Visibility

/-!
Contract: how the emitted nodes lie in the tree.

Owns: that looking into namespaces goes deep enough, that what is around an
emitted node is emitted and is a context, and that names say nothing of what is
emitted.

Does not own: which nodes are visible.
-/

set_option autoImplicit false

namespace Registrar.Visibility

open ParentLinks

variable {graph : Graph} {isVisible : Node → Bool}

/-- The emitted nodes are those that some choice of visible nodes lets be
emitted. -/
def Decided (graph : Graph) (visibility : Visibility) : Prop :=
  ∃ isVisible : Node → Bool,
    visibility.emitted = (graph.nodes.filter (emits graph isVisible)).map fun node => node.id

theorem ofGraph_decided (graph : Graph) (configuration : Configuration) :
    Decided graph (ofGraph graph configuration) :=
  ⟨_, rfl⟩

theorem decision?_ofGraph {configuration : Configuration} (id : Nat) :
    (ofGraph graph configuration).decision? id =
      (graph.node? id).map (decisionOf graph configuration (encouraged graph)) := by
  unfold decision? Graph.node?
  exact List.getElem?_map

theorem Decided.of_emitted_eq {decided renamed : Visibility} (isDecided : Decided graph decided)
    (same : renamed.emitted = decided.emitted) : Decided graph renamed := by
  obtain ⟨isVisible, emitted⟩ := isDecided
  exact ⟨isVisible, same.trans emitted⟩

theorem isEmitted_iff_emits {visibility : Visibility} (wired : graph.Wired)
    (emitted : visibility.emitted =
      (graph.nodes.filter (emits graph isVisible)).map fun node => node.id)
    {node : Node} (member : node ∈ graph.nodes) :
    visibility.isEmitted node.id = true ↔ emits graph isVisible node = true := by
  unfold Visibility.isEmitted
  rw [List.contains_iff_mem, emitted, List.mem_map]
  constructor
  · rintro ⟨other, listed, sameId⟩
    rw [List.mem_filter] at listed
    rw [wired.eq_of_id_eq listed.1 member sameId] at listed
    exact listed.2
  · intro isEmitted
    exact ⟨node, List.mem_filter.mpr ⟨member, isEmitted⟩, rfl⟩

/-- The emitted nodes of a graph are the nodes that are emitted. -/
theorem mem_emittedNodes {visibility : Visibility} (wired : graph.Wired) {node : Node} :
    node ∈ graph.nodesOf visibility.emitted ↔
      node ∈ graph.nodes ∧ visibility.isEmitted node.id = true := by
  unfold Visibility.isEmitted
  rw [Graph.mem_nodesOf, List.contains_iff_mem]
  constructor
  · rintro ⟨id, emitted, found⟩
    rw [wired.id_eq found]
    exact ⟨Graph.mem_nodes_of_node? found, emitted⟩
  · rintro ⟨member, emitted⟩
    exact ⟨node.id, emitted, wired.node?_id member⟩

/-! ## Depth -/

/-- What is open is open if less of what is around is looked at. -/
theorem scopeOpen_of_more {steps : Nat} {node : Node}
    (isOpen : scopeOpen isVisible (graph.ancestorsWithin (steps + 1) node) = true) :
    scopeOpen isVisible (graph.ancestorsWithin steps node) = true := by
  induction steps generalizing node with
  | zero => rfl
  | succ steps inductionHypothesis =>
      rw [Graph.ancestorsWithin] at isOpen ⊢
      cases around : node.parent.bind graph.node? with
      | none => rfl
      | some parent =>
          simp only [around] at isOpen ⊢
          cases kind : parent.kind <;> simp_all [scopeOpen]

/-- Looking deeper into namespaces finds no less. -/
theorem emitsInScope_mono {depth more : Nat} {node : Node} (deeper : depth ≤ more)
    (emitted : emitsInScope graph isVisible depth node = true) :
    emitsInScope graph isVisible more node = true := by
  induction depth generalizing node more with
  | zero => cases emitted
  | succ depth inductionHypothesis =>
      obtain ⟨others, rfl⟩ : ∃ others, more = others + 1 := ⟨more - 1, by omega⟩
      unfold emitsInScope at emitted ⊢
      split at emitted
      · rw [Bool.or_eq_true, List.any_eq_true] at emitted ⊢
        refine emitted.imp_left ?_
        rintro ⟨child, below, childEmitted⟩
        exact ⟨child, below, inductionHypothesis (by omega) childEmitted⟩
      all_goals exact emitted

/-- A node that is emitted at all is emitted on looking no deeper than the tree
goes on below it. -/
theorem emitsInScope_of_depth (tree : graph.Tree) {steps depth : Nat} {node : Node}
    (member : node ∈ graph.nodes)
    (reaches : climb graph.parentLink steps node.id = some Graph.root)
    (emitted : emitsInScope graph isVisible depth node = true) :
    emitsInScope graph isVisible (graph.size - steps) node = true := by
  induction depth generalizing node steps with
  | zero => cases emitted
  | succ depth inductionHypothesis =>
      have inside : steps < graph.size := tree.lt_size_of_climb member reaches
      have isSucc : graph.size - steps = graph.size - (steps + 1) + 1 := by omega
      rw [isSucc]
      unfold emitsInScope at emitted ⊢
      split at emitted
      · rw [Bool.or_eq_true, List.any_eq_true] at emitted ⊢
        refine emitted.imp_left ?_
        rintro ⟨child, listed, childEmitted⟩
        obtain ⟨childMember, around⟩ := (tree.mem_childrenOf member).mp listed
        have below : child.id ≠ Graph.root := by
          intro isRoot
          rw [(tree.parent_eq_none_iff childMember).mpr isRoot] at around
          cases around
        have childReaches :
            climb graph.parentLink (steps + 1) child.id = some Graph.root := by
          rw [tree.climb_parent childMember below around]
          exact reaches
        exact ⟨child, listed, inductionHypothesis childMember childReaches childEmitted⟩
      all_goals exact emitted

/-- One step less than the size of the graph is deep enough below the root. -/
theorem emitsInScope_of_below (tree : graph.Tree) {depth : Nat} {node : Node}
    (member : node ∈ graph.nodes) (below : node.id ≠ Graph.root)
    (emitted : emitsInScope graph isVisible depth node = true) :
    emitsInScope graph isVisible (graph.size - 1) node = true := by
  obtain ⟨steps, _, reaches⟩ := tree.exists_climb_root member
  have positive : steps ≠ 0 := by
    intro isZero
    rw [isZero, climb, Option.some.injEq] at reaches
    exact below reaches
  exact emitsInScope_mono (by omega) (emitsInScope_of_depth tree member reaches emitted)

/-! ## What is around emitted nodes -/

/-- What is around an emitted node is a context, and is emitted itself. -/
theorem emits_parent (tree : graph.Tree) {node parent : Node} (member : node ∈ graph.nodes)
    (parentMember : parent ∈ graph.nodes) (around : node.parent = some parent.id)
    (emitted : emits graph isVisible node = true) :
    emits graph isVisible parent = true ∧ parent.kind.isContext = true := by
  have below := tree.ne_root_of_parent member around
  have noUnit : (node.kind.target == Target.translationUnit) = false := by
    rw [beq_eq_false_iff_ne]
    intro isUnit
    exact below (tree.id_eq_root member isUnit)
  unfold emits at emitted
  rw [noUnit, Bool.false_or, Bool.and_eq_true, tree.ancestors_of_parent member parentMember around]
    at emitted
  obtain ⟨isOpen, inScope⟩ := emitted
  have deepEnough := emitsInScope_of_below tree member below inScope
  have isSucc : graph.size = graph.size - 1 + 1 := (Nat.sub_add_cancel tree.nonempty).symm
  unfold scopeOpen at isOpen
  unfold emits
  rw [isSucc]
  unfold emitsInScope
  cases kind : parent.kind with
  | translationUnit => exact ⟨rfl, rfl⟩
  | «namespace» isInline =>
      simp only [kind] at isOpen
      refine ⟨?_, rfl⟩
      rw [Bool.or_eq_true, Bool.and_eq_true, Bool.or_eq_true, List.any_eq_true]
      refine .inr ⟨isOpen, .inl ⟨node, ?_, deepEnough⟩⟩
      exact (tree.mem_childrenOf parentMember).mpr ⟨member, around⟩
  | «class» bases template =>
      simp only [kind, Bool.and_eq_true] at isOpen
      refine ⟨?_, rfl⟩
      rw [Bool.or_eq_true, Bool.and_eq_true]
      exact .inr isOpen
  | enum isScoped =>
      simp only [kind, Bool.and_eq_true] at isOpen
      refine ⟨?_, rfl⟩
      rw [Bool.or_eq_true, Bool.and_eq_true]
      exact .inr isOpen
  | _ =>
      simp only [kind] at isOpen
      cases isOpen

namespace Decided

variable {visibility : Visibility} (isDecided : Decided graph visibility)

include isDecided

theorem emitted_nodup (wired : graph.Wired) : visibility.emitted.Nodup := by
  obtain ⟨isVisible, emitted⟩ := isDecided
  rw [emitted]
  exact wired.ids_nodup.sublist (List.filter_sublist.map _)

theorem exists_node {id : Nat} (wired : graph.Wired) (member : id ∈ visibility.emitted) :
    ∃ node ∈ graph.nodes, node.id = id ∧ graph.node? id = some node := by
  obtain ⟨isVisible, emitted⟩ := isDecided
  rw [emitted, List.mem_map] at member
  obtain ⟨node, listed, rfl⟩ := member
  have nodeMember := List.mem_of_mem_filter listed
  exact ⟨node, nodeMember, rfl, wired.node?_id nodeMember⟩

theorem isEmitted_parent (tree : graph.Tree) {node parent : Node}
    (member : node ∈ graph.nodes) (parentMember : parent ∈ graph.nodes)
    (around : node.parent = some parent.id) (isEmitted : visibility.isEmitted node.id = true) :
    visibility.isEmitted parent.id = true ∧ parent.kind.isContext = true := by
  obtain ⟨isVisible, emitted⟩ := isDecided
  rw [isEmitted_iff_emits tree.toWired emitted parentMember]
  rw [isEmitted_iff_emits tree.toWired emitted member] at isEmitted
  exact emits_parent tree member parentMember around isEmitted

/-- All nodes around an emitted one are emitted. -/
theorem isEmitted_of_mem_ancestors (tree : graph.Tree) :
    ∀ node ∈ graph.nodes, visibility.isEmitted node.id = true →
      ∀ above ∈ graph.ancestors node,
        above ∈ graph.nodes ∧ visibility.isEmitted above.id = true := by
  refine tree.induction ?_ ?_
  · intro node member isRoot _ above listed
    rw [tree.ancestors_root member isRoot] at listed
    cases listed
  · intro node member parent parentMember around inductionHypothesis isEmitted above listed
    have parentEmitted := (isDecided.isEmitted_parent tree member parentMember around isEmitted).1
    rw [tree.ancestors_of_parent member parentMember around] at listed
    rcases List.mem_cons.mp listed with rfl | further
    · exact ⟨parentMember, parentEmitted⟩
    · exact inductionHypothesis parentEmitted above further

/-- Where anything is emitted, the root is. -/
theorem isEmitted_root (tree : graph.Tree) :
    ∀ node ∈ graph.nodes, visibility.isEmitted node.id = true →
      visibility.isEmitted Graph.root = true := by
  refine tree.induction ?_ ?_
  · intro node _ isRoot isEmitted
    rw [isRoot] at isEmitted
    exact isEmitted
  · intro node member parent parentMember around inductionHypothesis isEmitted
    exact inductionHypothesis
      (isDecided.isEmitted_parent tree member parentMember around isEmitted).1

end Decided

/-- No node is emitted twice, and something is decided of each that is emitted. -/
structure WellFormed (visibility : Visibility) : Prop where
  distinct : visibility.emitted.Nodup
  decides : ∀ id ∈ visibility.emitted, (visibility.decision? id).isSome = true

theorem ofGraph_wellFormed (wired : graph.Wired) (configuration : Configuration) :
    WellFormed (ofGraph graph configuration) := by
  have isDecided := ofGraph_decided graph configuration
  refine ⟨isDecided.emitted_nodup wired, fun id isEmitted => ?_⟩
  obtain ⟨node, _, _, found⟩ := isDecided.exists_node wired isEmitted
  rw [decision?_ofGraph, found]
  rfl

end Registrar.Visibility
