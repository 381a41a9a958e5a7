import Mathlib
import Registrar.Proofs.Graph.Tree

/-!
Contract: the walk through a tree from the root down.

Owns: that the walk meets every node once, and after its parent.

Does not own: which graphs are trees.
-/

set_option autoImplicit false

namespace Registrar.Graph.Tree

open ParentLinks

variable {graph : Graph} (tree : graph.Tree)

/-- The walk from a node goes on from its children. -/
theorem preOrderWithin_succ (depth : Nat) (node : Node) :
    graph.preOrderWithin (depth + 1) node =
      node :: (graph.childrenOf node).flatMap (graph.preOrderWithin depth) := rfl

include tree

theorem climb_one {node child : Node} (member : node ∈ graph.nodes)
    (listed : child ∈ graph.childrenOf node) :
    climb graph.parentLink 1 child.id = some node.id := by
  obtain ⟨childMember, around⟩ := (tree.mem_childrenOf member).mp listed
  rw [tree.climb_parent childMember (tree.ne_root_of_parent childMember around) around]
  rfl

/-- No steps lead from a node back to it. -/
theorem climb_ne_self {node : Node} (member : node ∈ graph.nodes) (steps : Nat) :
    climb graph.parentLink (steps + 1) node.id ≠ some node.id := by
  intro returns
  obtain ⟨depth, _, reaches⟩ := tree.exists_climb_root member
  have again : climb graph.parentLink (steps + 1 + depth) node.id = some root := by
    rw [climb_add, returns, Option.bind_some, reaches]
  have same := climb_root_unique reaches again
  omega

/-- Ways up from one node to two children of another are of one length, so the
children are the same. -/
theorem child_unique {node left right : Node} (member : node ∈ graph.nodes)
    (leftListed : left ∈ graph.childrenOf node) (rightListed : right ∈ graph.childrenOf node)
    {start leftSteps rightSteps : Nat}
    (leftReached : climb graph.parentLink leftSteps start = some left.id)
    (rightReached : climb graph.parentLink rightSteps start = some right.id) : left = right := by
  obtain ⟨depth, _, reaches⟩ := tree.exists_climb_root member
  have toRoot {child : Node} (listed : child ∈ graph.childrenOf node) {steps : Nat}
      (reached : climb graph.parentLink steps start = some child.id) :
      climb graph.parentLink (steps + (1 + depth)) start = some root := by
    rw [climb_add, reached, Option.bind_some, climb_add, tree.climb_one member listed,
      Option.bind_some, reaches]
  have sameLength := climb_root_unique (toRoot leftListed leftReached)
    (toRoot rightListed rightReached)
  have sameSteps : leftSteps = rightSteps := by omega
  rw [sameSteps, rightReached, Option.some.injEq] at leftReached
  exact tree.eq_of_id_eq (mem_nodes_of_childrenOf leftListed) (mem_nodes_of_childrenOf rightListed)
    leftReached.symm

/-- The last of the steps that lead up to a node is one from a child of it. -/
theorem exists_child_of_climb {node : Node} (member : node ∈ graph.nodes) {start steps : Nat}
    (reaches : climb graph.parentLink (steps + 1) start = some node.id) :
    ∃ child ∈ graph.childrenOf node, climb graph.parentLink steps start = some child.id := by
  rw [climb_add, Option.bind_eq_some_iff] at reaches
  obtain ⟨id, reached, lastStep⟩ := reaches
  rw [climb, Option.bind_eq_some_iff] at lastStep
  obtain ⟨parent, step, isNode⟩ := lastStep
  rw [climb, Option.some.injEq] at isNode
  rw [above] at step
  split at step
  · cases step
  · obtain ⟨child, isChild, around⟩ := exists_node_of_parentLink step
    rw [isNode] at around
    rw [← tree.id_eq isChild] at reached
    exact ⟨child, (tree.mem_childrenOf member).mpr ⟨mem_nodes_of_node? isChild, around⟩, reached⟩

/-- The walk from a node down to a depth meets what less steps upwards lead to the
node from. -/
theorem mem_preOrderWithin {depth : Nat} {node below : Node} (member : node ∈ graph.nodes) :
    below ∈ graph.preOrderWithin depth node ↔ below ∈ graph.nodes ∧
      ∃ steps, steps < depth ∧ climb graph.parentLink steps below.id = some node.id := by
  induction depth generalizing node with
  | zero => simp [preOrderWithin]
  | succ depth inductionHypothesis =>
      rw [preOrderWithin_succ, List.mem_cons, List.mem_flatMap]
      constructor
      · rintro (rfl | ⟨child, listed, inside⟩)
        · exact ⟨member, 0, Nat.succ_pos depth, rfl⟩
        · obtain ⟨belowMember, steps, within, reaches⟩ :=
            (inductionHypothesis (mem_nodes_of_childrenOf listed)).mp inside
          refine ⟨belowMember, steps + 1, by omega, ?_⟩
          rw [climb_add, reaches, Option.bind_some, tree.climb_one member listed]
      · rintro ⟨belowMember, steps, within, reaches⟩
        cases steps with
        | zero =>
            rw [climb, Option.some.injEq] at reaches
            exact .inl (tree.eq_of_id_eq belowMember member reaches)
        | succ steps =>
            obtain ⟨child, listed, reached⟩ := tree.exists_child_of_climb member reaches
            exact .inr ⟨child, listed, (inductionHypothesis (mem_nodes_of_childrenOf listed)).mpr
              ⟨belowMember, steps, by omega, reached⟩⟩

/-- What the walks from two children of a node meet is apart. -/
theorem preOrderWithin_disjoint {depth : Nat} {node left right : Node}
    (member : node ∈ graph.nodes) (leftListed : left ∈ graph.childrenOf node)
    (rightListed : right ∈ graph.childrenOf node) (different : left ≠ right) {below : Node}
    (inLeft : below ∈ graph.preOrderWithin depth left) {steps : Nat} :
    climb graph.parentLink steps below.id ≠ some right.id := by
  intro reachesRight
  obtain ⟨_, _, _, reachesLeft⟩ :=
    (tree.mem_preOrderWithin (mem_nodes_of_childrenOf leftListed)).mp inLeft
  exact different (tree.child_unique member leftListed rightListed reachesLeft reachesRight)

theorem preOrderWithin_nodup (depth : Nat) {node : Node} (member : node ∈ graph.nodes) :
    (graph.preOrderWithin depth node).Nodup := by
  induction depth generalizing node with
  | zero => exact List.nodup_nil
  | succ depth inductionHypothesis =>
      rw [preOrderWithin_succ, List.nodup_cons, List.nodup_flatMap]
      refine ⟨?_, fun child listed => inductionHypothesis (mem_nodes_of_childrenOf listed), ?_⟩
      · intro inside
        obtain ⟨child, listed, again⟩ := List.mem_flatMap.mp inside
        obtain ⟨_, steps, _, reaches⟩ :=
          (tree.mem_preOrderWithin (mem_nodes_of_childrenOf listed)).mp again
        refine tree.climb_ne_self member steps ?_
        rw [climb_add, reaches, Option.bind_some, tree.climb_one member listed]
      · refine List.Pairwise.imp_of_mem ?_ (tree.childrenOf_nodup member)
        intro left right leftListed rightListed different below inLeft inRight
        obtain ⟨_, _, _, reaches⟩ :=
          (tree.mem_preOrderWithin (mem_nodes_of_childrenOf rightListed)).mp inRight
        exact tree.preOrderWithin_disjoint member leftListed rightListed different inLeft reaches

/-- The walk from a node meets nothing before its parent. -/
theorem preOrderWithin_parents (depth : Nat) {node : Node} (member : node ∈ graph.nodes) :
    (graph.preOrderWithin depth node).Pairwise fun earlier later =>
      earlier.parent ≠ some later.id := by
  induction depth generalizing node with
  | zero => exact List.Pairwise.nil
  | succ depth inductionHypothesis =>
      rw [preOrderWithin_succ, List.pairwise_cons, List.pairwise_flatMap]
      refine ⟨?_, fun child listed => inductionHypothesis (mem_nodes_of_childrenOf listed), ?_⟩
      · intro below inside around
        obtain ⟨child, listed, belowChild⟩ := List.mem_flatMap.mp inside
        obtain ⟨_, steps, _, reaches⟩ :=
          (tree.mem_preOrderWithin (mem_nodes_of_childrenOf listed)).mp belowChild
        refine tree.climb_ne_self member (steps + 1) ?_
        rw [tree.climb_parent member (tree.ne_root_of_parent member around) around, climb_add,
          reaches, Option.bind_some, tree.climb_one member listed]
      · refine List.Pairwise.imp_of_mem ?_ (tree.childrenOf_nodup member)
        intro left right leftListed rightListed different earlier inLeft later inRight around
        have earlierMember :=
          ((tree.mem_preOrderWithin (mem_nodes_of_childrenOf leftListed)).mp inLeft).1
        obtain ⟨_, steps, _, reaches⟩ :=
          (tree.mem_preOrderWithin (mem_nodes_of_childrenOf rightListed)).mp inRight
        have earlierReaches : climb graph.parentLink (steps + 1) earlier.id = some right.id := by
          rw [tree.climb_parent earlierMember (tree.ne_root_of_parent earlierMember around) around,
            reaches]
        exact tree.preOrderWithin_disjoint member leftListed rightListed different inLeft
          earlierReaches

/-! ## The walk from the root -/

omit tree in
theorem preOrder_eq {top : Node} (isTop : graph.node? root = some top) :
    graph.preOrder = graph.preOrderWithin graph.size top := by
  simp [preOrder, nodesOf, isTop]

/-- The walk from the root meets every node once. -/
theorem preOrder_perm : graph.preOrder.Perm graph.nodes := by
  obtain ⟨top, isTop⟩ : ∃ top, graph.node? root = some top := node?_of_lt tree.nonempty
  have topMember := mem_nodes_of_node? isTop
  rw [preOrder_eq isTop, List.perm_ext_iff_of_nodup
    (tree.preOrderWithin_nodup graph.size topMember) tree.ids_nodup.of_map]
  intro node
  rw [tree.mem_preOrderWithin topMember, tree.id_eq isTop]
  exact ⟨fun inside => inside.1, fun member => ⟨member, tree.exists_climb_root member⟩⟩

/-- The walk from the root meets every node after its parent. -/
theorem parent_mem_before {before after : List Node} {node : Node}
    (split : graph.preOrder = before ++ node :: after) (below : node.id ≠ root) :
    ∃ parent ∈ before, node.parent = some parent.id := by
  obtain ⟨top, isTop⟩ : ∃ top, graph.node? root = some top := node?_of_lt tree.nonempty
  have inNodes {other : Node} : other ∈ before ++ node :: after ↔ other ∈ graph.nodes := by
    rw [← split, tree.preOrder_perm.mem_iff]
  have member : node ∈ graph.nodes := inNodes.mp (by simp)
  obtain ⟨parent, parentMember, around⟩ := tree.exists_parent member below
  refine ⟨parent, ?_, around⟩
  have noneBefore := tree.preOrderWithin_parents graph.size (mem_nodes_of_node? isTop)
  rw [← preOrder_eq isTop, split, List.pairwise_append, List.pairwise_cons] at noneBefore
  obtain ⟨_, ⟨notAfter, _⟩, _⟩ := noneBefore
  rcases List.mem_append.mp (inNodes.mpr parentMember) with isBefore | notBefore
  · exact isBefore
  · rcases List.mem_cons.mp notBefore with isSelf | isAfter
    · rw [isSelf] at around
      refine absurd ?_ (tree.climb_ne_self member 0)
      rw [tree.climb_parent member below around]
      rfl
    · exact absurd around (notAfter parent isAfter)

end Registrar.Graph.Tree
