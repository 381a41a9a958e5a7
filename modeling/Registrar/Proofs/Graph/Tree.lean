import Mathlib
import Registrar.Proofs.Graph.Wiring

/-!
Contract: graphs in which nothing is above the root.

Owns: the levels below the root, that nothing is above the root where going down
comes to an end, and the way up from a node, which begins with its parent and
goes on as that of its parent does.

Does not own: how the nodes of a unit hang together.
-/

set_option autoImplicit false

namespace Registrar

theorem DeclarationKind.isContext_iff {kind : DeclarationKind} :
    kind.isContext = true ↔ kind.target = .translationUnit ∨ kind.target = .namespace ∨
      kind.target = .class ∨ kind.target = .enum := by
  cases kind <;> simp [isContext, target]

/-- Where each value is made of one node only, distinct nodes make distinct
values. -/
theorem Node.nodup_filterMap {α : Type} {nodes : List Node} {make : Node → Option α}
    (distinct : (nodes.map fun node => node.id).Nodup)
    (madeOnce : ∀ left right value, make left = some value → make right = some value →
      left.id = right.id) : (nodes.filterMap make).Nodup := by
  have apart : nodes.Pairwise fun left right => left.id ≠ right.id := List.pairwise_map.mp distinct
  refine apart.filterMap make ?_
  rintro left right different value isLeft other isRight rfl
  exact different (madeOnce left right value isLeft isRight)

namespace Graph

open ParentLinks

/-- The nodes so many steps below the root. -/
def level (graph : Graph) : Nat → List Node
  | 0 => graph.nodesOf [root]
  | depth + 1 => (graph.level depth).flatMap graph.childrenOf

/-- Going down from the root comes to an end. What is visible is decided by going
down so, which does not end where the root is below a node, and only there. -/
def WalkEnds (graph : Graph) : Prop := ∃ depth, graph.level depth = []

/-- A wired graph with nothing above the root. -/
structure Tree (graph : Graph) : Prop extends graph.Wired where
  root_parent : ∀ {node : Node}, graph.node? root = some node → node.parent = none

variable {graph : Graph}

theorem mem_nodesOf {ids : List Nat} {node : Node} :
    node ∈ graph.nodesOf ids ↔ ∃ id ∈ ids, graph.node? id = some node :=
  List.mem_filterMap

theorem mem_nodes_of_childrenOf {node child : Node} (listed : child ∈ graph.childrenOf node) :
    child ∈ graph.nodes := by
  obtain ⟨id, _, found⟩ := mem_nodesOf.mp listed
  exact mem_nodes_of_node? found

theorem map_id_nodesOf_of_numbered
    (numbered : ∀ (index : Nat) (node : Node), graph.node? index = some node → node.id = index)
    {ids : List Nat} (inside : ∀ id ∈ ids, id < graph.size) :
    (graph.nodesOf ids).map (fun node => node.id) = ids := by
  induction ids with
  | nil => rfl
  | cons first rest inductionHypothesis =>
      obtain ⟨node, found⟩ := node?_of_lt (inside first List.mem_cons_self)
      have others := inductionHypothesis fun id member =>
        inside id (List.mem_cons_of_mem first member)
      unfold nodesOf at others ⊢
      rw [List.filterMap_cons, found, List.map_cons, numbered first node found, others]

namespace Wired

variable (wired : graph.Wired)

include wired

theorem node?_id {node : Node} (member : node ∈ graph.nodes) :
    graph.node? node.id = some node :=
  getElem?_of_numbered (fun _ _ => wired.id_eq) member

theorem eq_of_id_eq {left right : Node} (leftMember : left ∈ graph.nodes)
    (rightMember : right ∈ graph.nodes) (same : left.id = right.id) : left = right := by
  have found := wired.node?_id leftMember
  rw [same, wired.node?_id rightMember] at found
  exact (Option.some.inj found).symm

theorem map_id_nodes : graph.nodes.map (fun node => node.id) = List.range graph.size := by
  apply List.ext_getElem?
  intro index
  rw [List.getElem?_map]
  cases found : graph.nodes[index]? with
  | none =>
      have outside : graph.size ≤ index := List.getElem?_eq_none_iff.mp found
      rw [Option.map_none, List.getElem?_eq_none (by rw [List.length_range]; exact outside)]
  | some node =>
      have inside : index < graph.size := node?_lt found
      rw [Option.map_some, List.getElem?_range inside, wired.id_eq found]

theorem ids_nodup : (graph.nodes.map fun node => node.id).Nodup := by
  rw [wired.map_id_nodes]
  exact List.nodup_range

theorem mem_childrenOf {node child : Node} (member : node ∈ graph.nodes) :
    child ∈ graph.childrenOf node ↔ child ∈ graph.nodes ∧ child.parent = some node.id := by
  unfold childrenOf
  rw [mem_nodesOf]
  constructor
  · rintro ⟨id, listed, found⟩
    obtain ⟨other, isOther, below⟩ := (wired.mem_children member).mp listed
    rw [found, Option.some.injEq] at isOther
    subst other
    exact ⟨mem_nodes_of_node? found, below⟩
  · rintro ⟨isNode, below⟩
    have found := wired.node?_id isNode
    exact ⟨child.id, (wired.mem_children member).mpr ⟨child, found, below⟩, found⟩

theorem map_id_nodesOf {ids : List Nat} (inside : ∀ id ∈ ids, id < graph.size) :
    (graph.nodesOf ids).map (fun node => node.id) = ids :=
  map_id_nodesOf_of_numbered (fun _ _ => wired.id_eq) inside

theorem map_id_nodesOf_sublist (ids : List Nat) :
    ((graph.nodesOf ids).map fun node => node.id).Sublist ids := by
  induction ids with
  | nil => exact .slnil
  | cons first rest inductionHypothesis =>
      unfold nodesOf at inductionHypothesis ⊢
      rw [List.filterMap_cons]
      cases found : graph.node? first with
      | none => exact inductionHypothesis.cons first
      | some node =>
          rw [List.map_cons, wired.id_eq found]
          exact inductionHypothesis.cons_cons first

theorem map_id_childrenOf {node : Node} (member : node ∈ graph.nodes) :
    (graph.childrenOf node).map (fun child => child.id) = node.children := by
  apply wired.map_id_nodesOf
  intro id listed
  obtain ⟨_, found, _⟩ := (wired.mem_children member).mp listed
  exact node?_lt found

theorem childrenOf_nodup {node : Node} (member : node ∈ graph.nodes) :
    (graph.childrenOf node).Nodup := by
  refine List.Nodup.of_map (fun child : Node => child.id) ?_
  rw [wired.map_id_childrenOf member]
  exact wired.children_nodup member

/-- No node is in two lists of children. -/
theorem children_disjoint : (graph.nodes.flatMap Node.children).Nodup := by
  rw [List.nodup_flatMap]
  refine ⟨fun node member => wired.children_nodup member, ?_⟩
  have apart : graph.nodes.Pairwise fun left right => left.id ≠ right.id :=
    List.pairwise_map.mp wired.ids_nodup
  refine apart.imp_of_mem ?_
  intro left right leftMember rightMember different child inLeft inRight
  obtain ⟨found, isFound, belowLeft⟩ := (wired.mem_children leftMember).mp inLeft
  obtain ⟨other, isOther, belowRight⟩ := (wired.mem_children rightMember).mp inRight
  rw [isFound, Option.some.injEq] at isOther
  rw [isOther, belowRight, Option.some.injEq] at belowLeft
  exact different belowLeft.symm

/-! ## Depth -/

theorem parentLink_lt (id parent : Nat) (link : graph.parentLink id = some parent) :
    parent < graph.size := by
  obtain ⟨node, found, around⟩ := exists_node_of_parentLink link
  exact wired.parent_lt (mem_nodes_of_node? found) around

theorem exists_climb_root {node : Node} (member : node ∈ graph.nodes) :
    ∃ steps, steps < graph.size ∧ climb graph.parentLink steps node.id = some root := by
  have inside : node.id < graph.size := node?_lt (wired.node?_id member)
  refine ParentLinks.exists_climb_root wired.parentLink_lt ?_ inside (wired.noCircle inside)
  intro id isInside below
  obtain ⟨other, found⟩ := node?_of_lt isInside
  rw [parentLink_of_node? found]
  refine wired.parent_isSome (mem_nodes_of_node? found) ?_
  rw [wired.id_eq found]
  exact below

theorem lt_size_of_climb {node : Node} {steps : Nat} (member : node ∈ graph.nodes)
    (reaches : climb graph.parentLink steps node.id = some root) : steps < graph.size := by
  have inside : node.id < graph.size := node?_lt (wired.node?_id member)
  have ends :=
    (circleAbove_eq_nil_iff wired.parentLink_lt inside).mp (wired.noCircle inside)
  by_contra atLeast
  have long : (climb graph.parentLink graph.size node.id).isSome :=
    climb_isSome_of_le (Nat.le_of_not_lt atLeast) (by rw [reaches]; rfl)
  rw [ends] at long
  cases long

/-- The parent of a node other than the root is one step nearer to the root. -/
theorem climb_parent {node parent : Node} {steps : Nat} (member : node ∈ graph.nodes)
    (below : node.id ≠ root) (around : node.parent = some parent.id) :
    climb graph.parentLink (steps + 1) node.id = climb graph.parentLink steps parent.id := by
  apply climb_succ_of_parent below
  rw [parentLink_of_node? (wired.node?_id member), around]

theorem exists_parent {node : Node} (member : node ∈ graph.nodes) (below : node.id ≠ root) :
    ∃ parent ∈ graph.nodes, node.parent = some parent.id := by
  obtain ⟨id, around⟩ := Option.isSome_iff_exists.mp (wired.parent_isSome member below)
  obtain ⟨parent, found⟩ := node?_of_lt (wired.parent_lt member around)
  refine ⟨parent, mem_nodes_of_node? found, ?_⟩
  rw [wired.id_eq found]
  exact around

theorem mem_level {steps : Nat} {node : Node} (member : node ∈ graph.nodes)
    (reaches : climb graph.parentLink steps node.id = some root) :
    node ∈ graph.level steps := by
  induction steps generalizing node with
  | zero =>
      rw [climb, Option.some.injEq] at reaches
      unfold level
      rw [mem_nodesOf]
      exact ⟨root, List.mem_singleton_self root, reaches ▸ wired.node?_id member⟩
  | succ steps inductionHypothesis =>
      by_cases isRoot : node.id = root
      · rw [isRoot] at reaches
        cases reaches
      · obtain ⟨parent, parentMember, around⟩ := wired.exists_parent member isRoot
        rw [wired.climb_parent member isRoot around] at reaches
        unfold level
        rw [List.mem_flatMap]
        exact ⟨parent, inductionHypothesis parentMember reaches,
          (wired.mem_childrenOf parentMember).mpr ⟨member, around⟩⟩

omit wired in
/-- Where the root is met again on the way down, what is below it is met again
too. -/
theorem level_subset_add {top : Node} (isTop : graph.node? root = some top) {again : Nat}
    (returns : top ∈ graph.level again) (depth : Nat) :
    graph.level depth ⊆ graph.level (again + depth) := by
  induction depth with
  | zero =>
      intro node member
      unfold level at member
      obtain ⟨id, listed, found⟩ := mem_nodesOf.mp member
      rw [List.mem_singleton.mp listed, isTop, Option.some.injEq] at found
      rw [Nat.add_zero, ← found]
      exact returns
  | succ depth inductionHypothesis =>
      intro node member
      unfold level at member
      rw [← Nat.add_assoc]
      unfold level
      rw [List.mem_flatMap] at member ⊢
      obtain ⟨parent, listed, below⟩ := member
      exact ⟨parent, inductionHypothesis listed, below⟩

omit wired in
theorem level_add_eq_nil {depth : Nat} (ends : graph.level depth = []) (more : Nat) :
    graph.level (depth + more) = [] := by
  induction more with
  | zero => exact ends
  | succ more inductionHypothesis =>
      rw [← Nat.add_assoc]
      unfold level
      rw [inductionHypothesis, List.flatMap_nil]

theorem tree_of_outermost (outermost : graph.parentLink root = none) : graph.Tree := by
  refine { wired with root_parent := ?_ }
  intro top isTop
  rw [← parentLink_of_node? isTop, outermost]

/-- Where going down from the root comes to an end, nothing is above the root. -/
theorem tree (ends : graph.WalkEnds) : graph.Tree := by
  refine { wired with root_parent := ?_ }
  intro top isTop
  have topMember := mem_nodes_of_node? isTop
  cases around : top.parent with
  | none => rfl
  | some id =>
      exfalso
      obtain ⟨parent, isParent⟩ := node?_of_lt (wired.parent_lt topMember around)
      have parentMember := mem_nodes_of_node? isParent
      obtain ⟨steps, _, reaches⟩ := wired.exists_climb_root parentMember
      have topBelow : top ∈ graph.childrenOf parent := by
        rw [wired.mem_childrenOf parentMember, wired.id_eq isParent]
        exact ⟨topMember, around⟩
      -- Each round from the root back to it goes at least one step further down.
      have deeper : ∀ depth, ∃ again, depth ≤ again ∧ top ∈ graph.level again := by
        intro depth
        induction depth with
        | zero =>
            refine ⟨0, Nat.le_refl 0, wired.mem_level topMember ?_⟩
            rw [wired.id_eq isTop]
            rfl
        | succ depth inductionHypothesis =>
            obtain ⟨again, atLeast, returns⟩ := inductionHypothesis
            refine ⟨again + steps + 1, by omega, ?_⟩
            unfold level
            rw [List.mem_flatMap]
            exact ⟨parent, level_subset_add isTop returns steps
              (wired.mem_level parentMember reaches), topBelow⟩
      obtain ⟨depth, isNil⟩ := ends
      obtain ⟨again, atLeast, returns⟩ := deeper depth
      obtain ⟨more, rfl⟩ := Nat.exists_eq_add_of_le atLeast
      rw [level_add_eq_nil isNil more] at returns
      cases returns

end Wired

/-! ## Ways up -/

namespace Tree

variable (tree : graph.Tree)

include tree

theorem parent_eq_none_iff {node : Node} (member : node ∈ graph.nodes) :
    node.parent = none ↔ node.id = root := by
  constructor
  · intro outermost
    by_contra below
    have inside := tree.parent_isSome member below
    rw [outermost] at inside
    cases inside
  · intro isRoot
    have found := tree.node?_id member
    rw [isRoot] at found
    exact tree.root_parent found

theorem ne_root_of_parent {node : Node} {parent : Nat} (member : node ∈ graph.nodes)
    (around : node.parent = some parent) : node.id ≠ root := by
  intro isRoot
  rw [(tree.parent_eq_none_iff member).mpr isRoot] at around
  cases around

/-- The root is the unit, or a class that was declared as the same. -/
theorem sort_of_root {node : Node} (member : node ∈ graph.nodes) (isRoot : node.id = root) :
    node.kind.target = .translationUnit ∨ node.kind.target = .class :=
  tree.outermost member ((tree.parent_eq_none_iff member).mpr isRoot)

theorem ne_root_of_sort {node : Node} (member : node ∈ graph.nodes)
    (notUnit : node.kind.target ≠ .translationUnit) (notClass : node.kind.target ≠ .class) :
    node.id ≠ root := by
  intro isRoot
  rcases tree.sort_of_root member isRoot with isUnit | isClass
  · exact notUnit isUnit
  · exact notClass isClass

/-- What holds of the root, and of each node if it does of its parent, holds of
all nodes. -/
theorem induction {motive : Node → Prop}
    (atRoot : ∀ node ∈ graph.nodes, node.id = root → motive node)
    (below : ∀ node ∈ graph.nodes, ∀ parent ∈ graph.nodes, node.parent = some parent.id →
      motive parent → motive node) :
    ∀ node ∈ graph.nodes, motive node := by
  intro node member
  obtain ⟨steps, _, reaches⟩ := tree.exists_climb_root member
  induction steps generalizing node with
  | zero =>
      rw [climb, Option.some.injEq] at reaches
      exact atRoot node member reaches
  | succ steps inductionHypothesis =>
      by_cases isRoot : node.id = root
      · exact atRoot node member isRoot
      · obtain ⟨parent, parentMember, around⟩ := tree.exists_parent member isRoot
        rw [tree.climb_parent member isRoot around] at reaches
        exact below node member parent parentMember around
          (inductionHypothesis parent parentMember (by omega) reaches)

/-- As many steps as a node is below the root are enough for its way up. -/
theorem ancestorsWithin_eq {depth : Nat} {node : Node} (member : node ∈ graph.nodes)
    (reaches : climb graph.parentLink depth node.id = some root) {steps : Nat}
    (enough : depth ≤ steps) :
    graph.ancestorsWithin steps node = graph.ancestorsWithin depth node := by
  induction depth generalizing node steps with
  | zero =>
      rw [climb, Option.some.injEq] at reaches
      have outermost := (tree.parent_eq_none_iff member).mpr reaches
      cases steps with
      | zero => rfl
      | succ steps =>
          unfold ancestorsWithin
          rw [outermost, Option.bind_none]
  | succ depth inductionHypothesis =>
      by_cases isRoot : node.id = root
      · rw [isRoot] at reaches
        cases reaches
      · obtain ⟨parent, parentMember, around⟩ := tree.exists_parent member isRoot
        rw [tree.climb_parent member isRoot around] at reaches
        obtain ⟨others, rfl⟩ : ∃ others, steps = others + 1 := ⟨steps - 1, by omega⟩
        unfold ancestorsWithin
        rw [around, Option.bind_some, tree.node?_id parentMember]
        simp only [List.cons.injEq, true_and]
        exact inductionHypothesis parentMember reaches (by omega)

theorem ancestors_root {node : Node} (member : node ∈ graph.nodes) (isRoot : node.id = root) :
    graph.ancestors node = [] := by
  have outermost := (tree.parent_eq_none_iff member).mpr isRoot
  unfold ancestors
  cases graph.size with
  | zero => rfl
  | succ others =>
      unfold ancestorsWithin
      rw [outermost, Option.bind_none]

/-- The way up from a node begins with its parent and goes on as that of its
parent does. -/
theorem ancestors_of_parent {node parent : Node} (member : node ∈ graph.nodes)
    (parentMember : parent ∈ graph.nodes) (around : node.parent = some parent.id) :
    graph.ancestors node = parent :: graph.ancestors parent := by
  have below := tree.ne_root_of_parent member around
  obtain ⟨steps, inside, reaches⟩ := tree.exists_climb_root member
  obtain ⟨depth, rfl⟩ : ∃ depth, steps = depth + 1 := by
    refine Nat.exists_eq_succ_of_ne_zero fun isZero => below ?_
    rw [isZero, climb, Option.some.injEq] at reaches
    exact reaches
  have parentReaches := reaches
  rw [tree.climb_parent member below around] at parentReaches
  unfold ancestors
  rw [tree.ancestorsWithin_eq member reaches (by omega),
    tree.ancestorsWithin_eq parentMember parentReaches (by omega)]
  rw [ancestorsWithin, around, Option.bind_some, tree.node?_id parentMember]

/-! ### Levels -/

theorem climb_of_mem_level {steps : Nat} {node : Node} (listed : node ∈ graph.level steps) :
    node ∈ graph.nodes ∧ climb graph.parentLink steps node.id = some root := by
  induction steps generalizing node with
  | zero =>
      unfold level at listed
      obtain ⟨id, isRoot, found⟩ := mem_nodesOf.mp listed
      rw [List.mem_singleton.mp isRoot] at found
      rw [tree.id_eq found]
      exact ⟨mem_nodes_of_node? found, rfl⟩
  | succ steps inductionHypothesis =>
      unfold level at listed
      obtain ⟨parent, parentListed, isChild⟩ := List.mem_flatMap.mp listed
      obtain ⟨parentMember, parentReaches⟩ := inductionHypothesis parentListed
      obtain ⟨member, around⟩ := (tree.mem_childrenOf parentMember).mp isChild
      have below := tree.ne_root_of_parent member around
      refine ⟨member, ?_⟩
      rw [tree.climb_parent member below around]
      exact parentReaches

theorem walkEnds : graph.WalkEnds := by
  refine ⟨graph.size, List.eq_nil_iff_forall_not_mem.mpr ?_⟩
  intro node listed
  obtain ⟨member, reaches⟩ := tree.climb_of_mem_level listed
  exact absurd (tree.lt_size_of_climb member reaches) (Nat.lt_irrefl _)

end Tree

/-- Going down ends exactly where the root has not been put below a node. -/
theorem Wired.walkEnds_iff (wired : graph.Wired) {top : Node}
    (isTop : graph.node? root = some top) :
    graph.WalkEnds ↔ top.parent = none := by
  constructor
  · intro ends
    exact (wired.tree ends).root_parent isTop
  · intro outermost
    exact (wired.tree_of_outermost (by rw [parentLink_of_node? isTop, outermost])).walkEnds

end Graph

end Registrar
