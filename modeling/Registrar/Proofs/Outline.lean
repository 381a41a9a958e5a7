import Mathlib
import Registrar.Outline
import Registrar.Proofs.Graph.PreOrder
import Registrar.Proofs.Plan

/-!
Contract: what the two outlines of a graph show.

Owns: that each outline is the walk down the tree with a line for every node it shows, and that
leaving out what is below a node without a line leaves out nothing else.

Does not own: which nodes are emitted.

The outline of the emitted nodes turns back at the first node that is not emitted. It shows all
that are because what is around an emitted node is emitted.
-/

set_option autoImplicit false

namespace Registrar.Outline

/-- Whether the node has a line of its own, wherever it stands. -/
def shows (visibility : Visibility) : Stage → Node → Bool
  | .visibility, _ => true
  | .pruned, node => visibility.isEmitted node.id

/-- The line of a node where it stands in the graph. -/
def lineIn (graph : Graph) (visibility : Visibility) (node : Node) : String :=
  lineOf visibility (graph.ancestors node).length node

/-- The blanks in front of a line, two for each node around that of the line. -/
def indentation (graph : Graph) (node : Node) : String :=
  String.ofList (List.replicate (2 * (graph.ancestors node).length) ' ')

/-- The outline of the emitted nodes has the lines that the outline of all nodes has for them. -/
structure PrunesExactly (graph : Graph) (visibility : Visibility) : Prop where
  /-- All nodes have a line each, parents before children. -/
  all : lines graph visibility .visibility = graph.preOrder.map (lineIn graph visibility)
  /-- The emitted nodes have the same lines in the same order. -/
  emitted : lines graph visibility .pruned =
    (graph.preOrder.filter fun node => visibility.isEmitted node.id).map (lineIn graph visibility)
  /-- A line begins with two blanks for each node around its own, and what follows does not depend
  on where the node stands. -/
  indented : ∀ node ∈ graph.nodes,
    lineIn graph visibility node = indentation graph node ++ lineOf visibility 0 node ∧
      (lineOf visibility 0 node).toList.head? ≠ some ' '
  /-- The walk meets every node once. -/
  once : graph.preOrder.Perm graph.nodes ∧ graph.preOrder.Nodup
  /-- Each emitted node is among those with a line once, and nothing else is. -/
  emittedOnce : (graph.preOrder.filter fun node => visibility.isEmitted node.id).Nodup ∧
    ∀ node, (node ∈ graph.preOrder.filter fun node => visibility.isEmitted node.id) ↔
      node ∈ graph.nodes ∧ visibility.isEmitted node.id = true

variable {graph : Graph} {visibility : Visibility}

/-! ## Lines -/

theorem lineOf_eq (depth : Nat) (node : Node) :
    lineOf visibility depth node =
      String.ofList (List.replicate (2 * depth) ' ') ++ lineOf visibility 0 node := by
  simp [lineOf, String.append_assoc]

theorem head?_name (target : Target) : target.name.toList.head?.any (· != ' ') = true := by
  cases target <;> decide

/-- Without indentation a line begins with the kind of its node. -/
theorem head?_lineOf (node : Node) : (lineOf visibility 0 node).toList.head? ≠ some ' ' := by
  obtain ⟨first, isFirst, notBlank⟩ := (Option.any_eq_true _ _).mp (head?_name node.kind.target)
  rw [bne_iff_ne] at notBlank
  simp [lineOf, DeclarationKind.name, String.toList_append, List.head?_append, isFirst, notBlank]

/-! ## Subtrees -/

theorem linesFrom_succ (stage : Stage) (depth levels : Nat) (node : Node) :
    linesFrom graph visibility stage depth (levels + 1) node =
      if shows visibility stage node then
        lineOf visibility depth node ::
          (graph.childrenOf node).flatMap (linesFrom graph visibility stage (depth + 1) levels)
      else [] := by
  cases stage with
  | visibility => rfl
  | pruned => cases isEmitted : visibility.isEmitted node.id <;> simp [linesFrom, shows, isEmitted]

section Closed

variable (tree : graph.Tree) {stage : Stage}
  (closed : ∀ node ∈ graph.nodes, ∀ parent ∈ graph.nodes, node.parent = some parent.id →
    shows visibility stage node = true → shows visibility stage parent = true)

include tree closed

/-- Below a node without a line no node has one. -/
theorem filter_preOrderWithin_eq_nil (levels : Nat) {node : Node} (member : node ∈ graph.nodes)
    (notShown : shows visibility stage node = false) :
    (graph.preOrderWithin levels node).filter (shows visibility stage) = [] := by
  induction levels generalizing node with
  | zero => rfl
  | succ levels inductionHypothesis =>
      rw [Graph.Tree.preOrderWithin_succ, List.filter_cons_of_neg (by simp [notShown]),
        List.filter_flatMap, List.flatMap_eq_nil_iff]
      intro child listed
      obtain ⟨childMember, around⟩ := (tree.mem_childrenOf member).mp listed
      refine inductionHypothesis childMember ?_
      rw [← Bool.not_eq_true] at notShown ⊢
      exact fun isShown => notShown (closed child childMember node member around isShown)

/-- The lines from a node on are those of the nodes that the walk from it meets, of which some
have none. -/
theorem linesFrom_eq (levels : Nat) {node : Node} (member : node ∈ graph.nodes) :
    linesFrom graph visibility stage (graph.ancestors node).length levels node =
      ((graph.preOrderWithin levels node).filter (shows visibility stage)).map
        (lineIn graph visibility) := by
  induction levels generalizing node with
  | zero => rfl
  | succ levels inductionHypothesis =>
      rw [linesFrom_succ]
      cases isShown : shows visibility stage node with
      | false =>
          rw [filter_preOrderWithin_eq_nil tree closed (levels + 1) member isShown]
          rfl
      | true =>
          rw [if_pos rfl, Graph.Tree.preOrderWithin_succ, List.filter_cons_of_pos isShown,
            List.map_cons, List.filter_flatMap, List.map_flatMap]
          refine congrArg₂ List.cons rfl (List.flatMap_congr fun child listed => ?_)
          obtain ⟨childMember, around⟩ := (tree.mem_childrenOf member).mp listed
          have deeper : (graph.ancestors node).length + 1 = (graph.ancestors child).length := by
            rw [tree.ancestors_of_parent childMember member around, List.length_cons]
          rw [deeper, inductionHypothesis childMember]

theorem lines_eq :
    lines graph visibility stage =
      (graph.preOrder.filter (shows visibility stage)).map (lineIn graph visibility) := by
  obtain ⟨top, isTop⟩ : ∃ top, graph.node? Graph.root = some top := Graph.node?_of_lt tree.nonempty
  have topMember := Graph.mem_nodes_of_node? isTop
  have fromTop := linesFrom_eq tree closed graph.size topMember
  rw [tree.ancestors_root topMember (tree.id_eq isTop), List.length_nil] at fromTop
  rw [Graph.Tree.preOrder_eq isTop, ← fromTop]
  simp [lines, Graph.nodesOf, isTop]

end Closed

/-! ## The whole graph -/

theorem preOrder_nodup (tree : graph.Tree) : graph.preOrder.Nodup :=
  tree.preOrder_perm.nodup_iff.mpr tree.ids_nodup.of_map

theorem prunesExactly_of_decided (tree : graph.Tree) (isDecided : visibility.Decided graph) :
    PrunesExactly graph visibility where
  all := by
    have allShown : ∀ node ∈ graph.preOrder, shows visibility .visibility node = true :=
      fun _ _ => rfl
    have areLines := @lines_eq graph visibility tree .visibility fun _ _ _ _ _ _ => rfl
    rwa [List.filter_eq_self.mpr allShown] at areLines
  emitted := by
    refine @lines_eq graph visibility tree .pruned ?_
    intro node member parent parentMember around isEmitted
    exact (isDecided.isEmitted_parent tree member parentMember around isEmitted).1
  indented := fun node _ => ⟨lineOf_eq _ node, head?_lineOf node⟩
  once := ⟨tree.preOrder_perm, preOrder_nodup tree⟩
  emittedOnce := by
    refine ⟨(preOrder_nodup tree).filter _, fun node => ?_⟩
    rw [List.mem_filter, tree.preOrder_perm.mem_iff]

/-- The outline of the emitted nodes of a unit leaves out no emitted node, whether or not its
instantiations have got their names. -/
theorem ofGraph_prunesExactly {unit : TranslationUnit} {table : MarkingTable}
    (built : Graph.ofUnit unit table = .ok graph) (outermost : graph.parentLink Graph.root = none)
    (configuration : Configuration) (instantiations : Instantiations) :
    PrunesExactly graph (instantiations.rename (Visibility.ofGraph graph configuration)) := by
  have tree := (Graph.ofUnit_wired built).tree_of_outermost outermost
  refine prunesExactly_of_decided tree ?_
  exact (Visibility.ofGraph_decided graph configuration).of_emitted_eq
    (Visibility.emitted_renameAll instantiations _)

/-- Two classes in a hidden namespace, of which an alias moves one out. -/
def movedShape : TranslationUnit where
  root := { id := 0, kind := .translationUnit, order := 0 }
  others :=
    [ { id := 1, kind := .namespace false, name := "geo", qualifiedName := "geo", parent := some 0
        order := 1, payloads := [.map [("hidden", .null)]] },
      { id := 2, kind := .class [] none, name := "Shape", qualifiedName := "geo::Shape"
        parent := some 1, order := 2 },
      { id := 3, kind := .field "int" false false, name := "x", qualifiedName := "geo::Shape::x"
        parent := some 2, order := 3 },
      { id := 4, kind := .class [] none, name := "Internal", qualifiedName := "geo::Internal"
        parent := some 1, order := 4 },
      { id := 5, kind := .field "int" false false, name := "y", qualifiedName := "geo::Internal::y"
        parent := some 4, order := 5 },
      { id := 6, kind := .namespace false, name := "outer", qualifiedName := "outer"
        parent := some 0, order := 6 },
      { id := 7, kind := .typeAlias (some "geo::Shape"), name := "Figure"
        qualifiedName := "outer::Figure", parent := some 6, order := 7
        payloads := [.map [("expose_here", .array []), ("visible", .bool true)]] } ]
  valid := by decide

/-- The field of the moved class has its line, and that of the other has none. -/
theorem movedShape_prunesExactly :
    ∃ table graph, Graph.ofUnit movedShape table = .ok graph ∧
      graph.parentLink Graph.root = none ∧
      PrunesExactly graph (Instantiations.rename ⟨[]⟩ (Visibility.ofGraph graph {})) ∧
      ∃ moved left, graph.node? 3 = some moved ∧ graph.node? 5 = some left ∧
        shows (Visibility.ofGraph graph {}) .pruned moved = true ∧
        shows (Visibility.ofGraph graph {}) .pruned left = false := by
  have decided : (Graph.withTable? movedShape).any (fun (_, graph) =>
      graph.parentLink Graph.root == none &&
        (graph.node? 3).any (Visibility.emits graph fun node =>
          (Visibility.ofGraph graph {}).isVisible node.id) &&
        (graph.node? 5).any fun node => !Visibility.emits graph (fun node =>
          (Visibility.ofGraph graph {}).isVisible node.id) node) = true := by
    decide +kernel
  obtain ⟨table, graph, _, built, holds⟩ := Graph.exists_of_any decided
  simp only [Bool.and_eq_true, Option.any_eq_true, beq_iff_eq, Bool.not_eq_true'] at holds
  obtain ⟨⟨outermost, moved, isMoved, emits⟩, left, isLeft, leavesOut⟩ := holds
  have emits_iff {node : Node} {id : Nat} (isNode : graph.node? id = some node) :
      (Visibility.ofGraph graph {}).isEmitted node.id = true ↔
        Visibility.emits graph (fun node => (Visibility.ofGraph graph {}).isVisible node.id) node =
          true :=
    Visibility.isEmitted_iff_emits (Graph.ofUnit_wired built) rfl (Graph.mem_nodes_of_node? isNode)
  refine ⟨table, graph, built, outermost, ofGraph_prunesExactly built outermost {} ⟨[]⟩, moved, left,
    isMoved, isLeft, (emits_iff isMoved).mpr emits, ?_⟩
  rw [shows, ← Bool.not_eq_true, emits_iff isLeft, leavesOut]
  exact Bool.false_ne_true

end Registrar.Outline
