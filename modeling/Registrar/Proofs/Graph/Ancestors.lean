import Mathlib
import Registrar.Proofs.Graph.Tree

/-!
Contract: what is around a node, whether or not the graph is a tree.

Owns: counted steps from node to node upwards, and that the listed ancestors of
a node are all that is around it.

Does not own: where the ways up end.

Moves may put the root below another node, from which the way up leads to the
root again. As many steps as there are nodes meet whatever is on such a way.
-/

set_option autoImplicit false

namespace Registrar.Graph

/-- The one node is directly below the other. -/
def Below (graph : Graph) (node around : Node) : Prop :=
  ∃ id, node.parent = some id ∧ graph.node? id = some around

/-- The node that so many steps upwards lead to. -/
def ascend (graph : Graph) : Nat → Node → Option Node
  | 0, node => some node
  | steps + 1, node => (node.parent.bind graph.node?).bind (graph.ascend steps)

variable {graph : Graph} {node top : Node}

theorem below_iff {around : Node} :
    graph.Below node around ↔ node.parent.bind graph.node? = some around :=
  Option.bind_eq_some_iff.symm

theorem mem_nodes_of_below {around : Node} (below : graph.Below node around) :
    around ∈ graph.nodes :=
  mem_nodes_of_node? below.choose_spec.2

/-! ## Counted steps -/

theorem ascend_add (first second : Nat) (node : Node) :
    graph.ascend (first + second) node = (graph.ascend first node).bind (graph.ascend second) := by
  induction first generalizing node with
  | zero => rw [Nat.zero_add, ascend, Option.bind_some]
  | succ first inductionHypothesis =>
      rw [Nat.succ_add, ascend, ascend]
      cases node.parent.bind graph.node? with
      | none => rfl
      | some parent => exact inductionHypothesis parent

theorem mem_nodes_of_ascend {steps : Nat} (member : node ∈ graph.nodes)
    (reaches : graph.ascend steps node = some top) : top ∈ graph.nodes := by
  induction steps generalizing node with
  | zero =>
      rw [ascend, Option.some.injEq] at reaches
      rwa [← reaches]
  | succ steps inductionHypothesis =>
      rw [ascend, Option.bind_eq_some_iff] at reaches
      obtain ⟨parent, step, onwards⟩ := reaches
      exact inductionHypothesis (mem_nodes_of_below (below_iff.mpr step)) onwards

theorem reaches_iff_ascend :
    Relation.ReflTransGen graph.Below node top ↔ ∃ steps, graph.ascend steps node = some top := by
  constructor
  · intro way
    induction way using Relation.ReflTransGen.head_induction_on with
    | refl => exact ⟨0, rfl⟩
    | head step _ inductionHypothesis =>
        obtain ⟨steps, reaches⟩ := inductionHypothesis
        exact ⟨steps + 1, by rw [ascend, below_iff.mp step, Option.bind_some, reaches]⟩
  · rintro ⟨steps, reaches⟩
    induction steps generalizing node with
    | zero =>
        rw [ascend, Option.some.injEq] at reaches
        rw [reaches]
    | succ steps inductionHypothesis =>
        rw [ascend, Option.bind_eq_some_iff] at reaches
        obtain ⟨parent, step, onwards⟩ := reaches
        exact .head (below_iff.mpr step) (inductionHypothesis onwards)

/-- The ancestors within so many steps are what so many steps, or fewer, lead to. -/
theorem mem_ancestorsWithin_iff {steps : Nat} :
    top ∈ node :: graph.ancestorsWithin steps node ↔
      ∃ fewer ≤ steps, graph.ascend fewer node = some top := by
  induction steps generalizing node with
  | zero => simp [ancestorsWithin, ascend, eq_comm]
  | succ steps inductionHypothesis =>
      rw [List.mem_cons, ancestorsWithin]
      constructor
      · rintro (rfl | later)
        · exact ⟨0, Nat.zero_le _, rfl⟩
        · cases up : node.parent.bind graph.node? with
          | none => simp [up] at later
          | some parent =>
              simp only [up] at later
              obtain ⟨fewer, atMost, reaches⟩ := inductionHypothesis.mp later
              exact ⟨fewer + 1, by omega, by rw [ascend, up, Option.bind_some, reaches]⟩
      · rintro ⟨fewer, atMost, reaches⟩
        cases fewer with
        | zero => exact .inl (Option.some.inj reaches).symm
        | succ fewer =>
            right
            rw [ascend, Option.bind_eq_some_iff] at reaches
            obtain ⟨parent, up, onwards⟩ := reaches
            simp only [up]
            exact inductionHypothesis.mpr ⟨fewer, by omega, onwards⟩

/-! ## All that is around a node -/

/-- What more steps than there are nodes lead to, fewer lead to. -/
theorem Wired.exists_fewer_steps (wired : graph.Wired) (member : node ∈ graph.nodes) {steps : Nat}
    (many : graph.size < steps) (reaches : graph.ascend steps node = some top) :
    ∃ fewer < steps, graph.ascend fewer node = some top := by
  have reached : ∀ count ≤ steps, ∃ met, graph.ascend count node = some met := by
    intro count atMost
    obtain ⟨more, rfl⟩ := Nat.exists_eq_add_of_le atMost
    rw [ascend_add, Option.bind_eq_some_iff] at reaches
    exact ⟨_, reaches.choose_spec.1⟩
  let idAfter (count : Nat) : Nat := ((graph.ascend count node).map fun met => met.id).getD 0
  have inside : ∀ count ∈ Finset.range (graph.size + 1), idAfter count ∈ Finset.range graph.size := by
    intro count counted
    obtain ⟨met, isMet⟩ := reached count (by have := Finset.mem_range.mp counted; omega)
    simp only [idAfter, isMet, Option.map_some, Option.getD_some, Finset.mem_range]
    exact node?_lt (wired.node?_id (mem_nodes_of_ascend member isMet))
  obtain ⟨one, oneCounted, other, otherCounted, different, same⟩ :=
    Finset.exists_ne_map_eq_of_card_lt_of_maps_to (by simp) inside
  rw [Finset.mem_range] at oneCounted otherCounted
  -- Of the two counts that lead to one node, the later can be replaced by the earlier.
  have shorter {earlier later : Nat} (ordered : earlier < later) (atMost : later ≤ steps)
      (same : idAfter earlier = idAfter later) :
      ∃ fewer < steps, graph.ascend fewer node = some top := by
    obtain ⟨first, isFirst⟩ := reached earlier (by omega)
    obtain ⟨second, isSecond⟩ := reached later atMost
    simp only [idAfter, isFirst, isSecond, Option.map_some, Option.getD_some] at same
    obtain rfl := wired.eq_of_id_eq (mem_nodes_of_ascend member isFirst)
      (mem_nodes_of_ascend member isSecond) same
    obtain ⟨others, rfl⟩ := Nat.exists_eq_add_of_le atMost
    refine ⟨earlier + others, by omega, ?_⟩
    rw [ascend_add, isSecond] at reaches
    rw [ascend_add, isFirst, reaches]
  rcases Nat.lt_or_gt_of_ne different with before | after
  · exact shorter before (by omega) same
  · exact shorter after (by omega) same.symm

/-- The ancestors of a node, with the node itself, are all that the ways up from it
lead to. -/
theorem Wired.mem_ancestors_iff (wired : graph.Wired) (member : node ∈ graph.nodes) :
    top ∈ node :: graph.ancestors node ↔ Relation.ReflTransGen graph.Below node top := by
  rw [ancestors, mem_ancestorsWithin_iff, reaches_iff_ascend]
  constructor
  · rintro ⟨steps, _, reaches⟩
    exact ⟨steps, reaches⟩
  · rintro ⟨steps, reaches⟩
    induction steps using Nat.strong_induction_on with
    | h steps inductionHypothesis =>
        by_cases atMost : steps ≤ graph.size
        · exact ⟨steps, atMost, reaches⟩
        · obtain ⟨fewer, isLess, stillReaches⟩ :=
            wired.exists_fewer_steps member (Nat.lt_of_not_le atMost) reaches
          exact inductionHypothesis fewer isLess stillReaches

end Registrar.Graph
