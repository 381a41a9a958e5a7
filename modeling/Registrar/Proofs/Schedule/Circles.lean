import Mathlib
import Registrar.Proofs.Schedule.Exchange
import Registrar.Proofs.Schedule.Units
import Registrar.Proofs.TopologicalOrder.Circles

/-!
Contract: what can keep registrations from being put in order.

Owns: that items are kept from it by blocks without anchors alone, and that a
circle of units is one of emitted contexts.

Does not own: how the faults are reported.

A block is anchored to an item with a name, and has none itself. So blocks that
stand before their anchors follow nothing, and nothing follows those that stand
after theirs. Units follow contexts only, so neither an alias nor the blocks at
either end of the schedule can be on a circle.
-/

set_option autoImplicit false

namespace Registrar

/-! ## Items -/

namespace Item

variable {graph : Graph} {visibility : Visibility} {items : List PlacedItem}

theorem anchor?_eq_none_of_name {placed : PlacedItem} {name : String}
    (isName : placed.item.name? visibility = some name) : placed.item.anchor? graph = none := by
  rw [Option.eq_none_iff_forall_ne_some]
  intro anchor hasAnchor
  obtain ⟨node, isBlock⟩ := exists_block_of_anchor? hasAnchor
  rw [isBlock] at isName
  cases isName

/-- Blocks that stand before their anchors come first, and those that stand after them
last. -/
def standing (graph : Graph) (placed : PlacedItem) : Nat :=
  match placed.item.anchor? graph with
  | some (_, .before) => 0
  | none => 1
  | some (_, .after) => 2

theorem standing_of_named {placed : PlacedItem} {name : String}
    (isName : placed.item.name? visibility = some name) : standing graph placed = 1 := by
  unfold standing
  rw [anchor?_eq_none_of_name isName]

theorem Leads.standing_lt {earlier later : PlacedItem}
    (leads : Leads graph visibility earlier later) :
    standing graph earlier < standing graph later := by
  obtain ⟨name, ⟨hasAnchor, isName⟩ | ⟨hasAnchor, isName⟩⟩ := leads
  · rw [standing_of_named isName, standing, hasAnchor]
    exact Nat.one_pos
  · rw [standing_of_named isName, standing, hasAnchor]
    exact Nat.one_lt_two

/-- No item has to come before itself. -/
theorem predecessors_acyclic :
    TopologicalOrder.Acyclic (predecessors (anchorings graph visibility items))
      (List.range items.length) := by
  refine TopologicalOrder.acyclic_of_rank
    (fun place => ((items[place]?).map (standing graph)).getD 0) ?_
  rintro later earlier ⟨_, _, precedes, _⟩
  obtain ⟨first, second, isFirst, isSecond, leads⟩ := mem_predecessors.mp precedes
  simp only [isFirst, isSecond, Option.map_some, Option.getD_some]
  exact leads.standing_lt

/-- Items that are not put in order are kept from it by blocks without anchors. -/
theorem inOrder_error {faults : List Fault}
    (fails : inOrder graph visibility items = .error faults) :
    faults = (anchorings graph visibility items).filterMap (anchorFault? graph) := by
  unfold inOrder at fails
  dsimp only at fails
  split at fails
  · exact (Except.error.inj fails).symm
  · obtain ⟨places, isOrder⟩ := (TopologicalOrder.exists_order_iff
      (keyAt (items.map PlacedItem.order) (anchorings graph visibility items)) _ _).mpr
        (@predecessors_acyclic graph visibility items)
    rw [isOrder] at fails
    cases fails

/-- Each fault is told of a block, never of a circle. -/
theorem eq_of_inOrder_error {faults : List Fault}
    (fails : inOrder graph visibility items = .error faults) {fault : Fault}
    (listed : fault ∈ faults) :
    ∃ name, ∃ node ∈ graph.nodes,
      fault = (Fault.ofCause (.unknownAnchor name)).located node.displayName node.location := by
  rw [inOrder_error fails] at listed
  obtain ⟨anchoring, _, isFault⟩ := List.mem_filterMap.mp listed
  unfold anchorFault? at isFault
  split at isFault
  · obtain ⟨node, found, rfl⟩ := Option.map_eq_some_iff.mp isFault
    exact ⟨anchoring.name, node, Graph.mem_nodes_of_node? found, rfl⟩
  · cases isFault

end Item

/-! ## Units -/

namespace Schedule

variable {groundwork : Groundwork} {targets : List (Nat × Nat)}

/-- Whatever a unit follows is a context. -/
theorem exists_context_of_mem_dependencies {unit dependency : UnitId}
    (follows : dependency ∈ dependencies groundwork targets unit) :
    ∃ id, dependency = .context id := by
  unfold dependencies at follows
  split at follows
  · obtain ⟨id, _, rfl⟩ := List.mem_map.mp follows
    exact ⟨id, rfl⟩
  · obtain ⟨id, _, rfl⟩ := List.mem_map.mp follows
    exact ⟨id, rfl⟩
  · cases follows

/-- A circle of units has members, and each is a context. -/
theorem circle_areContexts {circle : List UnitId}
    (stuck : TopologicalOrder.order (orderOf groundwork.graph) (dependencies groundwork targets)
      (unitsOf groundwork.graph groundwork.visibility) = .error circle) :
    circle ≠ [] ∧ ∀ unit ∈ circle, ∃ node ∈ groundwork.graph.nodes,
      unit = .context node.id ∧ node.kind.isContext = true := by
  obtain ⟨_, _, isReported⟩ := TopologicalOrder.reported_of_order stuck
  constructor
  · intro isNil
    have acyclic : TopologicalOrder.Acyclic (dependencies groundwork targets)
        (unitsOf groundwork.graph groundwork.visibility) := by
      intro unit onCircle
      have reported := (isReported unit).mpr onCircle.between
      rw [isNil] at reported
      cases reported
    obtain ⟨ordered, isOrder⟩ :=
      (TopologicalOrder.exists_order_iff (orderOf groundwork.graph) _ _).mpr acyclic
    rw [isOrder] at stuck
    cases stuck
  · intro unit listed
    have between := (isReported unit).mp listed
    obtain ⟨node, isEmitted, isUnit⟩ := List.mem_filterMap.mp between.1.listed
    obtain ⟨_, _, found⟩ := Graph.mem_nodesOf.mp isEmitted
    refine ⟨node, Graph.mem_nodes_of_node? found, ?_⟩
    obtain ⟨other, depends, _⟩ := between.exists_awaiting
    obtain ⟨id, rfl⟩ := exists_context_of_mem_dependencies depends.2.2.1
    rcases unitOf?_eq_some isUnit with isContext | ⟨isAlias, _⟩
    · exact isContext
    · cases isAlias

/-- The nodes of a circle are found again, and told by name. -/
theorem exists_nodes_of_circle (wired : groundwork.graph.Wired) {circle : List UnitId}
    (stuck : TopologicalOrder.order (orderOf groundwork.graph) (dependencies groundwork targets)
      (unitsOf groundwork.graph groundwork.visibility) = .error circle) :
    ∃ first rest, groundwork.graph.nodesOf (circle.filterMap UnitId.node?) = first :: rest ∧
      ∀ node ∈ first :: rest, node ∈ groundwork.graph.nodes ∧ node.kind.isContext = true := by
  obtain ⟨nonempty, areContexts⟩ := circle_areContexts stuck
  have isContext : ∀ node ∈ groundwork.graph.nodesOf (circle.filterMap UnitId.node?),
      node ∈ groundwork.graph.nodes ∧ node.kind.isContext = true := by
    intro node listed
    obtain ⟨id, named, found⟩ := Graph.mem_nodesOf.mp listed
    obtain ⟨unit, isMember, isNode⟩ := List.mem_filterMap.mp named
    obtain ⟨other, otherMember, rfl, isContext⟩ := areContexts unit isMember
    obtain rfl : other.id = id := Option.some.inj isNode
    rw [wired.node?_id otherMember, Option.some.injEq] at found
    exact found ▸ ⟨otherMember, isContext⟩
  obtain ⟨unit, isMember⟩ := List.exists_mem_of_ne_nil circle nonempty
  obtain ⟨node, member, rfl, _⟩ := areContexts unit isMember
  have listed : node ∈ groundwork.graph.nodesOf (circle.filterMap UnitId.node?) :=
    Graph.mem_nodesOf.mpr ⟨node.id, List.mem_filterMap.mpr ⟨_, isMember, rfl⟩,
      wired.node?_id member⟩
  obtain ⟨first, rest, isCons⟩ := List.exists_cons_of_ne_nil (List.ne_nil_of_mem listed)
  rw [isCons] at isContext
  exact ⟨first, rest, isCons, isContext⟩

end Schedule

end Registrar
