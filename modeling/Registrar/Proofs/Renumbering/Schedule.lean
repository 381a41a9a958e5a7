import Mathlib
import Registrar.Proofs.Renumbering.Items
import Registrar.Proofs.Schedule.Units

/-!
Contract: the schedule of a graph under other numbers.

Owns: that the same units are registered in the same order, each with the same
items.

Does not own: what is written for them.
-/

set_option autoImplicit false

namespace Registrar

variable {number : Nat → Nat}

/-! ## Numbers of units -/

namespace UnitId

def renumber (number : Nat → Nat) : UnitId → UnitId
  | .context node => .context (number node)
  | .typeAlias node => .typeAlias (number node)
  | .early => .early
  | .postamble => .postamble

theorem node?_renumber (unit : UnitId) : (unit.renumber number).node? = unit.node?.map number := by
  cases unit <;> rfl

theorem renumber_injective (injective : Function.Injective number) :
    Function.Injective (renumber number) := by
  intro left right same
  cases left <;> cases right <;> simp_all [renumber, injective.eq_iff]

end UnitId

def ScheduledUnit.renumber (number : Nat → Nat) (unit : ScheduledUnit) : ScheduledUnit :=
  { id := unit.id.renumber number, items := unit.items.map (Item.renumber number) }

namespace Schedule

/-- The other schedule is the schedule under other numbers. -/
structure Renumbers (number : Nat → Nat) (schedule other : Schedule) : Prop where
  units : other.units = schedule.units.map (ScheduledUnit.renumber number)
  aliasTargets : ∀ id, other.aliasTargets.lookup (number id) =
    (schedule.aliasTargets.lookup id).map number

/-! ## Aliases -/

section Graphs

variable {graph other : Graph} {visibility otherVisibility : Visibility}

theorem aliasTarget?_renumber (renumbers : Graph.Renumbers number graph other) (node : Node) :
    aliasTarget? other (node.renumber number) = (aliasTarget? graph node).map number := by
  have sameResolution : (aliasSpelling? (node.renumber number)).bind other.resolveType =
      ((aliasSpelling? node).bind graph.resolveType).map number := by
    rw [Option.map_bind]
    exact Option.bind_congr fun spelling _ => renumbers.resolveType_eq spelling
  unfold aliasTarget?
  rw [sameResolution, Option.filter_map]
  congr 2
  funext id
  rw [Function.comp_apply, renumbers.node?_eq]
  cases graph.node? id <;> rfl

theorem unitOf?_renumber (renumbers : Graph.Renumbers number graph other) (node : Node) :
    unitOf? other (node.renumber number) = (unitOf? graph node).map (UnitId.renumber number) := by
  unfold unitOf?
  rw [Node.renumber_kind, aliasTarget?_renumber renumbers, Option.isSome_map, Node.renumber_id]
  split_ifs <;> rfl

theorem orderOf_renumber (renumbers : Graph.Renumbers number graph other) (unit : UnitId) :
    orderOf other (unit.renumber number) = orderOf graph unit := by
  unfold orderOf
  rw [UnitId.node?_renumber, renumbers.bind_node?_eq, Option.map_map]
  rfl

theorem parentOf_renumber (renumbers : Graph.Renumbers number graph other) (id : Nat) :
    parentOf other (number id) = (parentOf graph id).map number := by
  unfold parentOf
  rw [renumbers.node?_eq]
  cases graph.node? id with
  | none => rfl
  | some node => exact Option.toList_map

end Graphs

variable {groundwork other : Groundwork}

theorem exists_alias_of_lookup (laid : groundwork.Laid) {id target : Nat}
    (found : (targets groundwork.graph groundwork.visibility).lookup id = some target) :
    ∃ node ∈ groundwork.graph.nodes, groundwork.visibility.isEmitted node.id = true ∧
      node.kind.target = .typeAlias ∧ node.id = id := by
  obtain ⟨before, after, split, _⟩ := List.lookup_eq_some_iff.mp found
  have listed : (id, target) ∈ targets groundwork.graph groundwork.visibility := by
    rw [split]
    exact List.mem_append_right before List.mem_cons_self
  unfold targets emittedAliases at listed
  obtain ⟨node, isAlias, isTarget⟩ := List.mem_filterMap.mp listed
  rw [List.mem_filter, mem_emittedNodes laid, beq_iff_eq] at isAlias
  obtain ⟨_, _, samePair⟩ := Option.map_eq_some_iff.mp isTarget
  exact ⟨node, isAlias.1.1, isAlias.1.2, isAlias.2, congrArg Prod.fst samePair⟩

/-- An alias stands for the same class or enum. -/
theorem lookup_targets_renumber (renumbers : Groundwork.Renumbers number groundwork other)
    (id : Nat) :
    (targets other.graph other.visibility).lookup (number id) =
      ((targets groundwork.graph groundwork.visibility).lookup id).map number := by
  by_cases isListed : ∃ node ∈ groundwork.graph.nodes,
      groundwork.visibility.isEmitted node.id = true ∧ node.kind.target = .typeAlias ∧ node.id = id
  · obtain ⟨node, member, emitted, isAlias, rfl⟩ := isListed
    have emittedOther : other.visibility.isEmitted (node.renumber number).id = true := by
      rw [Node.renumber_id, renumbers.visibility.emitted, emitted]
    have foundOther := lookup_targets renumbers.otherLaid (renumbers.graph.renumber_mem member)
      emittedOther isAlias
    rw [Node.renumber_id] at foundOther
    rw [foundOther, lookup_targets renumbers.laid member emitted isAlias,
      aliasTarget?_renumber renumbers.graph]
  · have nowhere : (targets groundwork.graph groundwork.visibility).lookup id = none := by
      rw [Option.eq_none_iff_forall_ne_some]
      exact fun target found => isListed (exists_alias_of_lookup renumbers.laid found)
    have nowhereOther : (targets other.graph other.visibility).lookup (number id) = none := by
      rw [Option.eq_none_iff_forall_ne_some]
      intro target found
      obtain ⟨_, member, emitted, isAlias, sameId⟩ :=
        exists_alias_of_lookup renumbers.otherLaid found
      obtain ⟨node, nodeMember, rfl⟩ := (renumbers.graph.mem_iff _).mp member
      rw [Node.renumber_id, renumbers.visibility.emitted] at emitted
      exact isListed
        ⟨node, nodeMember, emitted, isAlias, renumbers.graph.injective sameId⟩
    rw [nowhere, nowhereOther, Option.map_none]

/-! ## Units -/

theorem unitsOf_perm (renumbers : Groundwork.Renumbers number groundwork other) :
    (unitsOf other.graph other.visibility).Perm
      ((unitsOf groundwork.graph groundwork.visibility).map (UnitId.renumber number)) := by
  have units := renumbers.emittedNodes.filterMap (unitOf? other.graph)
  have same : ((groundwork.graph.nodesOf groundwork.visibility.emitted).map
      (Node.renumber number)).filterMap (unitOf? other.graph) =
      (unitsOf groundwork.graph groundwork.visibility).map (UnitId.renumber number) := by
    unfold unitsOf
    rw [List.filterMap_map, List.map_filterMap]
    exact List.filterMap_congr fun node _ => unitOf?_renumber renumbers.graph node
  rw [same] at units
  exact units

theorem dependencies_renumber (renumbers : Groundwork.Renumbers number groundwork other)
    (unit : UnitId) :
    dependencies other (targets other.graph other.visibility) (unit.renumber number) =
      (dependencies groundwork (targets groundwork.graph groundwork.visibility) unit).map
        (UnitId.renumber number) := by
  have ofContexts (ids : List Nat) : (ids.map number).map UnitId.context =
      (ids.map UnitId.context).map (UnitId.renumber number) := by
    rw [List.map_map, List.map_map]
    rfl
  cases unit with
  | context id =>
      simp only [UnitId.renumber, dependencies]
      rw [parentOf_renumber renumbers.graph, renumbers.inheritance.registered_eq,
        ← List.map_append, ofContexts]
  | typeAlias id =>
      simp only [UnitId.renumber, dependencies]
      rw [parentOf_renumber renumbers.graph, lookup_targets_renumber renumbers,
        Option.toList_map, ← List.map_append, ofContexts]
  | _ => rfl

/-- Units in one place in the source are one unit. -/
theorem eq_of_orderOf_eq (renumbers : Groundwork.Renumbers number groundwork other)
    {left right : UnitId} (leftListed : left ∈ unitsOf groundwork.graph groundwork.visibility)
    (rightListed : right ∈ unitsOf groundwork.graph groundwork.visibility)
    (sameOrder : orderOf groundwork.graph left = orderOf groundwork.graph right) :
    left = right := by
  obtain ⟨leftNode, leftMember, _, isLeft⟩ := (mem_unitsOf renumbers.laid).mp leftListed
  obtain ⟨rightNode, rightMember, _, isRight⟩ := (mem_unitsOf renumbers.laid).mp rightListed
  have ofNode {unit : UnitId} {node : Node} (member : node ∈ groundwork.graph.nodes)
      (isUnit : unitOf? groundwork.graph node = some unit) :
      orderOf groundwork.graph unit = node.order := by
    unfold orderOf
    rw [node?_of_unitOf? isUnit, Option.bind_some, renumbers.laid.wired.node?_id member]
    rfl
  rw [ofNode leftMember isLeft, ofNode rightMember isRight] at sameOrder
  rw [renumbers.graph.eq_of_order_eq leftMember rightMember sameOrder, isRight] at isLeft
  exact (Option.some.inj isLeft).symm

theorem units_renames (renumbers : Groundwork.Renumbers number groundwork other) :
    TopologicalOrder.Renames (UnitId.renumber number) (orderOf groundwork.graph)
      (dependencies groundwork (targets groundwork.graph groundwork.visibility))
      (unitsOf groundwork.graph groundwork.visibility) (orderOf other.graph)
      (dependencies other (targets other.graph other.visibility))
      (unitsOf other.graph other.visibility) where
  mem_iff := by
    intro unit
    rw [(unitsOf_perm renumbers).mem_iff, List.mem_map]
  depends_iff := by
    intro unit _ dependency _
    rw [dependencies_renumber renumbers,
      List.mem_map_of_injective (UnitId.renumber_injective renumbers.graph.injective)]
  precedes_iff := by
    intro left leftListed right rightListed
    unfold TopologicalOrder.Precedes
    rw [orderOf_renumber renumbers.graph, orderOf_renumber renumbers.graph]
    refine or_congr_right (and_congr_right fun tie => ?_)
    rw [eq_of_orderOf_eq renumbers leftListed rightListed tie]
    exact iff_of_true (Std.le_refl _) (Std.le_refl _)

/-! ## Items -/

theorem itemsOf_renumber (renumbers : Groundwork.Renumbers number groundwork other)
    (unit : UnitId) :
    itemsOf other (unit.renumber number) =
      (itemsOf groundwork unit).map (List.map (Item.renumber number)) := by
  cases unit with
  | context id =>
      simp only [UnitId.renumber, itemsOf]
      rw [renumbers.graph.node?_eq]
      cases groundwork.graph.node? id with
      | none => rfl
      | some node => exact Item.ofContext_renumber renumbers node
  | _ => rfl

theorem schedule_renumber (renumbers : Groundwork.Renumbers number groundwork other)
    (ids : List UnitId) :
    schedule other (ids.map (UnitId.renumber number)) =
      ((schedule groundwork ids).1.map (ScheduledUnit.renumber number),
        (schedule groundwork ids).2) := by
  induction ids with
  | nil => rfl
  | cons id rest inductionHypothesis =>
      simp only [List.map_cons, schedule]
      rw [inductionHypothesis, itemsOf_renumber renumbers]
      cases itemsOf groundwork id <;> rfl

theorem rootBlocks_renumber (renumbers : Groundwork.Renumbers number groundwork other)
    (placement : Placement) :
    rootBlocks other placement =
      (rootBlocks groundwork placement).map (Item.renumber number) := by
  unfold rootBlocks
  rw [renumbers.graph.root_eq]
  cases groundwork.graph.node? Graph.root with
  | none => rfl
  | some root =>
      rw [Option.map_some]
      dsimp only
      rw [Item.selected_renumber renumbers _ _ (fun _ => rfl), List.map_map, List.map_map]
      rfl

theorem blockUnit_renumber (renumbers : Groundwork.Renumbers number groundwork other)
    (id : UnitId) (placement : Placement) :
    blockUnit other (id.renumber number) placement =
      (blockUnit groundwork id placement).map (ScheduledUnit.renumber number) := by
  unfold blockUnit
  dsimp only
  rw [rootBlocks_renumber renumbers, List.isEmpty_map]
  split <;> rfl

/-- Under other numbers the same units are scheduled with the same items. -/
theorem ofGroundwork_renumbers (renumbers : Groundwork.Renumbers number groundwork other)
    {schedule : Schedule} (scheduled : ofGroundwork groundwork = .ok schedule) :
    ∃ found, ofGroundwork other = .ok found ∧ Renumbers number schedule found := by
  unfold ofGroundwork at scheduled
  dsimp only at scheduled
  split at scheduled
  · cases scheduled
  · rename_i ordered inOrder
    split at scheduled
    · rename_i noFaults
      have inOrderOther := (units_renames renumbers).order_eq_ok inOrder
      unfold ofGroundwork
      dsimp only
      rw [inOrderOther]
      dsimp only
      rw [schedule_renumber renumbers, if_pos noFaults]
      refine ⟨_, rfl, ?_, ?_⟩
      · rw [← Except.ok.inj scheduled]
        dsimp only
        rw [List.map_append, List.map_append, ← blockUnit_renumber renumbers,
          ← blockUnit_renumber renumbers]
        rfl
      · rw [← Except.ok.inj scheduled]
        exact lookup_targets_renumber renumbers
    · cases scheduled

end Schedule

end Registrar
