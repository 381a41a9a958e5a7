import Mathlib
import Registrar.Proofs.Schedule.Items

/-!
Contract: which units are scheduled, and what comes before them.

Owns: that no two units are in one place of their order, that every emitted
context has exactly one unit, and that a unit follows those of the contexts
around it, of the supertypes of a class, and of the target of an alias.

Does not own: the items of the units.
-/

set_option autoImplicit false

/-! ## The order of units -/

namespace Registrar.UnitId

theorem le_iff {left right : UnitId} : left ≤ right ↔
    left.rank < right.rank ∨
      (left.rank = right.rank ∧ left.node?.getD 0 ≤ right.node?.getD 0) := by
  change left.le right = true ↔ _
  simp [le]

theorem eq_of_rank_eq {left right : UnitId} (sameRank : left.rank = right.rank)
    (sameNode : left.node?.getD 0 = right.node?.getD 0) : left = right := by
  cases left <;> cases right <;> simp_all [rank, node?]

/-- No two units are in one place. -/
instance : Std.IsLinearOrder UnitId where
  le_refl := by
    intro unit
    exact le_iff.mpr (.inr ⟨rfl, le_refl _⟩)
  le_trans := by
    intro left middle right first second
    rw [le_iff] at first second ⊢
    omega
  le_antisymm := by
    intro left right forth back
    rw [le_iff] at forth back
    exact eq_of_rank_eq (by omega) (by omega)
  le_total := by
    intro left right
    rw [le_iff, le_iff]
    omega

end Registrar.UnitId

namespace Registrar.Schedule

variable {groundwork : Groundwork}

/-! ## Units of emitted nodes -/

theorem mem_emittedNodes (laid : groundwork.Laid) {node : Node} :
    node ∈ groundwork.graph.nodesOf groundwork.visibility.emitted ↔
      node ∈ groundwork.graph.nodes ∧ groundwork.visibility.isEmitted node.id = true :=
  Visibility.mem_emittedNodes laid.wired

theorem map_id_emittedNodes (laid : groundwork.Laid) :
    (groundwork.graph.nodesOf groundwork.visibility.emitted).map (fun node => node.id) =
      groundwork.visibility.emitted := by
  apply laid.wired.map_id_nodesOf
  intro id emitted
  obtain ⟨node, _, _, found⟩ := laid.decided.exists_node laid.wired emitted
  exact Graph.node?_lt found

/-- No node is emitted twice. -/
theorem ids_emittedNodes_nodup (laid : groundwork.Laid) :
    ((groundwork.graph.nodesOf groundwork.visibility.emitted).map fun node => node.id).Nodup := by
  rw [map_id_emittedNodes laid]
  exact laid.decided.emitted_nodup laid.wired

theorem mem_unitsOf (laid : groundwork.Laid) {unit : UnitId} :
    unit ∈ unitsOf groundwork.graph groundwork.visibility ↔
      ∃ node ∈ groundwork.graph.nodes, groundwork.visibility.isEmitted node.id = true ∧
        unitOf? groundwork.graph node = some unit := by
  unfold unitsOf
  rw [List.mem_filterMap]
  constructor
  · rintro ⟨node, listed, isUnit⟩
    obtain ⟨member, emitted⟩ := (mem_emittedNodes laid).mp listed
    exact ⟨node, member, emitted, isUnit⟩
  · rintro ⟨node, member, emitted, isUnit⟩
    exact ⟨node, (mem_emittedNodes laid).mpr ⟨member, emitted⟩, isUnit⟩

/-- The unit of a node is that of a context, or of an alias with a target. -/
theorem unitOf?_eq_some {graph : Graph} {node : Node} {unit : UnitId}
    (isUnit : unitOf? graph node = some unit) :
    (unit = .context node.id ∧ node.kind.isContext = true) ∨
      (unit = .typeAlias node.id ∧ node.kind.target = .typeAlias ∧
        (aliasTarget? graph node).isSome) := by
  unfold unitOf? at isUnit
  split at isUnit
  · rename_i isContext
    exact .inl ⟨(Option.some.inj isUnit).symm, isContext⟩
  · split at isUnit
    · rename_i isAlias
      rw [Bool.and_eq_true, beq_iff_eq] at isAlias
      exact .inr ⟨(Option.some.inj isUnit).symm, isAlias⟩
    · cases isUnit

theorem node?_of_unitOf? {graph : Graph} {node : Node} {unit : UnitId}
    (isUnit : unitOf? graph node = some unit) : unit.node? = some node.id := by
  rcases unitOf?_eq_some isUnit with ⟨rfl, _⟩ | ⟨rfl, _⟩ <;> rfl

theorem unitsOf_nodup (laid : groundwork.Laid) :
    (unitsOf groundwork.graph groundwork.visibility).Nodup := by
  unfold unitsOf
  refine Node.nodup_filterMap (ids_emittedNodes_nodup laid) ?_
  intro left right unit isLeft isRight
  have sameNode := node?_of_unitOf? isLeft
  rw [node?_of_unitOf? isRight, Option.some.injEq] at sameNode
  exact sameNode.symm

theorem context_mem_unitsOf (laid : groundwork.Laid) {node : Node}
    (member : node ∈ groundwork.graph.nodes) :
    .context node.id ∈ unitsOf groundwork.graph groundwork.visibility ↔
      groundwork.visibility.isEmitted node.id = true ∧ node.kind.isContext = true := by
  rw [mem_unitsOf laid]
  constructor
  · rintro ⟨other, otherMember, emitted, isUnit⟩
    rcases unitOf?_eq_some isUnit with ⟨sameUnit, isContext⟩ | ⟨sameUnit, _⟩
    · rw [UnitId.context.injEq] at sameUnit
      rw [laid.wired.eq_of_id_eq member otherMember sameUnit]
      exact ⟨emitted, isContext⟩
    · cases sameUnit
  · rintro ⟨emitted, isContext⟩
    refine ⟨node, member, emitted, ?_⟩
    unfold unitOf?
    rw [if_pos isContext]

/-- What an emitted alias is for is what its target is. -/
theorem lookup_targets (laid : groundwork.Laid) {node : Node}
    (member : node ∈ groundwork.graph.nodes)
    (emitted : groundwork.visibility.isEmitted node.id = true)
    (isAlias : node.kind.target = .typeAlias) :
    (targets groundwork.graph groundwork.visibility).lookup node.id =
      aliasTarget? groundwork.graph node := by
  have mem_targets {target : Nat} :
      (node.id, target) ∈ targets groundwork.graph groundwork.visibility ↔
        aliasTarget? groundwork.graph node = some target := by
    unfold targets emittedAliases
    rw [List.mem_filterMap]
    constructor
    · rintro ⟨other, listed, isTarget⟩
      rw [List.mem_filter, mem_emittedNodes laid] at listed
      obtain ⟨found, isFound, samePair⟩ := Option.map_eq_some_iff.mp isTarget
      rw [Prod.mk.injEq] at samePair
      rw [laid.wired.eq_of_id_eq member listed.1.1 samePair.1.symm, isFound, samePair.2]
    · intro isTarget
      refine ⟨node, ?_, by rw [isTarget, Option.map_some]⟩
      rw [List.mem_filter, mem_emittedNodes laid, beq_iff_eq]
      exact ⟨⟨member, emitted⟩, isAlias⟩
  cases found : (targets groundwork.graph groundwork.visibility).lookup node.id with
  | some target =>
      obtain ⟨before, after, split, _⟩ := List.lookup_eq_some_iff.mp found
      have member : (node.id, target) ∈ targets groundwork.graph groundwork.visibility := by
        rw [split]
        exact List.mem_append_right before List.mem_cons_self
      rw [mem_targets.mp member]
  | none =>
      rw [List.lookup_eq_none_iff] at found
      cases isTarget : aliasTarget? groundwork.graph node with
      | none => rfl
      | some target => simpa using found _ (mem_targets.mpr isTarget)

theorem exists_node_of_aliasTarget? {graph : Graph} {node : Node} {id : Nat}
    (isTarget : aliasTarget? graph node = some id) :
    ∃ target, graph.node? id = some target ∧
      (target.kind.target = .class ∨ target.kind.target = .enum) := by
  unfold aliasTarget? at isTarget
  have isSort := (Option.filter_eq_some_iff.mp isTarget).2
  split at isSort
  · rename_i target found
    refine ⟨target, found, ?_⟩
    simpa using isSort
  · cases isSort

/-! ## Scheduling -/

theorem itemsOf_error_ne_nil {id : UnitId} {faults : List Fault}
    (fails : itemsOf groundwork id = .error faults) : faults ≠ [] := by
  unfold itemsOf at fails
  split at fails
  · split at fails
    · exact Item.inOrder_error_ne_nil fails
    · cases fails
  · cases fails

/-- Where there are no faults, each unit gets its items. -/
theorem schedule_of_noFaults {ids : List UnitId}
    (noFaults : (schedule groundwork ids).2 = []) :
    (schedule groundwork ids).1.map ScheduledUnit.id = ids ∧
      ∀ unit ∈ (schedule groundwork ids).1, itemsOf groundwork unit.id = .ok unit.items := by
  induction ids with
  | nil => exact ⟨rfl, fun _ member => absurd member List.not_mem_nil⟩
  | cons id rest inductionHypothesis =>
      cases found : itemsOf groundwork id with
      | error faults =>
          simp only [schedule, found, List.append_eq_nil_iff] at noFaults
          exact absurd noFaults.1 (itemsOf_error_ne_nil found)
      | ok items =>
          simp only [schedule, found] at noFaults ⊢
          obtain ⟨sameIds, hasItems⟩ := inductionHypothesis noFaults
          refine ⟨by rw [List.map_cons, sameIds], ?_⟩
          intro unit member
          rcases List.mem_cons.mp member with rfl | later
          · exact found
          · exact hasItems unit later

/-- A schedule is made of the blocks before everything else, the units of emitted
nodes in order, and the blocks after everything else. -/
structure Made (groundwork : Groundwork) (schedule : Schedule) (inner : List ScheduledUnit) :
    Prop where
  units : schedule.units = blockUnit groundwork .early .early ++ inner
    ++ blockUnit groundwork .postamble .postamble
  aliasTargets : schedule.aliasTargets = targets groundwork.graph groundwork.visibility
  perm : (inner.map ScheduledUnit.id).Perm (unitsOf groundwork.graph groundwork.visibility)
  follows : TopologicalOrder.Follows
    (dependencies groundwork (targets groundwork.graph groundwork.visibility))
    (unitsOf groundwork.graph groundwork.visibility) (inner.map ScheduledUnit.id)
  items : ∀ unit ∈ inner, itemsOf groundwork unit.id = .ok unit.items

theorem exists_made (laid : groundwork.Laid) {schedule : Schedule}
    (scheduled : ofGroundwork groundwork = .ok schedule) :
    ∃ inner, Made groundwork schedule inner := by
  unfold ofGroundwork at scheduled
  dsimp only at scheduled
  split at scheduled
  · cases scheduled
  · rename_i ordered inOrder
    split at scheduled
    · rename_i noFaults
      rw [List.isEmpty_iff] at noFaults
      obtain ⟨sameIds, hasItems⟩ := schedule_of_noFaults noFaults
      rw [← Except.ok.inj scheduled]
      refine ⟨_, rfl, rfl, ?_, ?_, hasItems⟩
      · rw [sameIds]
        exact TopologicalOrder.order_perm_of_nodup inOrder (unitsOf_nodup laid)
      · rw [sameIds]
        exact TopologicalOrder.order_follows inOrder
    · cases scheduled

/-- The blocks before and after everything else are in the unit for them. -/
theorem eq_of_mem_blockUnit {id : UnitId} {placement : Placement} {unit : ScheduledUnit}
    (member : unit ∈ blockUnit groundwork id placement) :
    unit = ⟨id, rootBlocks groundwork placement⟩ := by
  unfold blockUnit at member
  dsimp only at member
  split at member
  · cases member
  · exact List.mem_singleton.mp member

namespace Made

variable {schedule : Schedule} {inner : List ScheduledUnit}
  (made : Made groundwork schedule inner) (laid : groundwork.Laid)

include made laid

theorem ids_nodup : (inner.map ScheduledUnit.id).Nodup :=
  made.perm.nodup_iff.mpr (unitsOf_nodup laid)

/-- A unit in order is that of an emitted node. -/
theorem exists_node {unit : ScheduledUnit} (member : unit ∈ inner) :
    ∃ node ∈ groundwork.graph.nodes, groundwork.visibility.isEmitted node.id = true ∧
      unitOf? groundwork.graph node = some unit.id :=
  (mem_unitsOf laid).mp (made.perm.mem_iff.mp (List.mem_map_of_mem member))

/-- A unit in order is that of an emitted context, with the items of the context,
or that of an alias, without items. -/
theorem unit_cases {unit : ScheduledUnit} (member : unit ∈ inner) :
    (∃ node ∈ groundwork.graph.nodes, unit.id = .context node.id ∧
        groundwork.visibility.isEmitted node.id = true ∧ node.kind.isContext = true ∧
        Item.ofContext groundwork node = .ok unit.items) ∨
      ∃ node ∈ groundwork.graph.nodes, unit.id = .typeAlias node.id ∧
        groundwork.visibility.isEmitted node.id = true ∧ node.kind.target = .typeAlias ∧
        (aliasTarget? groundwork.graph node).isSome ∧ unit.items = [] := by
  obtain ⟨node, nodeMember, emitted, isUnit⟩ := made.exists_node laid member
  have items := made.items unit member
  rcases unitOf?_eq_some isUnit with ⟨isId, isContext⟩ | ⟨isId, isAlias, hasTarget⟩
  · left
    rw [isId, itemsOf, laid.wired.node?_id nodeMember] at items
    exact ⟨node, nodeMember, isId, emitted, isContext, items⟩
  · right
    rw [isId] at items
    exact ⟨node, nodeMember, isId, emitted, isAlias, hasTarget, (Except.ok.inj items).symm⟩

/-- Every emitted context has a unit. -/
theorem exists_unit {node : Node} (member : node ∈ groundwork.graph.nodes)
    (emitted : groundwork.visibility.isEmitted node.id = true)
    (isContext : node.kind.isContext = true) :
    ∃ unit ∈ inner, unit.id = .context node.id := by
  have listed := (context_mem_unitsOf laid member).mpr ⟨emitted, isContext⟩
  exact List.mem_map.mp (made.perm.mem_iff.mpr listed)

omit laid in
/-- Any other unit holds blocks of the root. -/
theorem mem_units {unit : ScheduledUnit} :
    unit ∈ schedule.units ↔ unit ∈ blockUnit groundwork .early .early ∨ unit ∈ inner ∨
      unit ∈ blockUnit groundwork .postamble .postamble := by
  rw [made.units, List.mem_append, List.mem_append, or_assoc]

/-- Every emitted context is scheduled with its items. -/
theorem exists_items {node : Node} (member : node ∈ groundwork.graph.nodes)
    (emitted : groundwork.visibility.isEmitted node.id = true)
    (isContext : node.kind.isContext = true) :
    ∃ unit ∈ schedule.units, unit.id = .context node.id ∧
      Item.ofContext groundwork node = .ok unit.items := by
  obtain ⟨unit, listed, isId⟩ := made.exists_unit laid member emitted isContext
  refine ⟨unit, made.mem_units.mpr (.inr (.inl listed)), isId, ?_⟩
  rcases made.unit_cases laid listed with ⟨other, otherMember, sameUnit, _, _, items⟩ | isAlias
  · rw [isId, UnitId.context.injEq] at sameUnit
    rwa [← laid.wired.eq_of_id_eq member otherMember sameUnit] at items
  · obtain ⟨_, _, sameUnit, _⟩ := isAlias
    rw [isId] at sameUnit
    cases sameUnit

/-- A scheduled unit with a node is the unit of the node, which is emitted. -/
theorem unitOf?_of_mem_units {unit : ScheduledUnit} (listed : unit ∈ schedule.units) {node : Node}
    (member : node ∈ groundwork.graph.nodes) (isUnit : unit.id.node? = some node.id) :
    groundwork.visibility.isEmitted node.id = true ∧
      unitOf? groundwork.graph node = some unit.id := by
  rcases made.mem_units.mp listed with early | isInner | postamble
  · rw [eq_of_mem_blockUnit early] at isUnit
    cases isUnit
  · obtain ⟨other, otherMember, emitted, isOther⟩ := made.exists_node laid isInner
    rw [node?_of_unitOf? isOther, Option.some.injEq] at isUnit
    rw [← laid.wired.eq_of_id_eq otherMember member isUnit]
    exact ⟨emitted, isOther⟩
  · rw [eq_of_mem_blockUnit postamble] at isUnit
    cases isUnit

/-- Blocks of the root are scheduled only with the root. -/
theorem exists_root_unit (tree : groundwork.graph.Tree) {unit : ScheduledUnit}
    (listed : unit ∈ schedule.units) (noNode : unit.id.node? = none) :
    ∃ rootUnit ∈ inner, rootUnit.id = .context Graph.root := by
  obtain ⟨root, rootMember, isRoot⟩ := laid.exists_root
  have ofBlocks {id : UnitId} {placement : Placement}
      (isBlocks : unit ∈ blockUnit groundwork id placement) :
      ∃ rootUnit ∈ inner, rootUnit.id = .context Graph.root := by
    obtain ⟨item, isItem⟩ : ∃ item, item ∈ rootBlocks groundwork placement := by
      apply List.exists_mem_of_ne_nil
      intro isNil
      unfold blockUnit at isBlocks
      rw [isNil] at isBlocks
      cases isBlocks
    obtain ⟨declared, below, _⟩ := Item.isBlock_of_mem_rootBlocks isRoot isItem
    obtain ⟨⟨member, _⟩, emitted⟩ := (Item.mem_emittedChildren laid.wired rootMember).mp below
    have rootEmitted := laid.decided.isEmitted_root tree declared member emitted
    rw [← laid.wired.id_eq isRoot] at rootEmitted ⊢
    apply made.exists_unit laid rootMember rootEmitted
    rw [DeclarationKind.isContext_iff]
    rcases tree.sort_of_root rootMember (laid.wired.id_eq isRoot) with isUnit | isClass
    · exact .inl isUnit
    · exact .inr (.inr (.inl isClass))
  rcases made.mem_units.mp listed with early | isInner | postamble
  · exact ofBlocks early
  · obtain ⟨node, _, _, isUnit⟩ := made.exists_node laid isInner
    rw [node?_of_unitOf? isUnit] at noNode
    cases noNode
  · exact ofBlocks postamble

/-- Every scheduled item comes from some context. -/
theorem exists_source {unit : ScheduledUnit} (listed : unit ∈ schedule.units) {item : Item}
    (isItem : item ∈ unit.items) :
    ∃ context ∈ groundwork.graph.nodes,
      Item.Source groundwork context item ∨ Item.IsBlock groundwork context item := by
  obtain ⟨root, rootMember, isRoot⟩ := laid.exists_root
  rcases made.mem_units.mp listed with early | isInner | postamble
  · rw [eq_of_mem_blockUnit early] at isItem
    exact ⟨root, rootMember, .inr (Item.isBlock_of_mem_rootBlocks isRoot isItem)⟩
  · rcases made.unit_cases laid isInner with ⟨node, member, _, _, _, items⟩ | isAlias
    · exact ⟨node, member, Item.source_of_mem_ofContext items isItem⟩
    · obtain ⟨_, _, _, _, _, _, isNil⟩ := isAlias
      rw [isNil] at isItem
      cases isItem
  · rw [eq_of_mem_blockUnit postamble] at isItem
    exact ⟨root, rootMember, .inr (Item.isBlock_of_mem_rootBlocks isRoot isItem)⟩

/-- A unit comes after those of the emitted contexts that it depends on. -/
theorem context_before {before after : List ScheduledUnit} {unit : ScheduledUnit}
    (split : inner = before ++ unit :: after) {node : Node}
    (member : node ∈ groundwork.graph.nodes)
    (emitted : groundwork.visibility.isEmitted node.id = true)
    (isContext : node.kind.isContext = true)
    (depends : .context node.id ∈ dependencies groundwork
      (targets groundwork.graph groundwork.visibility) unit.id)
    (different : .context node.id ≠ unit.id) :
    .context node.id ∈ before.map ScheduledUnit.id := by
  have splitIds : inner.map ScheduledUnit.id =
      before.map ScheduledUnit.id ++ unit.id :: after.map ScheduledUnit.id := by
    rw [split, List.map_append, List.map_cons]
  exact made.follows _ _ _ splitIds _ depends
    ((context_mem_unitsOf laid member).mpr ⟨emitted, isContext⟩) different

/-- A unit comes after that of the context around its node. -/
theorem parent_before (tree : groundwork.graph.Tree) {before after : List ScheduledUnit}
    {unit : ScheduledUnit} (split : inner = before ++ unit :: after) {node parent : Node}
    (member : node ∈ groundwork.graph.nodes) (parentMember : parent ∈ groundwork.graph.nodes)
    (around : node.parent = some parent.id)
    (isUnit : unitOf? groundwork.graph node = some unit.id)
    (emitted : groundwork.visibility.isEmitted node.id = true) :
    .context parent.id ∈ before.map ScheduledUnit.id := by
  obtain ⟨parentEmitted, isContext⟩ :=
    laid.decided.isEmitted_parent tree member parentMember around emitted
  have listed : parentOf groundwork.graph node.id = [parent.id] := by
    unfold parentOf
    rw [tree.node?_id member, Option.bind_some, around]
    rfl
  have notItself : parent.id ≠ node.id := by
    intro sameId
    have same := tree.eq_of_id_eq parentMember member sameId
    rw [same] at around
    -- A node around itself would be around itself once more than it is.
    have longer := congrArg List.length (tree.ancestors_of_parent member member around)
    rw [List.length_cons] at longer
    omega
  apply made.context_before laid split parentMember parentEmitted isContext
  · rcases unitOf?_eq_some isUnit with ⟨isId, _⟩ | ⟨isId, _⟩ <;>
      rw [isId, dependencies, listed] <;>
      exact List.mem_map_of_mem (List.mem_append_left _ (List.mem_singleton_self _))
  · rcases unitOf?_eq_some isUnit with ⟨isId, _⟩ | ⟨isId, _⟩ <;> rw [isId]
    · intro sameUnit
      exact notItself (UnitId.context.inj sameUnit)
    · exact UnitId.noConfusion

/-- A unit comes after those of all contexts around its node. -/
theorem ancestors_before (tree : groundwork.graph.Tree) :
    ∀ node ∈ groundwork.graph.nodes, ∀ before after unit, inner = before ++ unit :: after →
      unitOf? groundwork.graph node = some unit.id →
      groundwork.visibility.isEmitted node.id = true →
      ∀ above ∈ groundwork.graph.ancestors node,
        .context above.id ∈ before.map ScheduledUnit.id := by
  refine tree.induction ?_ ?_
  · intro node member isRoot before after unit _ _ _ above listed
    rw [tree.ancestors_root member isRoot] at listed
    cases listed
  · intro node member parent parentMember around inductionHypothesis before after unit split
      isUnit emitted above listed
    have parentBefore := made.parent_before laid tree split member parentMember around isUnit
      emitted
    rw [tree.ancestors_of_parent member parentMember around] at listed
    rcases List.mem_cons.mp listed with rfl | further
    · exact parentBefore
    · obtain ⟨parentUnit, parentListed, parentId⟩ := List.mem_map.mp parentBefore
      obtain ⟨earlier, later, rfl⟩ := List.append_of_mem parentListed
      obtain ⟨parentEmitted, isContext⟩ :=
        laid.decided.isEmitted_parent tree member parentMember around emitted
      have parentIsUnit : unitOf? groundwork.graph parent = some parentUnit.id := by
        unfold unitOf?
        rw [if_pos isContext, parentId]
      have parentSplit : inner = earlier ++ parentUnit :: (later ++ unit :: after) := by
        rw [split, List.append_assoc, List.cons_append]
      have aboveBefore := inductionHypothesis earlier _ parentUnit parentSplit parentIsUnit
        parentEmitted above further
      rw [List.map_append]
      exact List.mem_append_left _ aboveBefore

/-- The unit of a class comes after those of its supertypes. -/
theorem supertypes_before {before after : List ScheduledUnit} {unit : ScheduledUnit}
    (split : inner = before ++ unit :: after) {node : Node} (isUnit : unit.id = .context node.id)
    {supertype : Nat} (registered : supertype ∈ groundwork.inheritance.registered node.id)
    (other : supertype ≠ node.id) :
    .context supertype ∈ before.map ScheduledUnit.id := by
  obtain ⟨configuration, inherited⟩ := laid.inheritance
  obtain ⟨emitted, found, isFound, isClass⟩ :=
    Inheritance.isSupertype_of_registered laid.wired inherited registered
  have sameId := laid.wired.id_eq isFound
  subst supertype
  refine made.context_before laid split (Graph.mem_nodes_of_node? isFound) emitted ?_ ?_ ?_
  · exact DeclarationKind.isContext_iff.mpr (.inr (.inr (.inl isClass)))
  · rw [isUnit, dependencies]
    exact List.mem_map_of_mem (List.mem_append_right _ registered)
  · rw [isUnit]
    intro sameUnit
    exact other (UnitId.context.inj sameUnit)

/-- The unit of an alias comes after that of its target. -/
theorem target_before {before after : List ScheduledUnit} {unit : ScheduledUnit}
    (split : inner = before ++ unit :: after) {node target : Node}
    (member : node ∈ groundwork.graph.nodes)
    (emitted : groundwork.visibility.isEmitted node.id = true)
    (isAlias : node.kind.target = .typeAlias) (isUnit : unit.id = .typeAlias node.id)
    (isTarget : aliasTarget? groundwork.graph node = some target.id)
    (targetMember : target ∈ groundwork.graph.nodes)
    (targetEmitted : groundwork.visibility.isEmitted target.id = true) :
    .context target.id ∈ before.map ScheduledUnit.id := by
  obtain ⟨found, isFound, isSort⟩ := exists_node_of_aliasTarget? isTarget
  have same := laid.wired.eq_of_id_eq (Graph.mem_nodes_of_node? isFound) targetMember
    (laid.wired.id_eq isFound)
  subst found
  refine made.context_before laid split targetMember targetEmitted ?_ ?_ ?_
  · exact DeclarationKind.isContext_iff.mpr (.inr (.inr isSort))
  · rw [isUnit, dependencies, lookup_targets laid member emitted isAlias, isTarget]
    exact List.mem_map_of_mem (List.mem_append_right _ (List.mem_singleton_self _))
  · rw [isUnit]
    exact UnitId.noConfusion

/-- The first unit in order is that of the root. -/
theorem root_first (tree : groundwork.graph.Tree) {first : ScheduledUnit}
    {rest : List ScheduledUnit} (split : inner = first :: rest) :
    first.id = .context Graph.root := by
  have listed : first ∈ inner := by
    rw [split]
    exact List.mem_cons_self
  obtain ⟨node, member, emitted, isUnit⟩ := made.exists_node laid listed
  by_cases isRoot : node.id = Graph.root
  · rcases unitOf?_eq_some isUnit with ⟨isId, _⟩ | ⟨_, isAlias, _⟩
    · rw [isId, isRoot]
    · refine absurd isRoot (tree.ne_root_of_sort member ?_ ?_) <;> rw [isAlias] <;> decide
  · obtain ⟨parent, parentMember, around⟩ := tree.exists_parent member isRoot
    have atStart : inner = [] ++ first :: rest := split
    have before := made.parent_before laid tree atStart member parentMember around isUnit emitted
    cases before

/-- The unit of the root comes first, behind the blocks before everything else. Where
it is missing, nothing is scheduled. -/
theorem rootFirst (tree : groundwork.graph.Tree) :
    schedule.units = [] ∨ ∃ first rest, first.id = .context Graph.root ∧
      (schedule.units = first :: rest ∨
        ∃ early, early.id = .early ∧ schedule.units = early :: first :: rest) := by
  cases isInner : inner with
  | nil =>
      left
      rw [List.eq_nil_iff_forall_not_mem]
      intro unit listed
      have noNode : unit.id.node? = none := by
        rcases made.mem_units.mp listed with early | ordered | postamble
        · rw [eq_of_mem_blockUnit early]
          rfl
        · simp [isInner] at ordered
        · rw [eq_of_mem_blockUnit postamble]
          rfl
      obtain ⟨rootUnit, ordered, _⟩ := made.exists_root_unit laid tree listed noNode
      simp [isInner] at ordered
  | cons first rest =>
      right
      have isUnits := made.units
      rw [isInner] at isUnits
      refine ⟨first, rest ++ blockUnit groundwork .postamble .postamble,
        made.root_first laid tree isInner, ?_⟩
      by_cases noBlocks : (rootBlocks groundwork .early).isEmpty = true
      · left
        simpa [blockUnit, noBlocks] using isUnits
      · right
        refine ⟨⟨.early, rootBlocks groundwork .early⟩, rfl, ?_⟩
        simpa [blockUnit, noBlocks] using isUnits

/-- Every emitted context is scheduled once. -/
theorem count_context {node : Node} (member : node ∈ groundwork.graph.nodes)
    (emitted : groundwork.visibility.isEmitted node.id = true)
    (isContext : node.kind.isContext = true) :
    (schedule.units.map ScheduledUnit.id).count (.context node.id) = 1 := by
  have noBlock {id : UnitId} {placement : Placement} (noNode : id.node? = none) :
      ((blockUnit groundwork id placement).map ScheduledUnit.id).count (.context node.id) = 0 := by
    apply List.count_eq_zero_of_not_mem
    intro listed
    obtain ⟨unit, isBlocks, isId⟩ := List.mem_map.mp listed
    rw [eq_of_mem_blockUnit isBlocks] at isId
    rw [show id = .context node.id from isId] at noNode
    cases noNode
  obtain ⟨unit, ordered, isId⟩ := made.exists_unit laid member emitted isContext
  have inOrder : (inner.map ScheduledUnit.id).count (.context node.id) = 1 := by
    apply List.count_eq_one_of_mem (made.ids_nodup laid)
    rw [← isId]
    exact List.mem_map_of_mem ordered
  simp [made.units, @noBlock .early .early rfl, @noBlock .postamble .postamble rfl, inOrder]

end Made

end Registrar.Schedule

namespace Registrar.Plan

theorem exists_made {configuration : Configuration} {unit : TranslationUnit} {plan : Plan}
    (planned : ofUnit configuration unit = .ok plan) :
    plan.groundwork.Laid ∧ ∃ inner, Schedule.Made plan.groundwork plan.schedule inner := by
  obtain ⟨table, steps⟩ := exists_steps planned
  exact ⟨steps.laid, Schedule.exists_made steps.laid steps.scheduled⟩

end Registrar.Plan
