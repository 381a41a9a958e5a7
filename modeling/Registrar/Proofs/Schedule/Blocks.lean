import Mathlib
import Registrar.Proofs.Schedule.Once

/-!
Contract: where manual blocks are scheduled.

Owns: the unit that a block belongs in, and that every emitted block is scheduled
there once and nowhere else.

Does not own: that blocks before or after everything else are below the root.
-/

set_option autoImplicit false

namespace Registrar

/-- The block that the item is. -/
def Item.block? : Item → Option Nat
  | .manualBlock id => some id
  | _ => none

/-- The blocks among the items of the unit, in order. -/
def ScheduledUnit.blocks (unit : ScheduledUnit) : List Nat := unit.items.filterMap Item.block?

/-- The emitted manual blocks. -/
def Groundwork.emittedBlocks (groundwork : Groundwork) : List Node :=
  (groundwork.graph.nodesOf groundwork.visibility.emitted).filter Item.isManualBlock

/-- A block belongs before everything else, after everything else, or in the unit of the
context around it. -/
def Node.BelongsIn (node : Node) (unit : UnitId) : Prop :=
  match node.marking.placement with
  | some .early => unit = .early
  | some .postamble => unit = .postamble
  | _ => ∃ around, node.parent = some around ∧ unit = .context around

namespace Node

variable {node : Node}

theorem belongsIn_early_iff :
    node.BelongsIn .early ↔ node.marking.placement = some .early := by
  unfold BelongsIn
  split <;> simp_all

theorem belongsIn_postamble_iff :
    node.BelongsIn .postamble ↔ node.marking.placement = some .postamble := by
  unfold BelongsIn
  split <;> simp_all

theorem belongsIn_context_iff {id : Nat} :
    node.BelongsIn (.context id) ↔ (node.marking.placement ≠ some .early ∧
      node.marking.placement ≠ some .postamble) ∧ node.parent = some id := by
  unfold BelongsIn
  split <;> simp_all

theorem not_belongsIn_typeAlias {id : Nat} : ¬ node.BelongsIn (.typeAlias id) := by
  unfold BelongsIn
  split <;> simp

/-- A block belongs in one unit. -/
theorem BelongsIn.unique {first second : UnitId} (inFirst : node.BelongsIn first)
    (inSecond : node.BelongsIn second) : first = second := by
  unfold BelongsIn at inFirst inSecond
  split at inFirst
  · simp_all
  · simp_all
  · obtain ⟨around, isAround, rfl⟩ := inFirst
    obtain ⟨other, isOther, rfl⟩ : ∃ other, node.parent = some other ∧ second = .context other := by
      simp_all
    rw [Option.some.inj (isAround.symm.trans isOther)]

end Node

/-- Blocks before and after everything else are directly below the root. -/
def Graph.OuterBlocksAtRoot (graph : Graph) : Prop :=
  ∀ node ∈ graph.nodes, node.kind.target = .manualBlock →
    (node.marking.placement = some .early ∨ node.marking.placement = some .postamble) →
      node.parent = some root

namespace Item

variable {groundwork : Groundwork} {context : Node}

/-! ## Blocks of one context -/

theorem isInnerBlock_iff {node : Node} : isInnerBlock node = true ↔
    node.kind.target = .manualBlock ∧ node.marking.placement ≠ some .early ∧
      node.marking.placement ≠ some .postamble := by
  simp [isInnerBlock, isManualBlock, and_assoc]

theorem Source.block?_eq_none {item : Item} (source : Source groundwork context item) :
    item.block? = none := by
  cases source <;> rfl

/-- The blocks of a context, in whatever order its items are put. -/
theorem blocks_of_ofContext {ordered : List Item}
    (isOrder : ofContext groundwork context = .ok ordered) :
    (ordered.filterMap block?).Perm
      (((emittedChildren groundwork context).filter isInnerBlock).map fun node => node.id) := by
  have noRegistration : (registrationsOf groundwork context).filterMap (block? ∘ PlacedItem.item) =
      [] := by
    rw [List.filterMap_eq_nil_iff]
    exact fun placed listed => (source_of_mem_registrationsOf listed).block?_eq_none
  have moved := (inOrder_perm isOrder).filterMap block?
  rw [List.filterMap_map, collect, List.filterMap_append, noRegistration, List.nil_append,
    blocksOf, List.filterMap_map] at moved
  rw [← List.filterMap_eq_map]
  exact moved

end Item

namespace Schedule

variable {groundwork : Groundwork}

/-- The emitted blocks at the root with the placement, in source order. -/
def outerBlocks (groundwork : Groundwork) (placement : Placement) : List Node :=
  match groundwork.graph.node? Graph.root with
  | none => []
  | some root =>
      (Item.emittedChildren groundwork root).filter fun node =>
        Item.isManualBlock node && node.marking.placement == some placement

theorem rootBlocks_eq_map (placement : Placement) :
    rootBlocks groundwork placement =
      (outerBlocks groundwork placement).map fun node => .manualBlock node.id := by
  unfold rootBlocks outerBlocks
  cases groundwork.graph.node? Graph.root <;> rfl

theorem blocks_of_rootBlocks (placement : Placement) :
    (rootBlocks groundwork placement).filterMap Item.block? =
      (outerBlocks groundwork placement).map fun node => node.id := by
  rw [rootBlocks_eq_map, List.filterMap_map, ← List.filterMap_eq_map]
  rfl

variable (laid : groundwork.Laid)

include laid

theorem mem_emittedBlocks {node : Node} :
    node ∈ groundwork.emittedBlocks ↔ (node ∈ groundwork.graph.nodes ∧
      groundwork.visibility.isEmitted node.id = true) ∧ node.kind.target = .manualBlock := by
  rw [Groundwork.emittedBlocks, List.mem_filter, mem_emittedNodes laid, Item.isManualBlock,
    beq_iff_eq]

theorem emittedBlocks_nodup : (groundwork.emittedBlocks.map fun node => node.id).Nodup :=
  (ids_emittedNodes_nodup laid).sublist (List.filter_sublist.map _)

/-- The blocks at the root with an outer placement are all that have it. -/
theorem mem_outerBlocks (atRoot : groundwork.graph.OuterBlocksAtRoot) {placement : Placement}
    (isOuter : placement = .early ∨ placement = .postamble) {node : Node} :
    node ∈ outerBlocks groundwork placement ↔
      node ∈ groundwork.emittedBlocks ∧ node.marking.placement = some placement := by
  obtain ⟨root, rootMember, isRoot⟩ := laid.exists_root
  have rootId : root.id = Graph.root := laid.wired.id_eq isRoot
  unfold outerBlocks
  simp only [isRoot]
  rw [List.mem_filter, Item.mem_emittedChildren laid.wired rootMember, mem_emittedBlocks laid,
    Bool.and_eq_true, Item.isManualBlock, beq_iff_eq, beq_iff_eq, rootId]
  constructor
  · rintro ⟨⟨⟨member, _⟩, emitted⟩, isBlock, isPlaced⟩
    exact ⟨⟨⟨member, emitted⟩, isBlock⟩, isPlaced⟩
  · rintro ⟨⟨⟨member, emitted⟩, isBlock⟩, isPlaced⟩
    have isChild := atRoot node member isBlock (by
      rw [isPlaced]
      exact isOuter.imp (congrArg some) (congrArg some))
    exact ⟨⟨⟨member, isChild⟩, emitted⟩, isBlock, isPlaced⟩

theorem outerBlocks_nodup (placement : Placement) :
    ((outerBlocks groundwork placement).map fun node => node.id).Nodup := by
  obtain ⟨root, rootMember, isRoot⟩ := laid.exists_root
  unfold outerBlocks
  rw [isRoot]
  exact Item.selected_nodup laid rootMember _

namespace Made

variable {schedule : Schedule} {inner : List ScheduledUnit}
  (made : Made groundwork schedule inner)

include made

/-! ## All units -/

/-- No unit is scheduled twice. -/
theorem units_nodup : (schedule.units.map ScheduledUnit.id).Nodup := by
  have ofBlocks (id : UnitId) (placement : Placement) :
      ((blockUnit groundwork id placement).map ScheduledUnit.id).Sublist [id] := by
    unfold blockUnit
    dsimp only
    split
    · exact List.nil_sublist _
    · exact List.Sublist.refl _
  have hasNode : ∀ id ∈ inner.map ScheduledUnit.id, id.node?.isSome = true := by
    intro id listed
    obtain ⟨unit, isInner, rfl⟩ := List.mem_map.mp listed
    obtain ⟨node, _, _, isUnit⟩ := made.exists_node laid isInner
    rw [node?_of_unitOf? isUnit, Option.isSome_some]
  have apart : (.early :: (inner.map ScheduledUnit.id ++ [.postamble])).Nodup := by
    rw [List.nodup_cons, List.nodup_append', List.mem_append, List.mem_singleton,
      List.disjoint_singleton]
    refine ⟨?_, made.ids_nodup laid, List.nodup_singleton _, fun listed => ?_⟩
    · rintro (listed | isPostamble)
      · cases hasNode _ listed
      · cases isPostamble
    · cases hasNode _ listed
  rw [made.units, List.append_assoc, List.map_append, List.map_append]
  exact apart.sublist
    ((ofBlocks _ _).append ((List.Sublist.refl _).append (ofBlocks _ _)))

variable (atRoot : groundwork.graph.OuterBlocksAtRoot)

include atRoot

/-- The blocks of a scheduled unit are those that belong in it. -/
theorem mem_blocks_iff {unit : ScheduledUnit} (listed : unit ∈ schedule.units) {id : Nat} :
    id ∈ unit.blocks ↔
      ∃ block ∈ groundwork.emittedBlocks, block.id = id ∧ block.BelongsIn unit.id := by
  rcases made.mem_units.mp listed with early | isInner | postamble
  · rw [eq_of_mem_blockUnit early, ScheduledUnit.blocks, blocks_of_rootBlocks]
    simp only [List.mem_map, mem_outerBlocks laid atRoot (.inl rfl), Node.belongsIn_early_iff,
      and_assoc, and_comm]
  · rcases made.unit_cases laid isInner with
      ⟨node, member, isUnit, _, _, items⟩ | ⟨node, _, isUnit, _, _, _, noItems⟩
    · rw [ScheduledUnit.blocks, (Item.blocks_of_ofContext items).mem_iff, isUnit, List.mem_map]
      simp only [List.mem_filter, Item.mem_emittedChildren laid.wired member,
        Item.isInnerBlock_iff, mem_emittedBlocks laid, Node.belongsIn_context_iff]
      refine exists_congr fun block => ?_
      tauto
    · rw [ScheduledUnit.blocks, noItems, isUnit]
      simp [Node.not_belongsIn_typeAlias]
  · rw [eq_of_mem_blockUnit postamble, ScheduledUnit.blocks, blocks_of_rootBlocks]
    simp only [List.mem_map, mem_outerBlocks laid atRoot (.inr rfl), Node.belongsIn_postamble_iff,
      and_assoc, and_comm]

omit atRoot in
theorem blocks_nodup {unit : ScheduledUnit} (listed : unit ∈ schedule.units) :
    unit.blocks.Nodup := by
  rcases made.mem_units.mp listed with early | isInner | postamble
  · rw [eq_of_mem_blockUnit early, ScheduledUnit.blocks, blocks_of_rootBlocks]
    exact outerBlocks_nodup laid .early
  · rcases made.unit_cases laid isInner with ⟨node, member, _, _, _, items⟩ | isAlias
    · exact (Item.blocks_of_ofContext items).nodup_iff.mpr (Item.selected_nodup laid member _)
    · obtain ⟨_, _, _, _, _, _, noItems⟩ := isAlias
      rw [ScheduledUnit.blocks, noItems]
      exact List.nodup_nil
  · rw [eq_of_mem_blockUnit postamble, ScheduledUnit.blocks, blocks_of_rootBlocks]
    exact outerBlocks_nodup laid .postamble

/-- There is a unit for every emitted block. -/
theorem exists_unit_of_block (tree : groundwork.graph.Tree) {block : Node}
    (isBlock : block ∈ groundwork.emittedBlocks) :
    ∃ unit ∈ schedule.units, block.BelongsIn unit.id := by
  have ofOuter {id : UnitId} {placement : Placement}
      (isOuter : placement = .early ∨ placement = .postamble)
      (isPlaced : block.marking.placement = some placement) :
      ⟨id, rootBlocks groundwork placement⟩ ∈ blockUnit groundwork id placement := by
    have listed := (mem_outerBlocks laid atRoot isOuter).mpr ⟨isBlock, isPlaced⟩
    have nonempty : rootBlocks groundwork placement ≠ [] := by
      rw [rootBlocks_eq_map]
      exact List.ne_nil_of_mem (List.mem_map_of_mem listed)
    unfold blockUnit
    simp [nonempty]
  by_cases isEarly : block.marking.placement = some .early
  · exact ⟨_, made.mem_units.mpr (.inl (ofOuter (.inl rfl) isEarly)),
      Node.belongsIn_early_iff.mpr isEarly⟩
  by_cases isPostamble : block.marking.placement = some .postamble
  · exact ⟨_, made.mem_units.mpr (.inr (.inr (ofOuter (.inr rfl) isPostamble))),
      Node.belongsIn_postamble_iff.mpr isPostamble⟩
  obtain ⟨⟨member, emitted⟩, isManual⟩ := (mem_emittedBlocks laid).mp isBlock
  have below : block.id ≠ Graph.root :=
    tree.ne_root_of_sort member (by rw [isManual]; decide) (by rw [isManual]; decide)
  obtain ⟨around, aroundMember, isAround⟩ := tree.exists_parent member below
  obtain ⟨aroundEmitted, isContext⟩ :=
    laid.decided.isEmitted_parent tree member aroundMember isAround emitted
  obtain ⟨unit, isInner, isUnit⟩ := made.exists_unit laid aroundMember aroundEmitted isContext
  refine ⟨unit, made.mem_units.mpr (.inr (.inl isInner)), ?_⟩
  rw [isUnit]
  exact Node.belongsIn_context_iff.mpr ⟨⟨isEarly, isPostamble⟩, isAround⟩

/-- Every emitted block is scheduled once. -/
theorem blocks_perm (tree : groundwork.graph.Tree) :
    (schedule.units.flatMap ScheduledUnit.blocks).Perm
      (groundwork.emittedBlocks.map fun node => node.id) := by
  have distinct : (schedule.units.flatMap ScheduledUnit.blocks).Nodup := by
    rw [List.nodup_flatMap]
    refine ⟨fun unit listed => made.blocks_nodup laid listed, ?_⟩
    have unitsApart := made.units_nodup laid
    rw [List.Nodup, List.pairwise_map] at unitsApart
    refine unitsApart.imp_of_mem ?_
    intro first second isFirst isSecond different id inFirst inSecond
    obtain ⟨block, isBlock, isId, ofFirst⟩ :=
      (made.mem_blocks_iff laid atRoot isFirst).mp inFirst
    obtain ⟨other, isOther, sameId, ofSecond⟩ :=
      (made.mem_blocks_iff laid atRoot isSecond).mp inSecond
    have same : block = other := laid.wired.eq_of_id_eq ((mem_emittedBlocks laid).mp isBlock).1.1
      ((mem_emittedBlocks laid).mp isOther).1.1 (isId.trans sameId.symm)
    rw [← same] at ofSecond
    exact different (ofFirst.unique ofSecond)
  rw [List.perm_ext_iff_of_nodup distinct (emittedBlocks_nodup laid)]
  intro id
  rw [List.mem_flatMap, List.mem_map]
  constructor
  · rintro ⟨unit, listed, isBlock⟩
    obtain ⟨block, emitted, isId, _⟩ := (made.mem_blocks_iff laid atRoot listed).mp isBlock
    exact ⟨block, emitted, isId⟩
  · rintro ⟨block, emitted, isId⟩
    obtain ⟨unit, listed, belongs⟩ := made.exists_unit_of_block laid atRoot tree emitted
    exact ⟨unit, listed,
      (made.mem_blocks_iff laid atRoot listed).mpr ⟨block, emitted, isId, belongs⟩⟩

end Made

end Schedule

end Registrar
