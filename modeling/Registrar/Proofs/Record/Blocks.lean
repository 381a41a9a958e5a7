import Mathlib
import Registrar.Proofs.Graph.Blocks
import Registrar.Proofs.Hidden
import Registrar.Proofs.Schedule.Blocks

/-!
Contract: the records of manual blocks.

Owns: that every emitted block is written out once, in the records of the unit that
it belongs in, and that those before and after everything else frame all records.

Does not own: where a block stands among the items of its context.
-/

set_option autoImplicit false

namespace Registrar

namespace Record

/-- Whether the record writes out a manual block. -/
def isBlock : Record → Bool
  | manualBlock _ _ => true
  | _ => false

/-- The record writes out the block with the number. -/
def WritesBlock (graph : Graph) (id : Nat) (record : Record) : Prop :=
  ∃ node scope body, graph.node? id = some node ∧ node.kind = .manualBlock body ∧
    record = manualBlock scope body

/-- The records write out the emitted blocks with the placement and nothing else, in
source order. -/
def WritesPlaced (groundwork : Groundwork) (placement : Placement) (records : List Record) :
    Prop :=
  ∃ blocks : List Node,
    blocks.Perm (groundwork.emittedBlocks.filter fun block =>
      block.marking.placement == some placement) ∧
    (blocks.Pairwise fun left right =>
      Entity.sourceOrder left.toEntity right.toEntity = true) ∧
    List.Forall₂ (fun block record => WritesBlock groundwork.graph block.id record) blocks records

variable {groundwork : Groundwork} {configuration : Configuration} {context : Node}
  {scope : String}

/-! ## One unit -/

/-- An item that is a block is written out, and no other item is. -/
theorem Writes.block {item : Item} {record : Record}
    (writes : Writes groundwork configuration context scope item record) :
    (∃ id, item.block? = some id ∧ record.isBlock = true ∧
        WritesBlock groundwork.graph id record) ∨
      item.block? = none ∧ record.isBlock = false := by
  have registers := writes.registers
  cases item with
  | member used =>
      obtain ⟨declared, _, named⟩ := registers
      cases record <;> simp_all [memberName?, isBlock, Item.block?]
  | constructors nodes =>
      obtain ⟨inScope, overloads, rfl, _⟩ := registers
      exact .inr ⟨rfl, rfl⟩
  | property name =>
      obtain ⟨stored, property, getter, rfl, _⟩ := registers
      exact .inr ⟨rfl, rfl⟩
  | manualBlock id =>
      obtain ⟨declared, inScope, body, found, isManual, rfl⟩ := registers
      exact .inl ⟨id, rfl, rfl, declared, inScope, body, found, isManual, rfl⟩

/-- Of the records of items those of blocks write out the blocks, in order. -/
theorem forall₂_blocks {items : List Item} {records : List Record}
    (written : List.Forall₂ (Writes groundwork configuration context scope) items records) :
    List.Forall₂ (WritesBlock groundwork.graph) (items.filterMap Item.block?)
      (records.filter isBlock) := by
  induction written with
  | nil => exact .nil
  | @cons item record items records writes _ inductionHypothesis =>
      rcases writes.block with ⟨id, isId, isOne, writesBlock⟩ | ⟨isNone, notOne⟩
      · rw [List.filterMap_cons_some isId, List.filter_cons_of_pos isOne]
        exact .cons writesBlock inductionHypothesis
      · rw [List.filterMap_cons_none isNone, List.filter_cons_of_neg (by simp [notOne])]
        exact inductionHypothesis

theorem not_isBlock_of_opens? {record : Record} {identifier : String}
    (opens : record.opens? = some identifier) : ¬ record.isBlock = true := by
  cases record <;> simp_all [opens?, isBlock]

/-- The records of blocks of a unit write out its blocks, in order. -/
theorem Shape.forall₂_blocks {unit : ScheduledUnit} {records : List Record}
    (shape : Shape groundwork configuration unit records) :
    List.Forall₂ (WritesBlock groundwork.graph) unit.blocks (records.filter isBlock) := by
  cases shape with
  | opened isUnit member isOpen opens isOpening written =>
      rw [List.cons_append, List.filter_cons_of_neg (not_isBlock_of_opens? opens),
        List.filter_append, List.filter_singleton]
      simpa [isBlock, ScheduledUnit.blocks] using Record.forall₂_blocks written
  | items member isUnit written => exact Record.forall₂_blocks written
  | typeAlias isUnit member noItems =>
      rw [ScheduledUnit.blocks, noItems]
      exact .nil

/-! ## The records around all others -/

/-- A unit for blocks before or after everything else has their records only. -/
theorem Shape.forall₂_outerBlocks {unit : ScheduledUnit} {records : List Record}
    (shape : Shape groundwork configuration unit records) {id : UnitId} {placement : Placement}
    (isOuter : id.node? = none)
    (isUnit : unit = ⟨id, Schedule.rootBlocks groundwork placement⟩) :
    List.Forall₂ (fun block record => WritesBlock groundwork.graph block.id record)
      (Schedule.outerBlocks groundwork placement) records := by
  subst isUnit
  cases shape with
  | opened isId =>
      rw [show id = _ from isId] at isOuter
      cases isOuter
  | typeAlias isId =>
      rw [show id = _ from isId] at isOuter
      cases isOuter
  | items member _ written =>
      rw [Schedule.rootBlocks_eq_map, List.forall₂_map_left_iff] at written
      refine written.imp fun block record writes => ?_
      rcases writes.block with ⟨_, isId, _, writesBlock⟩ | ⟨isNone, _⟩
      · rwa [← Option.some.inj isId] at writesBlock
      · cases isNone

/-- The blocks before or after everything else are written out where their unit is
scheduled. -/
theorem forall₂_blockUnit {stretches : List (ScheduledUnit × List Record)} {id : UnitId}
    {placement : Placement} (isOuter : id.node? = none)
    (units : stretches.map Prod.fst = Schedule.blockUnit groundwork id placement)
    (shapes : ∀ stretch ∈ stretches, Shape groundwork configuration stretch.1 stretch.2) :
    List.Forall₂ (fun block record => WritesBlock groundwork.graph block.id record)
      (Schedule.outerBlocks groundwork placement) (stretches.flatMap Prod.snd) := by
  unfold Schedule.blockUnit at units
  dsimp only at units
  split at units
  · rename_i noBlocks
    rw [Schedule.rootBlocks_eq_map, List.isEmpty_iff, List.map_eq_nil_iff] at noBlocks
    rw [noBlocks, List.map_eq_nil_iff.mp units]
    exact .nil
  · obtain ⟨stretch, rfl, isUnit⟩ := List.map_eq_singleton_iff.mp units
    rw [List.flatMap_singleton]
    exact (shapes stretch (List.mem_singleton_self _)).forall₂_outerBlocks isOuter isUnit

/-- The blocks at the root that have an outer placement are all that have it, in source
order. -/
theorem writesPlaced_of_forall₂ (laid : groundwork.Laid)
    (atRoot : groundwork.graph.OuterBlocksAtRoot)
    (sorted : ∀ node ∈ groundwork.graph.nodes,
      (groundwork.graph.childrenOf node).Pairwise fun left right =>
        Entity.sourceOrder left.toEntity right.toEntity = true)
    {placement : Placement} (isOuter : placement = .early ∨ placement = .postamble)
    {records : List Record}
    (written : List.Forall₂ (fun block record => WritesBlock groundwork.graph block.id record)
      (Schedule.outerBlocks groundwork placement) records) :
    WritesPlaced groundwork placement records := by
  refine ⟨_, ?_, ?_, written⟩
  · have placedNodup : ((groundwork.emittedBlocks.filter fun block =>
        block.marking.placement == some placement)).Nodup :=
      ((Schedule.emittedBlocks_nodup laid).of_map _).filter _
    rw [List.perm_ext_iff_of_nodup ((Schedule.outerBlocks_nodup laid placement).of_map _)
      placedNodup]
    intro block
    rw [Schedule.mem_outerBlocks laid atRoot isOuter, List.mem_filter, beq_iff_eq]
  · obtain ⟨root, rootMember, isRoot⟩ := laid.exists_root
    unfold Schedule.outerBlocks
    rw [isRoot]
    exact (sorted root rootMember).sublist (List.filter_sublist.trans List.filter_sublist)

end Record

namespace Plan

/-- The manual blocks of a plan are written out, each where it belongs. -/
structure FramesBlocks (configuration : Configuration) (plan : Plan) : Prop where
  /-- Every emitted block is scheduled once, and nothing else as a block. -/
  once : (plan.schedule.units.flatMap ScheduledUnit.blocks).Perm
    (plan.groundwork.emittedBlocks.map fun node => node.id)
  /-- The scheduled blocks become the records of blocks, one each. -/
  written : List.Forall₂ (Record.WritesBlock plan.groundwork.graph)
    (plan.schedule.units.flatMap ScheduledUnit.blocks)
    ((plan.records configuration).filter Record.isBlock)
  /-- The records of a unit write out its blocks. -/
  unitByUnit : (plan.stretches configuration).map Prod.fst = plan.schedule.units ∧
    plan.records configuration = (plan.stretches configuration).flatMap Prod.snd ∧
    ∀ stretch ∈ plan.stretches configuration,
      List.Forall₂ (Record.WritesBlock plan.groundwork.graph) stretch.1.blocks
        (stretch.2.filter Record.isBlock)
  /-- A block is in the unit where it belongs, and in no other. -/
  placed : ∀ block ∈ plan.groundwork.emittedBlocks, ∀ unit ∈ plan.schedule.units,
    block.id ∈ unit.blocks ↔ block.BelongsIn unit.id
  /-- The blocks before everything else come first of all records, and those after
  everything else last. -/
  framed : ∃ early inner postamble, plan.records configuration = early ++ inner ++ postamble ∧
    Record.WritesPlaced plan.groundwork .early early ∧
    Record.WritesPlaced plan.groundwork .postamble postamble

variable {configuration : Configuration} {unit : TranslationUnit} {plan : Plan}

/-- Every emitted manual block is written out once, those before and after everything else
around all other records, and every other one with the context around it. -/
theorem records_frameBlocks (planned : ofUnit configuration unit = .ok plan)
    (ends : plan.groundwork.graph.WalkEnds) : FramesBlocks configuration plan := by
  obtain ⟨table, steps⟩ := exists_steps planned
  obtain ⟨inner, made⟩ := Schedule.exists_made steps.laid steps.scheduled
  have laid := steps.laid
  have tree := laid.wired.tree ends
  have atRoot : plan.groundwork.graph.OuterBlocksAtRoot := fun _ member isBlock placed =>
    Graph.parent_of_outerBlock steps.marked steps.built member isBlock placed
  have units := map_fst_stretches configuration plan
  have shapes : ∀ stretch ∈ plan.stretches configuration,
      Record.Shape plan.groundwork configuration stretch.1 stretch.2 :=
    fun stretch listed => Record.shape_of_mem_stretches laid made listed
  have unitByUnit : ∀ stretch ∈ plan.stretches configuration,
      List.Forall₂ (Record.WritesBlock plan.groundwork.graph) stretch.1.blocks
        (stretch.2.filter Record.isBlock) :=
    fun stretch listed => (shapes stretch listed).forall₂_blocks
  have sorted : ∀ node ∈ plan.groundwork.graph.nodes,
      (plan.groundwork.graph.childrenOf node).Pairwise fun left right =>
        Entity.sourceOrder left.toEntity right.toEntity = true :=
    fun _ member => Graph.childrenOf_sorted steps.built member
  refine {
    once := made.blocks_perm laid atRoot tree
    written := forall₂_records unitByUnit
    unitByUnit := ⟨units, records_eq_flatMap configuration plan, unitByUnit⟩
    placed := ?_
    framed := ?_ }
  · intro block isBlock scheduled listed
    rw [made.mem_blocks_iff laid atRoot listed]
    constructor
    · rintro ⟨other, isOther, sameId, belongs⟩
      rwa [laid.wired.eq_of_id_eq ((Schedule.mem_emittedBlocks laid).mp isOther).1.1
        ((Schedule.mem_emittedBlocks laid).mp isBlock).1.1 sameId] at belongs
    · intro belongs
      exact ⟨block, isBlock, rfl, belongs⟩
  · have split := units
    rw [made.units] at split
    obtain ⟨others, last, isSplit, isOthers, isLast⟩ := List.map_eq_append_iff.mp split
    obtain ⟨first, middle, rfl, isFirst, _⟩ := List.map_eq_append_iff.mp isOthers
    rw [isSplit] at shapes
    refine ⟨first.flatMap Prod.snd, middle.flatMap Prod.snd, last.flatMap Prod.snd, ?_, ?_, ?_⟩
    · rw [records_eq_flatMap, isSplit, List.flatMap_append, List.flatMap_append]
    · refine Record.writesPlaced_of_forall₂ laid atRoot sorted (.inl rfl)
        (Record.forall₂_blockUnit rfl isFirst fun stretch listed => shapes stretch ?_)
      simp [listed]
    · refine Record.writesPlaced_of_forall₂ laid atRoot sorted (.inr rfl)
        (Record.forall₂_blockUnit rfl isLast fun stretch listed => shapes stretch ?_)
      simp [listed]

/-- A block after everything else, one in a namespace, and one before everything else. -/
def framedBlocks : TranslationUnit where
  root := { id := 0, kind := .translationUnit, order := 0 }
  others :=
    [ { id := 1, kind := .manualBlock "last();", parent := some 0, order := 1
        payloads := [.text "postamble"] },
      { id := 2, kind := .namespace false, name := "n", qualifiedName := "n", parent := some 0
        order := 2 },
      { id := 3, kind := .manualBlock "within();", parent := some 2, order := 3 },
      { id := 4, kind := .manualBlock "first();", parent := some 0, order := 4
        payloads := [.text "early"] } ]
  valid := by decide

theorem framedBlocks_areFramed :
    ∃ plan, ofUnit {} framedBlocks = .ok plan ∧ plan.groundwork.graph.WalkEnds ∧
      plan.groundwork.emittedBlocks.length = 3 ∧ FramesBlocks {} plan := by
  have isPlanned : (ofUnit {} framedBlocks).toOption.any
      (fun plan => plan.groundwork.graph.parentLink Graph.root == none &&
        plan.groundwork.emittedBlocks.length == 3) = true := by cbv
  obtain ⟨plan, planned, holds⟩ := exists_of_any isPlanned
  rw [Bool.and_eq_true, beq_iff_eq, beq_iff_eq] at holds
  obtain ⟨outermost, three⟩ := holds
  have ends := ((exists_made planned).1.wired.tree_of_outermost outermost).walkEnds
  exact ⟨plan, planned, ends, three, records_frameBlocks planned ends⟩

end Plan

end Registrar
