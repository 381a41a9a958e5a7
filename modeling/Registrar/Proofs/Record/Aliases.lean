import Mathlib
import Registrar.Proofs.Graph.Aliases
import Registrar.Proofs.Hidden
import Registrar.Proofs.Schedule.Blocks
import Registrar.Proofs.Warnings

/-!
Contract: what becomes of aliases.

Owns: that every emitted alias is either written out once or warned of once, by
whether it is an alias of a class or enumeration, and that nothing becomes of any
other alias.

Does not own: where the record of an alias stands.
-/

set_option autoImplicit false

namespace Registrar

/-- The alias that the unit is for. -/
def UnitId.alias? : UnitId → Option Nat
  | .typeAlias node => some node
  | _ => none

/-- The aliases that are scheduled, in order. -/
def Schedule.aliases (schedule : Schedule) : List Nat :=
  schedule.units.filterMap fun unit => unit.id.alias?

/-- The emitted aliases. -/
def Groundwork.emittedAliases (groundwork : Groundwork) : List Node :=
  Schedule.emittedAliases groundwork.graph groundwork.visibility

/-! ## Aliases that moved their targets -/

/-- A node that another one moved is noted there. -/
theorem Graph.relocates_of_relocatedBy {unit : TranslationUnit} {table : MarkingTable}
    {graph : Graph} (built : ofUnit unit table = .ok graph) {node mover : Node}
    (member : node ∈ graph.nodes) (isMover : mover ∈ graph.nodes)
    (moved : node.relocatedBy = some mover.id) (other : node.id ≠ mover.id) :
    mover.relocates.isSome = true := by
  obtain ⟨entity, isEntity, rfl⟩ := exists_entity_of_mem built member
  obtain ⟨asking, isAsking, rfl⟩ := exists_entity_of_mem built isMover
  obtain ⟨move, found, requestedBy⟩ := Option.map_eq_some_iff.mp moved
  have isTarget : move.target = entity.id := by simpa using List.find?_some found
  refine (Option.isSome_map ..).trans (List.find?_isSome.mpr ⟨move, ?_, ?_⟩)
  · exact List.mem_of_find?_eq_some found
  · rw [Bool.and_eq_true, beq_iff_eq, bne_iff_ne, isTarget]
    exact ⟨requestedBy, other⟩

/-- An alias that moved its target is not emitted. -/
theorem Visibility.Decided.not_isEmitted_of_relocates {graph : Graph} {visibility : Visibility}
    (decided : visibility.Decided graph) (wired : graph.Wired) {node : Node}
    (member : node ∈ graph.nodes) (isAlias : node.kind.target = .typeAlias)
    (relocates : node.relocates.isSome = true) : ¬ visibility.isEmitted node.id = true := by
  obtain ⟨isVisible, emitted⟩ := decided
  rw [isEmitted_iff_emits wired emitted member, emits, ← Nat.sub_add_cancel wired.nonempty,
    emitsInScope]
  cases kind : node.kind <;> simp [kind, DeclarationKind.target] at isAlias
  simp [DeclarationKind.target, Option.isNone_eq_false_iff.mpr relocates]

namespace Schedule

variable {groundwork : Groundwork} (laid : groundwork.Laid)

include laid

/-! ## Scheduled aliases -/

theorem mem_emittedAliases {node : Node} :
    node ∈ groundwork.emittedAliases ↔
      (node ∈ groundwork.graph.nodes ∧ groundwork.visibility.isEmitted node.id = true) ∧
        node.kind.target = .typeAlias := by
  unfold Groundwork.emittedAliases Schedule.emittedAliases
  rw [List.mem_filter, mem_emittedNodes laid, beq_iff_eq]

namespace Made

variable {schedule : Schedule} {inner : List ScheduledUnit}
  (made : Made groundwork schedule inner)

include made

/-- The scheduled aliases are the emitted ones that have a target. -/
theorem mem_aliases_iff {id : Nat} :
    id ∈ schedule.aliases ↔ ∃ node ∈ groundwork.emittedAliases, node.id = id ∧
      (aliasTarget? groundwork.graph node).isSome = true := by
  unfold aliases
  rw [List.mem_filterMap]
  constructor
  · rintro ⟨unit, listed, isAlias⟩
    have isUnit : unit.id = .typeAlias id := by
      cases sort : unit.id <;> simp [sort, UnitId.alias?] at isAlias ⊢
      exact isAlias
    rcases made.mem_units.mp listed with early | isInner | postamble
    · rw [eq_of_mem_blockUnit early] at isUnit
      cases isUnit
    · rcases made.unit_cases laid isInner with
        ⟨node, _, isContext, _⟩ | ⟨node, member, isId, emitted, target, hasTarget, _⟩
      · rw [isContext] at isUnit
        cases isUnit
      · rw [isUnit, UnitId.typeAlias.injEq] at isId
        exact ⟨node, (mem_emittedAliases laid).mpr ⟨⟨member, emitted⟩, target⟩, isId.symm,
          hasTarget⟩
    · rw [eq_of_mem_blockUnit postamble] at isUnit
      cases isUnit
  · rintro ⟨node, listed, rfl, hasTarget⟩
    obtain ⟨⟨member, emitted⟩, isAlias⟩ := (mem_emittedAliases laid).mp listed
    have isUnit : unitOf? groundwork.graph node = some (.typeAlias node.id) := by
      have noContext : node.kind.isContext = false := by
        cases kind : node.kind <;> simp [kind, DeclarationKind.target] at isAlias
        rfl
      simp [unitOf?, noContext, isAlias, hasTarget]
    have isOrdered := made.perm.mem_iff.mpr
      ((mem_unitsOf laid).mpr ⟨node, member, emitted, isUnit⟩)
    obtain ⟨unit, isInner, isId⟩ := List.mem_map.mp isOrdered
    exact ⟨unit, made.mem_units.mpr (.inr (.inl isInner)), by rw [isId, UnitId.alias?]⟩

/-- No alias is scheduled twice. -/
theorem aliases_nodup : schedule.aliases.Nodup := by
  have isMap : schedule.aliases =
      (schedule.units.map ScheduledUnit.id).filterMap UnitId.alias? := by
    rw [List.filterMap_map]
    rfl
  rw [isMap]
  refine (made.units_nodup laid).filterMap fun left right node isLeft isRight => ?_
  cases left <;> cases right <;> simp_all [UnitId.alias?]

end Made

end Schedule

/-! ## Records of aliases -/

namespace Record

/-- Whether the record gives a class or enumeration a second name. -/
def isAlias : Record → Bool
  | .typeAlias _ => true
  | _ => false

/-- The record gives the class or enumeration that the alias with the number is an alias
of the name of the alias. -/
def WritesAlias (groundwork : Groundwork) (id : Nat) (record : Record) : Prop :=
  ∃ node target named, groundwork.graph.node? id = some node ∧
    groundwork.graph.IsAliasOf node target ∧ record = .typeAlias named ∧
    named.name = groundwork.visibility.exposedName id ∧
    named.qualifiedName = node.qualifiedName ∧
    named.targetQualifiedName = target.qualifiedName

variable {groundwork : Groundwork} {configuration : Configuration}

theorem not_isAlias_of_opens? {record : Record} {identifier : String}
    (opens : record.opens? = some identifier) : ¬ record.isAlias = true := by
  cases record <;> simp_all [opens?, isAlias]

theorem not_isAlias_of_isItem {record : Record} (isItem : record.isItem = true) :
    ¬ record.isAlias = true := by
  cases record <;> simp_all [Record.isItem, isAlias]

/-- The records of items are not of aliases. -/
theorem filter_isAlias_of_writes {context : Node} {scope : String} {items : List Item}
    {records : List Record}
    (written : List.Forall₂ (Writes groundwork configuration context scope) items records) :
    records.filter isAlias = [] := by
  refine List.filter_eq_nil_iff.mpr fun record listed => ?_
  exact not_isAlias_of_isItem (isItem_of_writes written record listed).1

/-- A unit that is for an alias writes it out, and no other unit writes one out. -/
theorem Stretch.forall₂_alias {scopes after : Scopes} {unit : ScheduledUnit}
    {records : List Record}
    (stretch : Stretch groundwork configuration scopes unit records after)
    (laid : groundwork.Laid)
    (rootPlain : ∀ root, groundwork.graph.node? Graph.root = some root →
      root.kind.target ≠ .typeAlias) :
    List.Forall₂ (WritesAlias groundwork) unit.id.alias?.toList (records.filter isAlias) := by
  cases stretch with
  | blocks isBlocks isRoot written =>
      rw [filter_isAlias_of_writes written]
      rcases isBlocks with isId | isId <;> rw [isId] <;> exact .nil
  | opened isUnit member isOpen opens written =>
      rw [isUnit, List.cons_append,
        List.filter_cons_of_neg (not_isAlias_of_opens? opens.opens?_eq),
        List.filter_append, filter_isAlias_of_writes written]
      exact .nil
  | transparent isUnit member isOpen written =>
      rw [isUnit, filter_isAlias_of_writes written]
      exact .nil
  | @typeAlias node target isUnit member targetMember emitted isAlias isTarget noItems =>
      obtain ⟨found, isFound, isAliasOf⟩ :=
        (Graph.aliasTarget?_eq_some_iff laid.wired rootPlain).mp isTarget
      rw [laid.wired.node?_id targetMember, Option.some.injEq] at isFound
      rw [← isFound] at isAliasOf
      rw [isUnit]
      exact .cons ⟨node, target, _, laid.wired.node?_id member, isAliasOf, rfl, rfl, rfl, rfl⟩ .nil

end Record

namespace Plan

/-- Every emitted alias of a plan is written out or warned of, and no other alias is. -/
structure KeepsAliases (configuration : Configuration) (plan : Plan) : Prop where
  /-- Every emitted alias of a class or enumeration is scheduled once, and no other. -/
  once : plan.schedule.aliases.Nodup ∧ ∀ id, id ∈ plan.schedule.aliases ↔
    ∃ node ∈ plan.groundwork.emittedAliases, node.id = id ∧
      ∃ target, plan.groundwork.graph.IsAliasOf node target
  /-- The scheduled aliases become the records of aliases, one each. -/
  written : List.Forall₂ (Record.WritesAlias plan.groundwork) plan.schedule.aliases
    ((plan.records configuration).filter Record.isAlias)
  /-- The record of an alias is that of the unit for the alias. -/
  unitByUnit : (plan.stretches configuration).map Prod.fst = plan.schedule.units ∧
    plan.records configuration = (plan.stretches configuration).flatMap Prod.snd ∧
    ∀ stretch ∈ plan.stretches configuration,
      List.Forall₂ (Record.WritesAlias plan.groundwork) stretch.1.id.alias?.toList
        (stretch.2.filter Record.isAlias)
  /-- Every emitted alias of anything else, or of nothing, is warned of once, and no
  other. -/
  warned : ∃ unresolved : List Node, (unresolved.map fun node => node.id).Nodup ∧
    (∀ node, node ∈ unresolved ↔ node ∈ plan.groundwork.emittedAliases ∧
      ¬ ∃ target, plan.groundwork.graph.IsAliasOf node target) ∧
    (plan.warnings.filter fun warning => warning.category == "unresolved-alias-target") =
      unresolved.map Schedule.unresolvedWarning
  /-- An alias that moved its target is not emitted, so nothing becomes of it. -/
  moved : ∀ node ∈ plan.groundwork.graph.nodes, ∀ target ∈ plan.groundwork.graph.nodes,
    node.kind.target = .typeAlias → target.relocatedBy = some node.id → target.id ≠ node.id →
    node ∉ plan.groundwork.emittedAliases

variable {configuration : Configuration} {unit : TranslationUnit} {plan : Plan}

/-- Every emitted alias is written out once where it is one of a class or enumeration, and
warned of once where it is not. -/
theorem records_keepAliases (planned : ofUnit configuration unit = .ok plan) :
    KeepsAliases configuration plan := by
  obtain ⟨table, steps⟩ := exists_steps planned
  obtain ⟨inner, made⟩ := Schedule.exists_made steps.laid steps.scheduled
  have laid := steps.laid
  have rootPlain := Graph.root_notAlias steps.built
  have hasTarget (node : Node) :
      (Schedule.aliasTarget? plan.groundwork.graph node).isSome = true ↔
        ∃ target, plan.groundwork.graph.IsAliasOf node target := by
    rw [Option.isSome_iff_exists]
    simp only [Graph.aliasTarget?_eq_some_iff laid.wired rootPlain]
    constructor
    · rintro ⟨_, target, _, isAliasOf⟩
      exact ⟨target, isAliasOf⟩
    · rintro ⟨target, isAliasOf⟩
      obtain ⟨spelling, _, stands, _⟩ := id isAliasOf
      obtain ⟨⟨last, named⟩, _⟩ := stands.exists_named
      exact ⟨target.id, target, ((Graph.named?_eq_some_iff laid.wired).mp named).2, isAliasOf⟩
  have unitByUnit : ∀ stretch ∈ plan.stretches configuration,
      List.Forall₂ (Record.WritesAlias plan.groundwork) stretch.1.id.alias?.toList
        (stretch.2.filter Record.isAlias) := by
    intro stretch listed
    obtain ⟨isScheduled, begun, isStretch⟩ := Record.mem_stretches listed
    rw [isStretch]
    exact (Record.ofUnit_stretch laid made begun isScheduled).forall₂_alias laid rootPlain
  refine {
    once := ⟨made.aliases_nodup laid, fun id => ?_⟩
    written := ?_
    unitByUnit := ⟨map_fst_stretches configuration plan, records_eq_flatMap configuration plan,
      unitByUnit⟩
    warned := ⟨_, ?_, fun node => ?_, unresolvedWarnings_eq planned⟩
    moved := ?_ }
  · rw [made.mem_aliases_iff laid]
    simp only [hasTarget]
  · rw [Schedule.aliases, List.filterMap_eq_flatMap_toList]
    exact forall₂_records unitByUnit
  · exact (Schedule.ids_emittedNodes_nodup laid).sublist
      ((List.filter_sublist.trans List.filter_sublist).map _)
  · rw [List.mem_filter, ← hasTarget, Option.not_isSome_iff_eq_none, Option.isNone_iff_eq_none]
    rfl
  · intro node member target targetMember isAlias relocatedBy other listed
    refine laid.decided.not_isEmitted_of_relocates laid.wired member isAlias ?_
      ((Schedule.mem_emittedAliases laid).mp listed).1.2
    exact Graph.relocates_of_relocatedBy steps.built targetMember member relocatedBy other

/-- A class with an alias of it inside. -/
def aliasedClass : TranslationUnit where
  root := { id := 0, kind := .translationUnit, order := 0 }
  others :=
    [ { id := 1, kind := .class [] none, name := "A", qualifiedName := "A", parent := some 0
        order := 1, payloads := [.text "visible"] },
      { id := 2, kind := .typeAlias (some "A"), name := "Self", qualifiedName := "A::Self"
        parent := some 1, order := 2, payloads := [.text "visible"] } ]
  valid := by decide

theorem aliasedClass_keepsAliases :
    ∃ plan, ofUnit {} aliasedClass = .ok plan ∧ plan.schedule.aliases = [2] ∧
      KeepsAliases {} plan := by
  have isPlanned : (ofUnit {} aliasedClass).toOption.any
      (fun plan => plan.schedule.aliases == [2]) = true := by decide +kernel
  obtain ⟨plan, planned, aliases⟩ := exists_of_any isPlanned
  exact ⟨plan, planned, beq_iff_eq.mp aliases, records_keepAliases planned⟩

end Plan

end Registrar
