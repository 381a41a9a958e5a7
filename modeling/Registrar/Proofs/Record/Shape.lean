import Mathlib
import Registrar.Proofs.Record.Places

/-!
Contract: the shape of the records of a plan.

Owns: that every emitted context is scheduled once, that every item that is
scheduled becomes one record, and that a context is closed before another one is
opened.

Does not own: which scopes records name.
-/

set_option autoImplicit false

namespace Registrar

/-- The sort of declaration that is opened as the context. -/
def ContextSort.target : ContextSort → Target
  | root => .translationUnit
  | module => .namespace
  | .class _ _ _ => .class

namespace Record

/-- The record opens a context of the sort of the node, under its name. -/
def IsOpeningOf (node : Node) : Record → Prop
  | contextOpen opened =>
      opened.sort.target = node.kind.target ∧ opened.qualifiedName = node.qualifiedName
  | enum opened => node.kind.target = .enum ∧ opened.qualifiedName = node.qualifiedName
  | _ => False

/-- What becomes of a unit. A context that opens a scope is opened, its items follow
one by one, and it is closed. Items of other units follow without being opened, and
an alias is a record of its own. -/
inductive Shape (groundwork : Groundwork) (configuration : Configuration)
    (unit : ScheduledUnit) : List Record → Prop where
  | opened {node : Node} {identifier : String} {first : Record} {body : List Record}
      {exportValues : Bool} (isUnit : unit.id = .context node.id)
      (member : node ∈ groundwork.graph.nodes) (isOpen : node.opensScope = true)
      (opens : first.opens? = some identifier) (isOpening : IsOpeningOf node first)
      (written : List.Forall₂ (Writes groundwork configuration node identifier) unit.items body) :
      Shape groundwork configuration unit (first :: body ++ [contextClose identifier exportValues])
  | items {node : Node} {scope : String} {records : List Record}
      (member : node ∈ groundwork.graph.nodes)
      (isUnit : (unit.id = .context node.id ∧ node.opensScope = false) ∨
        ((unit.id = .early ∨ unit.id = .postamble) ∧ node.id = Graph.root))
      (written : List.Forall₂ (Writes groundwork configuration node scope) unit.items records) :
      Shape groundwork configuration unit records
  | typeAlias {node : Node} {named : AliasRecord} (isUnit : unit.id = .typeAlias node.id)
      (member : node ∈ groundwork.graph.nodes) (noItems : unit.items = [])
      (isNamed : named.qualifiedName = node.qualifiedName) :
      Shape groundwork configuration unit [.typeAlias named]

/-- What is opened is closed before anything else is opened or closed. -/
def Flat (records : List Record) : Prop :=
  ∀ before opening after identifier, records = before ++ opening :: after →
    opening.opens? = some identifier →
    ∃ body exportValues rest, after = body ++ contextClose identifier exportValues :: rest ∧
      ∀ record ∈ body, record.isItem = true

/-- The records are those of a schedule in which every emitted context has one unit,
that of the root before all others but the early blocks. -/
structure Shaped (groundwork : Groundwork) (configuration : Configuration) (schedule : Schedule)
    (records : List Record) : Prop where
  once : ∀ node ∈ groundwork.graph.nodes, groundwork.visibility.isEmitted node.id = true →
    node.kind.isContext = true →
    (schedule.units.map ScheduledUnit.id).count (.context node.id) = 1
  rootFirst : schedule.units = [] ∨ ∃ first rest, first.id = .context Graph.root ∧
    (schedule.units = first :: rest ∨
      ∃ early, early.id = .early ∧ schedule.units = early :: first :: rest)
  stretches : ∃ stretches : List (ScheduledUnit × List Record),
    stretches.map Prod.fst = schedule.units ∧ records = stretches.flatMap Prod.snd ∧
      ∀ stretch ∈ stretches, Shape groundwork configuration stretch.1 stretch.2
  distinct : (records.filterMap opens?).Nodup
  valid : ∀ identifier ∈ records.filterMap opens?, Identifier.isValid identifier = true
  flat : Flat records

variable {groundwork : Groundwork} {configuration : Configuration}

/-! ## One unit -/

theorem Opens.isOpeningOf {scopes : Scopes} {node : Node} {identifier : String} {record : Record}
    (opens : Opens groundwork scopes node identifier record) : IsOpeningOf node record := by
  cases opens with
  | enum isEnum identified inScope named =>
      refine ⟨?_, named⟩
      rw [isEnum, DeclarationKind.target]
  | @context opened sorted identified inScope named =>
      refine ⟨?_, named⟩
      unfold sortOf? at sorted
      cases kind : node.kind with
      | translationUnit =>
          simp only [kind, Option.some.injEq] at sorted
          rw [← sorted, ContextSort.target, DeclarationKind.target]
      | «namespace» isInline =>
          by_cases isModule : node.isModule = true
          · simp only [kind, isModule, if_true, Option.some.injEq] at sorted
            rw [← sorted, ContextSort.target, DeclarationKind.target]
          · simp [kind, isModule] at sorted
      | «class» bases template =>
          simp only [kind, Option.some.injEq] at sorted
          rw [← sorted, ContextSort.target, DeclarationKind.target]
      | _ => simp [kind] at sorted

theorem Stretch.shape {scopes after : Scopes} {unit : ScheduledUnit} {records : List Record}
    (stretch : Stretch groundwork configuration scopes unit records after)
    (laid : groundwork.Laid) :
    Shape groundwork configuration unit records := by
  cases stretch with
  | blocks isBlocks isRoot written =>
      exact .items (Graph.mem_nodes_of_node? isRoot) (.inr ⟨isBlocks, laid.wired.id_eq isRoot⟩)
        written
  | opened isUnit member isOpen opens written =>
      exact .opened isUnit member isOpen opens.opens?_eq opens.isOpeningOf written
  | transparent isUnit member isOpen written => exact .items member (.inl ⟨isUnit, isOpen⟩) written
  | typeAlias isUnit member _ _ _ _ noItems => exact .typeAlias isUnit member noItems rfl

/-- Records that open nothing are flat. -/
theorem flat_of_opens?_eq_none {records : List Record}
    (noneOpens : ∀ record ∈ records, record.opens? = none) : Flat records := by
  intro before opening after identifier split opens
  have isNone := noneOpens opening (by simp [split])
  rw [opens] at isNone
  cases isNone

theorem Shape.flat {unit : ScheduledUnit} {records : List Record}
    (shape : Shape groundwork configuration unit records) : Flat records := by
  cases shape with
  | @opened node identifier first body exportValues isUnit member isOpen opens isOpening written =>
      have areItems : ∀ record ∈ body, record.isItem = true :=
        fun record listed => (isItem_of_writes written record listed).1
      intro before opening after other split isOther
      cases before with
      | nil =>
          simp only [List.cons_append, List.nil_append, List.cons.injEq] at split
          obtain ⟨rfl, rfl⟩ := split
          rw [opens, Option.some.injEq] at isOther
          subst other
          exact ⟨body, exportValues, [], rfl, areItems⟩
      | cons skipped before =>
          -- Neither the items nor the record that closes the context open another one.
          have listed : opening ∈ body ++ [contextClose identifier exportValues] := by
            simp only [List.cons_append, List.cons.injEq] at split
            simp [split.2]
          rcases List.mem_append.mp listed with inBody | isClose
          · rw [opens?_of_isItem (areItems opening inBody)] at isOther
            cases isOther
          · rw [List.mem_singleton.mp isClose] at isOther
            cases isOther
  | items member isUnit written =>
      apply flat_of_opens?_eq_none
      intro record listed
      exact opens?_of_isItem (isItem_of_writes written record listed).1
  | typeAlias =>
      apply flat_of_opens?_eq_none
      simp [opens?]

/-- Every item of a unit is written as one of its records. -/
theorem Shape.exists_writes {unit : ScheduledUnit} {records : List Record}
    (shape : Shape groundwork configuration unit records) {item : Item}
    (isItem : item ∈ unit.items) :
    ∃ record ∈ records, ∃ node scope, Writes groundwork configuration node scope item record := by
  cases shape with
  | @opened node identifier first body exportValues isUnit member isOpen opens isOpening written =>
      obtain ⟨record, listed, writes⟩ := exists_of_forall₂ written isItem
      exact ⟨record, by simp [listed], node, identifier, writes⟩
  | @items node scope records member isUnit written =>
      obtain ⟨record, listed, writes⟩ := exists_of_forall₂ written isItem
      exact ⟨record, listed, node, scope, writes⟩
  | typeAlias isUnit member noItems =>
      rw [noItems] at isItem
      cases isItem

/-- Where a record opens a scope, its entry opens that of a node. -/
theorem Shape.map_opening? {unit : ScheduledUnit} {records : List Record}
    (shape : Shape groundwork configuration unit records) {record : Record}
    (listed : record ∈ records) :
    (Entry.opening? ⟨unit.id, record⟩).map Prod.snd = record.opens? := by
  have ofNone (isNone : record.opens? = none) :
      (Entry.opening? ⟨unit.id, record⟩).map Prod.snd = record.opens? := by
    unfold Entry.opening?
    cases unit.id <;> simp [isNone]
  cases shape with
  | opened isUnit =>
      unfold Entry.opening?
      cases isOpening : record.opens? <;> simp [isUnit]
  | items member isUnit written =>
      exact ofNone (opens?_of_isItem (isItem_of_writes written record listed).1)
  | typeAlias =>
      rw [List.mem_singleton.mp listed] at ofNone ⊢
      exact ofNone rfl

/-! ## All units -/

theorem Flat.append {left right : List Record} (flatLeft : Flat left) (flatRight : Flat right) :
    Flat (left ++ right) := by
  intro before opening after identifier split opens
  rcases List.append_eq_append_iff.mp split with ⟨middle, _, isRight⟩ | ⟨middle, isLeft, isAfter⟩
  · exact flatRight middle opening after identifier isRight opens
  · cases middle with
    | nil => exact flatRight [] opening after identifier isAfter.symm opens
    | cons first middle =>
        rw [List.cons_append, List.cons.injEq] at isAfter
        obtain ⟨rfl, rfl⟩ := isAfter
        obtain ⟨body, exportValues, rest, isMiddle, areItems⟩ :=
          flatLeft before opening middle identifier isLeft opens
        refine ⟨body, exportValues, rest ++ right, ?_, areItems⟩
        simp [isMiddle]

theorem flat_flatMap {stretches : List (ScheduledUnit × List Record)}
    (shapes : ∀ stretch ∈ stretches, Shape groundwork configuration stretch.1 stretch.2) :
    Flat (stretches.flatMap Prod.snd) := by
  induction stretches with
  | nil => exact flat_of_opens?_eq_none (by simp)
  | cons first rest inductionHypothesis =>
      rw [List.flatMap_cons]
      apply Flat.append
      · exact (shapes first (by simp)).flat
      · apply inductionHypothesis
        intro stretch listed
        exact shapes stretch (by simp [listed])

/-- The stretches of units are those that the units become, each in some scopes. -/
theorem mem_stretches {aliasTargets : List (Nat × Nat)} {scopes : Scopes}
    {units : List ScheduledUnit} {stretch : ScheduledUnit × List Record}
    (listed : stretch ∈ stretches groundwork configuration aliasTargets scopes units) :
    stretch.1 ∈ units ∧ ∃ begun,
      stretch.2 = (ofUnit groundwork configuration aliasTargets begun stretch.1).1 := by
  induction units generalizing scopes with
  | nil => cases listed
  | cons unit rest inductionHypothesis =>
      rw [stretches] at listed
      rcases List.mem_cons.mp listed with rfl | later
      · exact ⟨by simp, scopes, rfl⟩
      · obtain ⟨isRest, isStretch⟩ := inductionHypothesis later
        exact ⟨by simp [isRest], isStretch⟩

section Schedules

variable {schedule : Schedule} {inner : List ScheduledUnit} (laid : groundwork.Laid)
  (made : Schedule.Made groundwork schedule inner)

include laid made

theorem shape_of_mem_stretches {scopes : Scopes} {stretch : ScheduledUnit × List Record}
    (listed : stretch ∈ stretches groundwork configuration schedule.aliasTargets scopes
      schedule.units) : Shape groundwork configuration stretch.1 stretch.2 := by
  obtain ⟨isScheduled, begun, isStretch⟩ := mem_stretches listed
  rw [isStretch]
  exact (ofUnit_stretch laid made begun isScheduled).shape laid

/-- Every scheduled item is written as one of the records. -/
theorem exists_writes_of_scheduled {unit : ScheduledUnit} (isScheduled : unit ∈ schedule.units)
    {item : Item} (isItem : item ∈ unit.items) :
    ∃ record ∈ ofSchedule groundwork configuration schedule, ∃ node scope,
      Writes groundwork configuration node scope item record := by
  have isListed := isScheduled
  rw [← map_fst_stretches groundwork configuration schedule.aliasTargets Scopes.start
    schedule.units] at isListed
  obtain ⟨stretch, isStretch, isUnit⟩ := List.mem_map.mp isListed
  have shape := shape_of_mem_stretches laid made isStretch
  rw [isUnit] at shape
  obtain ⟨record, listed, writes⟩ := shape.exists_writes isItem
  refine ⟨record, ?_, writes⟩
  unfold ofSchedule
  rw [ofUnits_eq_flatMap]
  exact List.mem_flatMap.mpr ⟨stretch, isStretch, listed⟩

/-- The identifiers that records open are those of the scopes that are open in the
end. -/
theorem opened_eq_filterMap :
    (scopesAfter groundwork configuration schedule.aliasTargets Scopes.start
      schedule.units).opened.map Prod.snd =
    (ofSchedule groundwork configuration schedule).filterMap opens? := by
  have place := @scopes_at groundwork configuration schedule inner schedule.units [] laid made
    (List.append_nil _).symm
  have agree : ∀ entry ∈ entries groundwork configuration schedule.aliasTargets Scopes.start
      schedule.units, entry.opening?.map Prod.snd = entry.record.opens? := by
    intro entry listed
    obtain ⟨stretch, isStretch, isEntry⟩ := List.mem_flatMap.mp listed
    obtain ⟨record, isRecord, rfl⟩ := List.mem_map.mp isEntry
    have shape := shape_of_mem_stretches laid made isStretch
    exact shape.map_opening? isRecord
  rw [place.opened, List.map_filterMap, List.filterMap_congr agree]
  unfold ofSchedule
  rw [← map_record_entries, List.filterMap_map]
  rfl

theorem shaped (tree : groundwork.graph.Tree) :
    Shaped groundwork configuration schedule (ofSchedule groundwork configuration schedule) := by
  have place := @scopes_at groundwork configuration schedule inner schedule.units [] laid made
    (List.append_nil _).symm
  have isStream := ofUnits_eq_flatMap groundwork configuration schedule.aliasTargets Scopes.start
    schedule.units
  have shapes : ∀ stretch ∈ stretches groundwork configuration schedule.aliasTargets Scopes.start
      schedule.units, Shape groundwork configuration stretch.1 stretch.2 :=
    fun stretch listed => shape_of_mem_stretches laid made listed
  refine ⟨?_, made.rootFirst laid tree, ⟨_, map_fst_stretches .., isStream, shapes⟩, ?_, ?_, ?_⟩
  · intro node member emitted isContext
    exact made.count_context laid member emitted isContext
  · rw [← opened_eq_filterMap laid made]
    exact place.sound.identifiers
  · rw [← opened_eq_filterMap laid made]
    intro identifier listed
    obtain ⟨opening, isOpened, rfl⟩ := List.mem_map.mp listed
    exact place.sound.valid opening isOpened
  · unfold ofSchedule
    rw [isStream]
    exact flat_flatMap shapes

end Schedules

end Record

namespace Plan

variable {configuration : Configuration} {unit : TranslationUnit} {plan : Plan}

/-- No item is lost between the schedule and the records. -/
theorem records_shaped (planned : ofUnit configuration unit = .ok plan)
    (ends : plan.groundwork.graph.WalkEnds) :
    Record.Shaped plan.groundwork configuration plan.schedule (plan.records configuration) := by
  obtain ⟨laid, inner, made⟩ := exists_made planned
  exact Record.shaped laid made (laid.wired.tree ends)

theorem nestedClass_shaped :
    ∃ plan, ofUnit {} nestedClass = .ok plan ∧ plan.groundwork.graph.WalkEnds ∧
      Record.Shaped plan.groundwork {} plan.schedule (plan.records {}) := by
  obtain ⟨plan, planned, ends⟩ := exists_nestedClass
  exact ⟨plan, planned, ends, records_shaped planned ends⟩

end Plan

end Registrar
