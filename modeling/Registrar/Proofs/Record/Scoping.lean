import Mathlib
import Registrar.Proofs.Record.Places

/-!
Contract: the scopes that records name.

Owns: that every record names the scope that is nearest around what it registers,
and names scopes, bases and targets that earlier records opened.

Does not own: the order of the records.
-/

set_option autoImplicit false

namespace Registrar

namespace Record

/-- The record names the identifier of the first node on a way that opens a scope,
which one of the entries opened. -/
def Names (entries : List Entry) (way : List Node) (record : Record) : Prop :=
  ∃ opener identifier, way.find? Node.opensScope = some opener ∧
    record.scope? = some identifier ∧ IsOpened entries opener.id identifier

/-- The entry names the scopes that it should, and each is opened by an entry
before it. Only the blocks before everything else name the root before it is
opened. -/
structure WellScoped (groundwork : Groundwork) (earlier : List Entry) (entry : Entry)
    (later : List Entry) : Prop where
  item : entry.record.isItem = true →
    (∃ context ∈ groundwork.graph.nodes, entry.unit = .context context.id ∧
        Names earlier (context :: groundwork.graph.ancestors context) entry.record) ∨
      ∃ root, groundwork.graph.node? Graph.root = some root ∧
        ((entry.unit = .early ∧ Names (earlier ++ entry :: later) [root] entry.record) ∨
          (entry.unit = .postamble ∧ Names earlier [root] entry.record))
  opening : ∀ identifier, entry.record.opens? = some identifier →
    ∃ context ∈ groundwork.graph.nodes, entry.unit = .context context.id ∧
      (context.id ≠ Graph.root ∨ (∃ opened, entry.record = .enum opened) →
        Names earlier (groundwork.graph.ancestors context) entry.record)
  target : ∀ named, entry.record = .typeAlias named →
    ∃ node ∈ groundwork.graph.nodes, ∃ target ∈ groundwork.graph.nodes,
      entry.unit = .typeAlias node.id ∧
      Schedule.aliasTarget? groundwork.graph node = some target.id ∧
      Names earlier (groundwork.graph.ancestors node) entry.record ∧
      (named.target.isSome = true ↔ groundwork.visibility.isEmitted target.id = true) ∧
      ∀ identifier, named.target = some identifier → IsOpened earlier target.id identifier
  bases : ∀ opened bases holderType dynamicAttributes, entry.record = .contextOpen opened →
    opened.sort = .class bases holderType dynamicAttributes →
    ∃ context ∈ groundwork.graph.nodes, entry.unit = .context context.id ∧
      List.Forall₂ (IsOpened earlier)
        ((groundwork.inheritance.registered context.id).filter fun base => base != context.id)
        bases

theorem Names.mono {few many : List Entry} {way : List Node} {record : Record}
    (names : Names few way record) (among : few ⊆ many) : Names many way record := by
  obtain ⟨opener, identifier, isNearest, inScope, isOpened⟩ := names
  exact ⟨opener, identifier, isNearest, inScope, isOpened.mono among⟩

theorem WellScoped.ofItem {groundwork : Groundwork} {earlier later : List Entry} {entry : Entry}
    (isItem : entry.record.isItem = true)
    (inScope : (∃ context ∈ groundwork.graph.nodes, entry.unit = .context context.id ∧
        Names earlier (context :: groundwork.graph.ancestors context) entry.record) ∨
      ∃ root, groundwork.graph.node? Graph.root = some root ∧
        ((entry.unit = .early ∧ Names (earlier ++ entry :: later) [root] entry.record) ∨
          (entry.unit = .postamble ∧ Names earlier [root] entry.record))) :
    WellScoped groundwork earlier entry later where
  item := fun _ => inScope
  opening := by
    intro identifier opens
    rw [opens?_of_isItem isItem] at opens
    cases opens
  target := by
    intro named isAlias
    rw [isAlias] at isItem
    cases isItem
  bases := by
    intro opened bases holderType dynamicAttributes isOpen
    rw [isOpen] at isItem
    cases isItem

theorem WellScoped.ofClose {groundwork : Groundwork} {earlier later : List Entry} {unit : UnitId}
    {identifier : String} {exportValues : Bool} :
    WellScoped groundwork earlier ⟨unit, contextClose identifier exportValues⟩ later where
  item := by
    intro isItem
    cases isItem
  opening := by
    intro other opens
    cases opens
  target := by
    intro named isAlias
    cases isAlias
  bases := by
    intro opened bases holderType dynamicAttributes isOpen
    cases isOpen

theorem Names.of_transparent {entries : List Entry} {node : Node} {way : List Node}
    {record : Record} (names : Names entries way record) (isOpen : node.opensScope = false) :
    Names entries (node :: way) record := by
  obtain ⟨opener, identifier, isNearest, inScope, isOpened⟩ := names
  refine ⟨opener, identifier, ?_, inScope, isOpened⟩
  rw [List.find?_cons, isOpen]
  exact isNearest

theorem Names.of_opened {entries : List Entry} {node : Node} {way : List Node}
    {record : Record} {identifier : String} (isOpen : node.opensScope = true)
    (inScope : record.scope? = some identifier)
    (isOpened : IsOpened entries node.id identifier) : Names entries (node :: way) record := by
  refine ⟨node, identifier, ?_, inScope, isOpened⟩
  rw [List.find?_cons, isOpen]

/-! ## Entries of a stretch -/

section Entries

variable {groundwork : Groundwork} {configuration : Configuration} {schedule : Schedule}
  {inner before after : List ScheduledUnit} {unit : ScheduledUnit} {earlier later : List Entry}
  {scopes : Scopes} (laid : groundwork.Laid) (made : Schedule.Made groundwork schedule inner)
  (tree : groundwork.graph.Tree) (split : schedule.units = before ++ unit :: after)
  (place : At groundwork before earlier scopes)

include laid made tree split place

omit place in
/-- The units of all contexts around a node came before its own. -/
theorem ancestors_before {node : Node} (member : node ∈ groundwork.graph.nodes)
    (isNode : unit.id.node? = some node.id) :
    ∀ above ∈ groundwork.graph.ancestors node, above ∈ groundwork.graph.nodes ∧
      .context above.id ∈ before.map ScheduledUnit.id := by
  intro above listed
  have isScheduled : unit ∈ schedule.units := split ▸ List.mem_append_cons_self
  obtain ⟨emitted, isUnit⟩ := made.unitOf?_of_mem_units laid isScheduled member isNode
  obtain ⟨front, back, isInner, among⟩ := inner_split made split isNode
  have inFront := made.ancestors_before laid tree node member front back unit isInner isUnit
    emitted above listed
  refine ⟨(laid.decided.isEmitted_of_mem_ancestors tree node member emitted above listed).1, ?_⟩
  obtain ⟨other, isFront, isId⟩ := List.mem_map.mp inFront
  exact List.mem_map.mpr ⟨other, among isFront, isId⟩

/-- A record in the scope around a node other than the root names the nearest. -/
theorem names_around {node : Node} (member : node ∈ groundwork.graph.nodes)
    (below : node.id ≠ Graph.root) (isNode : unit.id.node? = some node.id) {record : Record}
    (inScope : record.scope? = some (scopes.around groundwork.graph node)) :
    Names earlier (groundwork.graph.ancestors node) record := by
  have known := ancestors_before laid made tree split member isNode
  obtain ⟨opener, isNearest⟩ := exists_opener_above tree member below
  exact ⟨opener, _, isNearest, inScope,
    place.around_eq laid (fun above listed => (known above listed).1)
      (fun above listed => (known above listed).2) isNearest⟩

omit tree place in
/-- The scope of a node is not open before its unit. -/
theorem identifier?_eq_none (place : At groundwork before earlier scopes) {node : Node}
    (member : node ∈ groundwork.graph.nodes) (isUnit : unit.id = .context node.id)
    (isOpen : node.opensScope = true) : scopes.identifier? node.id = none := by
  have isOpener := (opener?_eq_some_iff laid).mpr
    ⟨isUnit, node, laid.wired.node?_id member, isOpen⟩
  have distinct := openers_nodup laid made
  rw [split, List.filterMap_append, List.filterMap_cons, isOpener, ← place.nodes] at distinct
  by_contra isKnown
  rw [← ne_eq, Option.ne_none_iff_isSome, Scopes.identifier?_isSome_iff] at isKnown
  exact (List.nodup_append'.mp distinct).2.2 isKnown List.mem_cons_self

omit tree in
/-- The supertypes of a class other than itself were opened before it. -/
theorem supertypes_opened {node : Node} (member : node ∈ groundwork.graph.nodes)
    (isUnit : unit.id = .context node.id) (isOpen : node.opensScope = true) :
    List.Forall₂ (IsOpened earlier)
      ((groundwork.inheritance.registered node.id).filter fun base => base != node.id)
      ((groundwork.inheritance.registered node.id).filterMap scopes.identifier?) := by
  have isNode : unit.id.node? = some node.id := by
    rw [isUnit]
    rfl
  obtain ⟨front, back, isInner, among⟩ := inner_split made split isNode
  have isClosed := identifier?_eq_none laid made split place member isUnit isOpen
  have areOpen : ∀ base ∈ groundwork.inheritance.registered node.id, base ≠ node.id →
      (scopes.identifier? base).isSome = true := by
    intro base registered other
    obtain ⟨configuration, inherited⟩ := laid.inheritance
    obtain ⟨_, found, isFound, isClass⟩ :=
      Inheritance.isSupertype_of_registered laid.wired inherited registered
    have cameBefore := made.supertypes_before laid isInner isUnit registered other
    rw [← laid.wired.id_eq isFound] at cameBefore ⊢
    rw [place.identifier?_isSome_iff laid (Graph.mem_nodes_of_node? isFound)]
    refine ⟨?_, ?_⟩
    · obtain ⟨supertype, isFront, isId⟩ := List.mem_map.mp cameBefore
      exact List.mem_map.mpr ⟨supertype, among isFront, isId⟩
    · exact opensScope_of_sort (.inr (.inl isClass))
  revert areOpen
  generalize groundwork.inheritance.registered node.id = bases
  intro areOpen
  induction bases with
  | nil => exact .nil
  | cons first rest inductionHypothesis =>
      have others := inductionHypothesis fun base listed =>
        areOpen base (List.mem_cons_of_mem first listed)
      rw [List.filter_cons, List.filterMap_cons]
      by_cases isItself : first = node.id
      · rw [isItself, isClosed, if_neg (by simp)]
        exact others
      · obtain ⟨identifier, found⟩ :=
          Option.isSome_iff_exists.mp (areOpen first List.mem_cons_self isItself)
        rw [found, if_pos (bne_iff_ne.mpr isItself)]
        exact .cons (place.isOpened_of_identifier? found) others

/-! ### Records of blocks -/

variable {front back : List Record} {record : Record}

/-- Blocks of the root name the root. -/
theorem wellScoped_of_blocks {last : Scopes} {root : Node} {records : List Record}
    (isRoot : groundwork.graph.node? Graph.root = some root)
    (isBlocks : unit.id = .early ∨ unit.id = .postamble)
    (written : List.Forall₂ (Writes groundwork configuration root rootIdentifier)
      unit.items records)
    (isStretch : records = front ++ record :: back)
    (whole : At groundwork schedule.units
      (earlier ++ front.map (Entry.mk unit.id) ++ ⟨unit.id, record⟩ :: later) last) :
    WellScoped groundwork (earlier ++ front.map (Entry.mk unit.id)) ⟨unit.id, record⟩ later := by
  have listed : record ∈ records := by
    rw [isStretch]
    exact List.mem_append_right front List.mem_cons_self
  obtain ⟨isItem, inScope⟩ := isItem_of_writes written record listed
  have isScheduled : unit ∈ schedule.units := split ▸ List.mem_append_cons_self
  have noNode : unit.id.node? = none := by
    rcases isBlocks with isId | isId <;> rw [isId] <;> rfl
  obtain ⟨rootUnit, isInner, isRootUnit⟩ := made.exists_root_unit laid tree isScheduled noNode
  have isOpen := opensScope_of_root tree (Graph.mem_nodes_of_node? isRoot)
    (laid.wired.id_eq isRoot)
  refine .ofItem isItem (.inr ⟨root, isRoot, ?_⟩)
  rcases isBlocks with isId | isId
  · refine .inl ⟨isId, .of_opened isOpen inScope (whole.root_isOpened laid tree isRoot ?_)⟩
    exact List.mem_map.mpr ⟨rootUnit, made.mem_units.mpr (.inr (.inl isInner)), isRootUnit⟩
  · have absent : unit ∉ inner := by
      intro isIn
      obtain ⟨node, _, _, isUnit⟩ := made.exists_node laid isIn
      rw [Schedule.node?_of_unitOf? isUnit] at noNode
      cases noNode
    have isBefore := inner_before_postamble made split isId absent isInner
    have isOpened := place.root_isOpened laid tree isRoot
      (List.mem_map.mpr ⟨rootUnit, isBefore, isRootUnit⟩)
    exact .inr ⟨isId, .of_opened isOpen inScope (isOpened.mono (List.subset_append_left _ _))⟩

/-! ### Records of contexts -/

/-- The record that opens a context names the nearest scope around it, and the
classes that it is derived from. -/
theorem wellScoped_of_opening {node : Node} {identifier : String}
    (isUnit : unit.id = .context node.id) (member : node ∈ groundwork.graph.nodes)
    (isOpen : node.opensScope = true) (opens : Opens groundwork scopes node identifier record) :
    WellScoped groundwork earlier ⟨unit.id, record⟩ later where
  item := by
    intro isItem
    cases opens <;> cases isItem
  opening := by
    intro other _
    refine ⟨node, member, isUnit, ?_⟩
    intro hasScope
    have below : node.id ≠ Graph.root := by
      rcases hasScope with below | ⟨opened, isEnum⟩
      · exact below
      · obtain ⟨isScoped, kind⟩ := opens.kind_of_enum isEnum
        apply tree.ne_root_of_sort member <;> rw [kind, DeclarationKind.target] <;> decide
    have isNode : unit.id.node? = some node.id := by
      rw [isUnit]
      rfl
    exact names_around laid made tree split place member below isNode (opens.scope?_eq below)
  target := by
    intro named isAlias
    cases opens <;> cases isAlias
  bases := by
    intro opened bases holderType dynamicAttributes isContext isSort
    refine ⟨node, member, isUnit, ?_⟩
    rw [opens.bases_eq isContext isSort]
    exact supertypes_opened laid made split place member isUnit isOpen

/-- The records of a context that opens a scope name what they should. -/
theorem wellScoped_of_opened {node : Node} {first : Record} {body : List Record}
    {exportValues : Bool} (isUnit : unit.id = .context node.id)
    (member : node ∈ groundwork.graph.nodes) (isOpen : node.opensScope = true)
    (opens : Opens groundwork scopes node (scopes.enter node).1 first)
    (written : List.Forall₂ (Writes groundwork configuration node (scopes.enter node).1)
      unit.items body)
    (isStretch : first :: body ++ [contextClose (scopes.enter node).1 exportValues] =
      front ++ record :: back) :
    WellScoped groundwork (earlier ++ front.map (Entry.mk unit.id)) ⟨unit.id, record⟩ later := by
  cases front with
  | nil =>
      rw [List.cons_append, List.nil_append, List.cons.injEq] at isStretch
      obtain ⟨rfl, _⟩ := isStretch
      rw [List.map_nil, List.append_nil]
      exact wellScoped_of_opening laid made tree split place isUnit member isOpen opens
  | cons other front =>
      rw [List.cons_append, List.cons_append, List.cons.injEq] at isStretch
      obtain ⟨rfl, isStretch⟩ := isStretch
      have listed : record ∈ body ++ [contextClose (scopes.enter node).1 exportValues] := by
        rw [isStretch]
        exact List.mem_append_right front List.mem_cons_self
      rcases List.mem_append.mp listed with inBody | isClose
      · obtain ⟨isItem, inScope⟩ := isItem_of_writes written record inBody
        have isOpened : IsOpened (earlier ++ (first :: front).map (Entry.mk unit.id)) node.id
            (scopes.enter node).1 := by
          refine ⟨⟨unit.id, first⟩, List.mem_append_right _ List.mem_cons_self, ?_⟩
          rw [Entry.opening?, isUnit, opens.opens?_eq]
        exact .ofItem isItem (.inl ⟨node, member, isUnit, .of_opened isOpen inScope isOpened⟩)
      · rw [List.mem_singleton.mp isClose]
        exact .ofClose

/-- The records of a namespace that opens no scope name the nearest scope around it. -/
theorem wellScoped_of_transparent {node : Node} {records : List Record}
    (isUnit : unit.id = .context node.id) (member : node ∈ groundwork.graph.nodes)
    (isOpen : node.opensScope = false)
    (written : List.Forall₂
      (Writes groundwork configuration node (scopes.around groundwork.graph node))
      unit.items records)
    (isStretch : records = front ++ record :: back) :
    WellScoped groundwork (earlier ++ front.map (Entry.mk unit.id)) ⟨unit.id, record⟩ later := by
  have listed : record ∈ records := by
    rw [isStretch]
    exact List.mem_append_right front List.mem_cons_self
  obtain ⟨isItem, inScope⟩ := isItem_of_writes written record listed
  have below : node.id ≠ Graph.root := by
    intro isRoot
    rw [opensScope_of_root tree member isRoot] at isOpen
    cases isOpen
  have isNode : unit.id.node? = some node.id := by
    rw [isUnit]
    rfl
  have names := names_around laid made tree split place member below isNode inScope
  have among := names.mono (List.subset_append_left earlier (front.map (Entry.mk unit.id)))
  exact .ofItem isItem (.inl ⟨node, member, isUnit, among.of_transparent isOpen⟩)

/-! ### Records of aliases -/

omit tree in
/-- The target of an alias is open exactly if it is emitted. -/
theorem target_isSome_iff {node target : Node} (isUnit : unit.id = .typeAlias node.id)
    (member : node ∈ groundwork.graph.nodes) (targetMember : target ∈ groundwork.graph.nodes)
    (emitted : groundwork.visibility.isEmitted node.id = true)
    (isAlias : node.kind.target = .typeAlias)
    (isTarget : Schedule.aliasTarget? groundwork.graph node = some target.id) :
    (scopes.identifier? target.id).isSome = true ↔
      groundwork.visibility.isEmitted target.id = true := by
  rw [place.identifier?_isSome_iff laid targetMember]
  constructor
  · rintro ⟨cameBefore, _⟩
    obtain ⟨targetUnit, listed, isTargetUnit⟩ := List.mem_map.mp cameBefore
    have isScheduled : targetUnit ∈ schedule.units := by
      rw [split]
      exact List.mem_append_left _ listed
    have isNode : targetUnit.id.node? = some target.id := by
      rw [isTargetUnit]
      rfl
    exact (made.unitOf?_of_mem_units laid isScheduled targetMember isNode).1
  · intro targetEmitted
    have isNode : unit.id.node? = some node.id := by
      rw [isUnit]
      rfl
    obtain ⟨front, back, isInner, among⟩ := inner_split made split isNode
    obtain ⟨targetUnit, inFront, isTargetUnit⟩ := List.mem_map.mp
      (made.target_before laid isInner member emitted isAlias isUnit isTarget targetMember
        targetEmitted)
    refine ⟨List.mem_map.mpr ⟨targetUnit, among inFront, isTargetUnit⟩, ?_⟩
    obtain ⟨found, isFound, isSort⟩ := Schedule.exists_node_of_aliasTarget? isTarget
    rw [laid.wired.node?_id targetMember, Option.some.injEq] at isFound
    subst found
    exact opensScope_of_sort (.inr isSort)

/-- The record of an alias names the nearest scope around it, and its target if it
is emitted. -/
theorem wellScoped_of_typeAlias {node target : Node} (isUnit : unit.id = .typeAlias node.id)
    (member : node ∈ groundwork.graph.nodes) (targetMember : target ∈ groundwork.graph.nodes)
    (emitted : groundwork.visibility.isEmitted node.id = true)
    (isAlias : node.kind.target = .typeAlias)
    (isTarget : Schedule.aliasTarget? groundwork.graph node = some target.id) :
    WellScoped groundwork earlier ⟨unit.id, ofAlias groundwork scopes node target⟩ later where
  item := by
    intro isItem
    cases isItem
  opening := by
    intro identifier opens
    cases opens
  target := by
    intro named isNamed
    injection isNamed with isNamed
    have below : node.id ≠ Graph.root := by
      apply tree.ne_root_of_sort member <;> rw [isAlias] <;> decide
    have isNode : unit.id.node? = some node.id := by
      rw [isUnit]
      rfl
    rw [← isNamed]
    refine ⟨node, member, target, targetMember, isUnit, isTarget, ?_, ?_, ?_⟩
    · exact names_around laid made tree split place member below isNode rfl
    · exact target_isSome_iff laid made split place isUnit member targetMember emitted isAlias
        isTarget
    · intro identifier found
      exact place.isOpened_of_identifier? found
  bases := by
    intro opened bases holderType dynamicAttributes isOpen
    cases isOpen

end Entries

/-! ## Streams -/

/-- Every entry of a schedule names what it should. -/
theorem wellScoped {groundwork : Groundwork} {configuration : Configuration}
    {schedule : Schedule} {inner : List ScheduledUnit} {earlier later : List Entry} {entry : Entry}
    (laid : groundwork.Laid) (made : Schedule.Made groundwork schedule inner)
    (tree : groundwork.graph.Tree)
    (split : entries groundwork configuration schedule.aliasTargets Scopes.start schedule.units =
      earlier ++ entry :: later) : WellScoped groundwork earlier entry later := by
  obtain ⟨before, unit, after, front, back, isUnits, isUnit, isStretch, isEarlier⟩ :=
    occurs_of_split split
  have isScheduled : unit ∈ schedule.units := isUnits ▸ List.mem_append_cons_self
  have whole : At groundwork schedule.units (earlier ++ entry :: later)
      (scopesAfter groundwork configuration schedule.aliasTargets Scopes.start schedule.units) := by
    rw [← split]
    exact scopes_at laid made (List.append_nil schedule.units).symm
  obtain ⟨isId, record⟩ := entry
  dsimp only at isUnit isStretch
  subst isId earlier
  have place := @scopes_at groundwork configuration schedule inner before (unit :: after) laid made
    isUnits
  have stretch := @ofUnit_stretch groundwork configuration laid schedule inner made
    (scopesAfter groundwork configuration schedule.aliasTargets Scopes.start before) unit
    isScheduled
  rw [isStretch] at stretch
  generalize isRecords : front ++ record :: back = records at stretch
  generalize (ofUnit groundwork configuration schedule.aliasTargets
    (scopesAfter groundwork configuration schedule.aliasTargets Scopes.start before) unit).2 = next
    at stretch
  cases stretch with
  | blocks isBlocks isRoot written =>
      exact wellScoped_of_blocks laid made tree isUnits place isRoot isBlocks written
        isRecords.symm whole
  | opened isContext member isOpen opens written =>
      exact wellScoped_of_opened laid made tree isUnits place isContext member isOpen opens written
        isRecords.symm
  | transparent isContext member isOpen written =>
      exact wellScoped_of_transparent laid made tree isUnits place isContext member isOpen written
        isRecords.symm
  | typeAlias isContext member targetMember emitted isAlias isTarget =>
      rcases List.append_eq_singleton_iff.mp isRecords with ⟨rfl, isRecord⟩ | ⟨_, isNil⟩
      · rw [List.cons.injEq] at isRecord
        rw [isRecord.1, List.map_nil, List.append_nil]
        exact wellScoped_of_typeAlias laid made tree isUnits place isContext member targetMember
          emitted isAlias isTarget
      · cases isNil

end Record

namespace Plan

variable {configuration : Configuration} {unit : TranslationUnit} {plan : Plan}

/-- The records of the plan, each with its unit. -/
def entries (configuration : Configuration) (plan : Plan) : List Record.Entry :=
  Record.entries plan.groundwork configuration plan.schedule.aliasTargets Record.Scopes.start
    plan.schedule.units

/-- Every record names the scope nearest around what it registers. An earlier record
opened it, as it did the bases of a class and the target of an alias. -/
theorem entries_wellScoped (planned : ofUnit configuration unit = .ok plan)
    (ends : plan.groundwork.graph.WalkEnds) :
    (plan.entries configuration).map Record.Entry.record = plan.records configuration ∧
      ∀ earlier entry later, plan.entries configuration = earlier ++ entry :: later →
        Record.WellScoped plan.groundwork earlier entry later := by
  obtain ⟨laid, inner, made⟩ := exists_made planned
  refine ⟨Record.map_record_entries _ _ _ _ _, ?_⟩
  intro earlier entry later split
  exact Record.wellScoped laid made (laid.wired.tree ends) split

theorem nestedClass_wellScoped :
    ∃ plan, ofUnit {} nestedClass = .ok plan ∧ plan.groundwork.graph.WalkEnds ∧
      (plan.entries {}).map Record.Entry.record = plan.records {} ∧
      ∀ earlier entry later, plan.entries {} = earlier ++ entry :: later →
        Record.WellScoped plan.groundwork earlier entry later := by
  obtain ⟨plan, planned, ends⟩ := exists_nestedClass
  exact ⟨plan, planned, ends, entries_wellScoped planned ends⟩

end Plan

end Registrar
