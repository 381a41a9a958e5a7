import Mathlib
import Registrar.Proofs.Identifier
import Registrar.Proofs.Record.Stretches

/-!
Contract: the scopes that are open while records are written.

Owns: that identifiers of scopes are distinct and valid, that the open scopes are
those that earlier records opened, and which nodes these are.

Does not own: which scope a record names.
-/

set_option autoImplicit false

namespace Registrar.Record

/-! ## Entering scopes -/

namespace Scopes

/-- The open scopes are of distinct nodes and have distinct valid identifiers, none
of which is left to be handed out, and only the root has that of the root. -/
structure Sound (scopes : Scopes) : Prop where
  reserved : rootIdentifier ∈ scopes.supply.used
  used : ∀ entry ∈ scopes.opened, entry.2 ∈ scopes.supply.used
  rooted : ∀ entry ∈ scopes.opened, entry.1 = Graph.root ↔ entry.2 = rootIdentifier
  nodes : (scopes.opened.map Prod.fst).Nodup
  identifiers : (scopes.opened.map Prod.snd).Nodup
  valid : ∀ entry ∈ scopes.opened, Identifier.isValid entry.2 = true

theorem start_sound : start.Sound where
  reserved := List.mem_cons_self
  used := by
    intro entry member
    cases member
  rooted := by
    intro entry member
    cases member
  nodes := List.nodup_nil
  identifiers := List.nodup_nil
  valid := by
    intro entry member
    cases member

theorem isValid_wanted (node : Node) : Identifier.isValid (wanted node) = true := by
  unfold wanted Identifier.sanitize
  apply Identifier.isValid_append (by decide)
  intro character member
  rw [String.toList_ofList] at member
  exact Identifier.canContinue_of_mem_sanitizeFrom member

theorem opened_enter (scopes : Scopes) (node : Node) :
    (scopes.enter node).2.opened = scopes.opened ++ [(node.id, (scopes.enter node).1)] := by
  unfold enter
  split <;> rfl

theorem Sound.append {scopes : Scopes} (sound : scopes.Sound) {node : Node}
    {identifier : String} {supply : Identifier.Supply}
    (isNew : node.id ∉ scopes.opened.map Prod.fst)
    (keeps : scopes.supply.used ⊆ supply.used) (isUsed : identifier ∈ supply.used)
    (rooted : node.id = Graph.root ↔ identifier = rootIdentifier)
    (fresh : ∀ entry ∈ scopes.opened, entry.2 ≠ identifier)
    (valid : Identifier.isValid identifier = true) :
    Sound ⟨scopes.opened ++ [(node.id, identifier)], supply⟩ := by
  refine ⟨keeps sound.reserved, ?_, ?_, ?_, ?_, ?_⟩
  · intro entry member
    rcases List.mem_append.mp member with before | last
    · exact keeps (sound.used entry before)
    · rw [List.mem_singleton.mp last]
      exact isUsed
  · intro entry member
    rcases List.mem_append.mp member with before | last
    · exact sound.rooted entry before
    · rw [List.mem_singleton.mp last]
      exact rooted
  · rw [List.map_append, List.map_singleton, ← List.concat_eq_append]
    exact sound.nodes.concat isNew
  · rw [List.map_append, List.map_singleton, ← List.concat_eq_append]
    apply sound.identifiers.concat
    intro listed
    obtain ⟨entry, member, same⟩ := List.mem_map.mp listed
    exact fresh entry member same
  · intro entry member
    rcases List.mem_append.mp member with before | last
    · exact sound.valid entry before
    · rw [List.mem_singleton.mp last]
      exact valid

/-- A node that is not open can be entered. -/
theorem Sound.enter {scopes : Scopes} (sound : scopes.Sound) {node : Node}
    (isNew : node.id ∉ scopes.opened.map Prod.fst) : (scopes.enter node).2.Sound := by
  unfold Scopes.enter
  by_cases isRoot : node.id = Graph.root
  · rw [if_pos isRoot]
    have fresh : ∀ entry ∈ scopes.opened, entry.2 ≠ rootIdentifier := by
      intro entry member isRootIdentifier
      apply isNew
      rw [isRoot, ← (sound.rooted entry member).mpr isRootIdentifier]
      exact List.mem_map_of_mem member
    exact sound.append isNew (fun _ member => member) sound.reserved (iff_of_true isRoot rfl) fresh
      (by decide)
  · rw [if_neg isRoot]
    have notUsed := Identifier.take_not_mem_used scopes.supply (wanted node)
    have fresh : ∀ entry ∈ scopes.opened,
        entry.2 ≠ (scopes.supply.take (wanted node)).1 := by
      intro entry member same
      rw [← same] at notUsed
      exact notUsed (sound.used entry member)
    have notRoot : (scopes.supply.take (wanted node)).1 ≠ rootIdentifier := by
      intro isReserved
      rw [isReserved] at notUsed
      exact notUsed sound.reserved
    apply sound.append isNew _ _ (iff_of_false isRoot notRoot) fresh
      (Identifier.isValid_take _ (isValid_wanted node))
    · rw [Identifier.take_used]
      exact List.subset_cons_self _ _
    · rw [Identifier.take_used]
      exact List.mem_cons_self

/-- A scope is looked up to the identifier that it was opened with. -/
theorem Sound.identifier?_eq_some_iff {scopes : Scopes} (sound : scopes.Sound) {id : Nat}
    {identifier : String} :
    scopes.identifier? id = some identifier ↔ (id, identifier) ∈ scopes.opened := by
  unfold identifier?
  constructor
  · intro found
    obtain ⟨before, after, split, _⟩ := List.lookup_eq_some_iff.mp found
    rw [split]
    exact List.mem_append_right _ List.mem_cons_self
  · intro member
    cases found : scopes.opened.lookup id with
    | none =>
        rw [List.lookup_eq_none_iff] at found
        simpa using found _ member
    | some other =>
        obtain ⟨before, after, split, _⟩ := List.lookup_eq_some_iff.mp found
        have otherMember : (id, other) ∈ scopes.opened := by
          rw [split]
          exact List.mem_append_right _ List.mem_cons_self
        have same := List.inj_on_of_nodup_map sound.nodes otherMember member rfl
        rw [Prod.mk.injEq] at same
        rw [same.2]

theorem identifier?_isSome_iff {scopes : Scopes} {id : Nat} :
    (scopes.identifier? id).isSome ↔ id ∈ scopes.opened.map Prod.fst := by
  unfold identifier?
  constructor
  · intro isOpen
    obtain ⟨identifier, found⟩ := Option.isSome_iff_exists.mp isOpen
    obtain ⟨before, after, split, _⟩ := List.lookup_eq_some_iff.mp found
    rw [split, List.map_append]
    exact List.mem_append_right _ List.mem_cons_self
  · intro member
    obtain ⟨entry, listed, rfl⟩ := List.mem_map.mp member
    by_contra isClosed
    rw [Option.not_isSome_iff_eq_none, List.lookup_eq_none_iff] at isClosed
    simpa using isClosed entry listed

end Scopes

/-! ## Entries -/

/-- A record with the unit that it belongs to. -/
structure Entry where
  unit : UnitId
  record : Record

/-- The node whose scope the record opens, with the identifier. -/
def Entry.opening? (entry : Entry) : Option (Nat × String) :=
  match entry.unit, entry.record.opens? with
  | .context node, some identifier => some (node, identifier)
  | _, _ => none

/-- The node whose scope the unit opens. -/
def opener? (graph : Graph) (unit : ScheduledUnit) : Option Nat :=
  match unit.id with
  | .context id => ((graph.node? id).filter Node.opensScope).map fun node => node.id
  | _ => none

theorem opener?_of_context {groundwork : Groundwork} (laid : groundwork.Laid)
    {unit : ScheduledUnit} {node : Node} (isUnit : unit.id = .context node.id)
    (member : node ∈ groundwork.graph.nodes) :
    opener? groundwork.graph unit = if node.opensScope then some node.id else none := by
  unfold opener?
  rw [isUnit]
  dsimp only
  rw [laid.wired.node?_id member, Option.filter_some]
  split <;> rfl

theorem opening?_of_isItem {unit : UnitId} {record : Record} (isItem : record.isItem = true) :
    Entry.opening? ⟨unit, record⟩ = none := by
  unfold Entry.opening?
  cases record <;> cases unit <;> first | rfl | cases isItem

theorem opens?_of_isItem {record : Record} (isItem : record.isItem = true) :
    record.opens? = none := by
  cases record <;> first | rfl | cases isItem

variable {groundwork : Groundwork} {configuration : Configuration}

theorem isItem_of_writes {context : Node} {scope : String} {items : List Item}
    {records : List Record}
    (written : List.Forall₂ (Writes groundwork configuration context scope) items records) :
    ∀ record ∈ records, record.isItem = true ∧ record.scope? = some scope := by
  induction written with
  | nil =>
      intro record member
      cases member
  | cons writes _ inductionHypothesis =>
      intro record member
      rcases List.mem_cons.mp member with rfl | later
      · exact ⟨writes.isItem, writes.scope⟩
      · exact inductionHypothesis record later

/-- Records of items open no scopes. -/
theorem openings_of_items {unit : UnitId} {records : List Record}
    (areItems : ∀ record ∈ records, record.isItem = true) :
    (records.map (Entry.mk unit)).filterMap Entry.opening? = [] := by
  rw [List.filterMap_eq_nil_iff]
  intro entry member
  obtain ⟨record, listed, rfl⟩ := List.mem_map.mp member
  exact opening?_of_isItem (areItems record listed)

theorem Opens.opens?_eq {scopes : Scopes} {node : Node} {identifier : String} {record : Record}
    (opens : Opens groundwork scopes node identifier record) :
    record.opens? = some identifier := by
  cases opens with
  | enum isEnum identified => rw [opens?, identified]
  | context sorted identified => rw [opens?, identified]

/-- The record that opens a context below the root names the scope around it. -/
theorem Opens.scope?_eq {scopes : Scopes} {node : Node} {identifier : String} {record : Record}
    (opens : Opens groundwork scopes node identifier record) (below : node.id ≠ Graph.root) :
    record.scope? = some (scopes.around groundwork.graph node) := by
  cases opens with
  | enum isEnum identified inScope => rw [scope?, inScope]
  | context sorted identified inScope => rw [scope?, inScope, if_neg below]

theorem Opens.kind_of_enum {scopes : Scopes} {node : Node} {identifier : String} {record : Record}
    (opens : Opens groundwork scopes node identifier record) {opened : EnumRecord}
    (isEnum : record = .enum opened) : ∃ isScoped, node.kind = .enum isScoped := by
  cases opens with
  | enum kind => exact ⟨_, kind⟩
  | context => cases isEnum

/-- A class is opened with the open scopes among its supertypes. -/
theorem Opens.bases_eq {scopes : Scopes} {node : Node} {identifier : String} {record : Record}
    (opens : Opens groundwork scopes node identifier record) {opened : ContextRecord}
    {bases : List String} {holderType : Option String} {dynamicAttributes : Bool}
    (isContext : record = .contextOpen opened)
    (isClass : opened.sort = .class bases holderType dynamicAttributes) :
    bases = (groundwork.inheritance.registered node.id).filterMap scopes.identifier? := by
  cases opens with
  | enum => cases isContext
  | context sorted =>
      cases isContext
      rw [isClass] at sorted
      unfold sortOf? at sorted
      split at sorted
      · cases sorted
      · split at sorted <;> cases sorted
      · rw [Option.some.injEq, ContextSort.class.injEq] at sorted
        exact sorted.1.symm
      · cases sorted

namespace Stretch

variable {scopes after : Scopes} {unit : ScheduledUnit} {records : List Record}
  (stretch : Stretch groundwork configuration scopes unit records after)

include stretch

/-- The scopes that a stretch opens are those that its records open. -/
theorem opened_eq :
    after.opened =
      scopes.opened ++ (records.map (Entry.mk unit.id)).filterMap Entry.opening? := by
  cases stretch with
  | blocks isBlocks isRoot written =>
      rw [openings_of_items fun record member => (isItem_of_writes written record member).1,
        List.append_nil]
  | @opened node first body exportValues isUnit member isOpen opens written =>
      have isOpening : Entry.opening? ⟨unit.id, first⟩ = some (node.id, (scopes.enter node).1) := by
        unfold Entry.opening?
        rw [isUnit, opens.opens?_eq]
      have isClose : Entry.opening?
          ⟨unit.id, contextClose (scopes.enter node).1 exportValues⟩ = none := by
        unfold Entry.opening?
        rw [isUnit]
        rfl
      have noOpenings : (body.map (Entry.mk unit.id)).filterMap Entry.opening? = [] :=
        openings_of_items fun record member => (isItem_of_writes written record member).1
      rw [Scopes.opened_enter, List.map_append, List.map_cons, List.map_singleton,
        List.filterMap_append, List.filterMap_cons, isOpening, List.filterMap_cons, isClose]
      dsimp only
      rw [noOpenings]
      rfl
  | transparent isUnit member isOpen written =>
      rw [openings_of_items fun record member => (isItem_of_writes written record member).1,
        List.append_nil]
  | @typeAlias node target isUnit =>
      have noOpening : Entry.opening? ⟨unit.id, ofAlias groundwork scopes node target⟩ = none := by
        unfold Entry.opening?
        rw [isUnit]
      rw [List.map_singleton, List.filterMap_cons, noOpening]
      exact (List.append_nil _).symm

/-- A stretch opens the scope of the node that its unit opens. -/
theorem nodes_eq (laid : groundwork.Laid) :
    after.opened.map Prod.fst =
      scopes.opened.map Prod.fst ++ (opener? groundwork.graph unit).toList := by
  cases stretch with
  | blocks isBlocks isRoot written =>
      have noOpener : opener? groundwork.graph unit = none := by
        unfold opener?
        rcases isBlocks with isId | isId <;> rw [isId]
      rw [noOpener, Option.toList_none, List.append_nil]
  | @opened node first body exportValues isUnit member isOpen opens written =>
      rw [Scopes.opened_enter, opener?_of_context laid isUnit member, if_pos isOpen,
        List.map_append]
      rfl
  | @transparent node records isUnit member isOpen written =>
      rw [opener?_of_context laid isUnit member, if_neg (by simp [isOpen]), Option.toList_none,
        List.append_nil]
  | @typeAlias node target isUnit =>
      have noOpener : opener? groundwork.graph unit = none := by
        unfold opener?
        rw [isUnit]
      rw [noOpener, Option.toList_none, List.append_nil]

/-- A stretch of a unit whose node is not open leaves the scopes sound. -/
theorem sound (laid : groundwork.Laid) (isSound : scopes.Sound)
    (isNew : ∀ id, opener? groundwork.graph unit = some id →
      id ∉ scopes.opened.map Prod.fst) : after.Sound := by
  cases stretch with
  | @opened node first body exportValues isUnit member isOpen opens written =>
      apply isSound.enter
      apply isNew
      rw [opener?_of_context laid isUnit member, if_pos isOpen]
  | _ => exact isSound

end Stretch

/-! ## Runs -/

section Runs

variable (groundwork) (configuration : Configuration) (aliasTargets : List (Nat × Nat))

/-- The records of units, each with its unit. -/
def entries (scopes : Scopes) (units : List ScheduledUnit) : List Entry :=
  (stretches groundwork configuration aliasTargets scopes units).flatMap fun stretch =>
    stretch.2.map (Entry.mk stretch.1.id)

theorem entries_cons (scopes : Scopes) (unit : ScheduledUnit) (rest : List ScheduledUnit) :
    entries groundwork configuration aliasTargets scopes (unit :: rest) =
      (ofUnit groundwork configuration aliasTargets scopes unit).1.map (Entry.mk unit.id) ++
        entries groundwork configuration aliasTargets
          (ofUnit groundwork configuration aliasTargets scopes unit).2 rest := by
  unfold entries
  rw [stretches, List.flatMap_cons]

theorem map_record_entries (scopes : Scopes) (units : List ScheduledUnit) :
    (entries groundwork configuration aliasTargets scopes units).map Entry.record =
      ofUnits groundwork configuration aliasTargets scopes units := by
  rw [ofUnits_eq_flatMap]
  unfold entries
  rw [List.map_flatMap]
  congr 1
  funext stretch
  rw [List.map_map]
  exact List.map_id _

/-- The entry belongs to one of the units, at some place of its stretch, after the
entries of the units before it. -/
def Occurs (scopes : Scopes) (units : List ScheduledUnit) (earlier : List Entry)
    (entry : Entry) : Prop :=
  ∃ before unit after front back, units = before ++ unit :: after ∧ entry.unit = unit.id ∧
    (ofUnit groundwork configuration aliasTargets
      (scopesAfter groundwork configuration aliasTargets scopes before) unit).1 =
        front ++ entry.record :: back ∧
    earlier = entries groundwork configuration aliasTargets scopes before ++
      front.map (Entry.mk unit.id)

variable {groundwork configuration aliasTargets}

theorem Occurs.cons {scopes : Scopes} {unit : ScheduledUnit} {rest : List ScheduledUnit}
    {earlier : List Entry} {entry : Entry}
    (occurs : Occurs groundwork configuration aliasTargets
      (ofUnit groundwork configuration aliasTargets scopes unit).2 rest earlier entry) :
    Occurs groundwork configuration aliasTargets scopes (unit :: rest)
      ((ofUnit groundwork configuration aliasTargets scopes unit).1.map (Entry.mk unit.id) ++
        earlier) entry := by
  obtain ⟨before, other, after, front, back, isRest, isUnit, isStretch, isEarlier⟩ := occurs
  refine ⟨unit :: before, other, after, front, back, ?_, isUnit, isStretch, ?_⟩
  · rw [isRest, List.cons_append]
  · rw [isEarlier, entries_cons, List.append_assoc]

theorem occurs_of_split {scopes : Scopes} {units : List ScheduledUnit}
    {earlier later : List Entry} {entry : Entry}
    (split : entries groundwork configuration aliasTargets scopes units =
      earlier ++ entry :: later) :
    Occurs groundwork configuration aliasTargets scopes units earlier entry := by
  induction units generalizing scopes earlier with
  | nil =>
      have isNil : entries groundwork configuration aliasTargets scopes [] = [] := rfl
      rw [isNil] at split
      exact absurd split.symm (List.append_ne_nil_of_right_ne_nil _ (List.cons_ne_nil _ _))
  | cons unit rest inductionHypothesis =>
      rw [entries_cons] at split
      rcases List.append_eq_append_iff.mp split with
        ⟨middle, isEarlier, restSplit⟩ | ⟨middle, isStretch, isLater⟩
      · rw [isEarlier]
        exact (inductionHypothesis restSplit).cons
      · cases middle with
        | nil =>
            -- The stretch of the unit ends right before the entry.
            have restSplit : entries groundwork configuration aliasTargets
                (ofUnit groundwork configuration aliasTargets scopes unit).2 rest =
                  [] ++ entry :: later := isLater.symm
            have occurs := (inductionHypothesis restSplit).cons
            rw [isStretch, List.append_nil, List.append_nil] at occurs
            exact occurs
        | cons first middle =>
            rw [List.cons_append, List.cons.injEq] at isLater
            obtain ⟨rfl, _⟩ := isLater
            obtain ⟨front, others, isRecords, isFront, isOthers⟩ :=
              List.map_eq_append_iff.mp isStretch
            obtain ⟨record, back, isCons, isEntry, _⟩ := List.map_eq_cons_iff.mp isOthers
            refine ⟨[], unit, rest, front, back, rfl, ?_, ?_, isFront.symm⟩
            · rw [← isEntry]
            · rw [← isEntry, ← isCons]
              exact isRecords

/-- Units whose nodes are not open yet leave the scopes sound, and open those of
their nodes. -/
theorem scopesAfter_sound (laid : groundwork.Laid) {units : List ScheduledUnit} {scopes : Scopes}
    (areStretches : ∀ unit ∈ units, ∀ scopes, Stretch groundwork configuration scopes unit
      (ofUnit groundwork configuration aliasTargets scopes unit).1
      (ofUnit groundwork configuration aliasTargets scopes unit).2)
    (isSound : scopes.Sound)
    (distinct : (scopes.opened.map Prod.fst ++
      units.filterMap (opener? groundwork.graph)).Nodup) :
    (scopesAfter groundwork configuration aliasTargets scopes units).Sound ∧
      (scopesAfter groundwork configuration aliasTargets scopes units).opened.map Prod.fst =
        scopes.opened.map Prod.fst ++ units.filterMap (opener? groundwork.graph) := by
  induction units generalizing scopes with
  | nil => exact ⟨isSound, (List.append_nil _).symm⟩
  | cons unit rest inductionHypothesis =>
      have stretch := areStretches unit List.mem_cons_self scopes
      have isOpened := stretch.nodes_eq laid
      have together : (opener? groundwork.graph unit).toList ++
          rest.filterMap (opener? groundwork.graph) =
            (unit :: rest).filterMap (opener? groundwork.graph) := by
        rw [List.filterMap_cons]
        cases opener? groundwork.graph unit <;> rfl
      have isNew : ∀ id, opener? groundwork.graph unit = some id →
          id ∉ scopes.opened.map Prod.fst := by
        intro id isOpener isOpen
        rw [← together, isOpener] at distinct
        exact (List.nodup_append'.mp distinct).2.2 isOpen List.mem_cons_self
      rw [← together, ← List.append_assoc, ← isOpened] at distinct
      obtain ⟨onwards, areOpened⟩ := inductionHypothesis
        (fun other member => areStretches other (List.mem_cons_of_mem unit member))
        (stretch.sound laid isSound isNew) distinct
      refine ⟨onwards, ?_⟩
      rw [scopesAfter, areOpened, isOpened, List.append_assoc, together]

/-- The scopes that units open are those that their records open. -/
theorem opened_scopesAfter {units : List ScheduledUnit} {scopes : Scopes}
    (areStretches : ∀ unit ∈ units, ∀ scopes, Stretch groundwork configuration scopes unit
      (ofUnit groundwork configuration aliasTargets scopes unit).1
      (ofUnit groundwork configuration aliasTargets scopes unit).2) :
    (scopesAfter groundwork configuration aliasTargets scopes units).opened =
      scopes.opened ++ (entries groundwork configuration aliasTargets scopes units).filterMap
        Entry.opening? := by
  induction units generalizing scopes with
  | nil => exact (List.append_nil _).symm
  | cons unit rest inductionHypothesis =>
      have isOpened := (areStretches unit List.mem_cons_self scopes).opened_eq
      rw [scopesAfter, inductionHypothesis fun other member =>
        areStretches other (List.mem_cons_of_mem unit member), isOpened, entries_cons,
        List.filterMap_append, List.append_assoc]

end Runs

end Registrar.Record
