import Mathlib
import Registrar.Proofs.Record.Shape

/-!
Contract: the nodes that records are about.

Owns: which nodes a record of a schedule is about, that there is no record
without an origin, and that a node that records are about is emitted or is not
marked as hidden.

Does not own: which nodes are emitted.

A member can be registered without being emitted, where a class takes it from an
inlined base, and an accessor can be named by a property. Both are passed over if
they are marked as hidden.
-/

set_option autoImplicit false

namespace Registrar

/-- The node is emitted, or it is not marked as hidden. -/
def Groundwork.Admits (groundwork : Groundwork) (id : Nat) : Prop :=
  ∃ node, groundwork.graph.node? id = some node ∧
    (groundwork.visibility.isEmitted id = true ∨ node.marking.visible ≠ some false)

namespace Item

/-- The nodes that an item is about where the properties are those of its context:
what it registers, or what reads and writes the property. -/
def subjects (properties : List Property) : Item → List Nat
  | .property name =>
      ((properties.find? fun property => property.name == name).map Property.methods).getD []
  | item => item.nodes

end Item

namespace Record

/-- A record of a unit, with the nodes it is about: it is the unit itself that is
opened, closed or named again, or one of its items is written. -/
inductive Origin (groundwork : Groundwork) (configuration : Configuration)
    (unit : ScheduledUnit) (record : Record) : List Nat → Prop where
  | unit {node : Node} (member : node ∈ groundwork.graph.nodes)
      (isUnit : unit.id.node? = some node.id) (notItem : record.isItem = false) :
      Origin groundwork configuration unit record [node.id]
  | item {context : Node} {item : Item} {scope : String} (listed : item ∈ unit.items)
      (inContext : unit.id.node?.getD Graph.root = context.id)
      (written : ofItem? groundwork configuration scope context item = some record) :
      Origin groundwork configuration unit record
        (item.subjects (groundwork.properties.get context.id))

variable {groundwork : Groundwork} {configuration : Configuration}

/-! ## Records have origins -/

theorem exists_origin_of_writes {unit : ScheduledUnit} {context : Node} {scope : String}
    {records : List Record}
    (written : List.Forall₂ (Writes groundwork configuration context scope) unit.items records)
    (inContext : unit.id.node?.getD Graph.root = context.id) {record : Record}
    (listed : record ∈ records) :
    ∃ subjects, Origin groundwork configuration unit record subjects := by
  obtain ⟨item, isItem, writes⟩ := exists_of_forall₂ written.flip listed
  exact ⟨_, .item isItem inContext writes.written⟩

/-- Items that no context is opened for are in that of their unit, or at the root. -/
theorem inContext_of_items {unit : ScheduledUnit} {context : Node}
    (isUnit : (unit.id = .context context.id ∧ context.opensScope = false) ∨
      ((unit.id = .early ∨ unit.id = .postamble) ∧ context.id = Graph.root)) :
    unit.id.node?.getD Graph.root = context.id := by
  rcases isUnit with ⟨isUnit, _⟩ | ⟨isUnit | isUnit, isRoot⟩
  · rw [isUnit, UnitId.node?, Option.getD_some]
  · rw [isUnit, isRoot]
    rfl
  · rw [isUnit, isRoot]
    rfl

/-- Every record of a unit has an origin. -/
theorem Shape.exists_origin {unit : ScheduledUnit} {records : List Record}
    (shape : Shape groundwork configuration unit records) {record : Record}
    (listed : record ∈ records) :
    ∃ subjects, Origin groundwork configuration unit record subjects := by
  cases shape with
  | @opened node identifier first body exportValues isUnit member isOpen opens isOpening written =>
      have isNode : unit.id.node? = some node.id := by rw [isUnit, UnitId.node?]
      rw [List.cons_append, List.mem_cons, List.mem_append, List.mem_singleton] at listed
      rcases listed with rfl | inBody | rfl
      · refine ⟨_, .unit member isNode ?_⟩
        rw [← Bool.not_eq_true]
        intro isItem
        rw [opens?_of_isItem isItem] at opens
        cases opens
      · exact exists_origin_of_writes written (by rw [isNode, Option.getD_some]) inBody
      · exact ⟨_, .unit member isNode rfl⟩
  | @items node scope records member isUnit written =>
      exact exists_origin_of_writes written (inContext_of_items isUnit) listed
  | typeAlias isUnit member =>
      rw [List.mem_singleton] at listed
      rw [listed]
      exact ⟨_, .unit member (by rw [isUnit, UnitId.node?]) rfl⟩

/-- Every item of a unit is the origin of a record. -/
theorem Shape.exists_record {unit : ScheduledUnit} {records : List Record}
    (shape : Shape groundwork configuration unit records) {item : Item}
    (isItem : item ∈ unit.items) :
    ∃ record ∈ records, Origin groundwork configuration unit record
      (item.subjects (groundwork.properties.get (unit.id.node?.getD Graph.root))) := by
  have ofWritten {context : Node} {scope : String} {written : List Record}
      (inContext : unit.id.node?.getD Graph.root = context.id)
      (isWritten : List.Forall₂ (Writes groundwork configuration context scope) unit.items
        written) :
      ∃ record ∈ written, Origin groundwork configuration unit record
        (item.subjects (groundwork.properties.get (unit.id.node?.getD Graph.root))) := by
    obtain ⟨record, listed, writes⟩ := exists_of_forall₂ isWritten isItem
    rw [inContext]
    exact ⟨record, listed, .item isItem inContext writes.written⟩
  cases shape with
  | opened isUnit member isOpen opens isOpening written =>
      obtain ⟨record, listed, origin⟩ := ofWritten (by rw [isUnit]; rfl) written
      exact ⟨record, by simp [listed], origin⟩
  | items member isUnit written => exact ofWritten (inContext_of_items isUnit) written
  | typeAlias isUnit member noItems =>
      rw [noItems] at isItem
      cases isItem

/-! ## Records that are no items -/

theorem isItem_of_ofMember? {scope : String} {context : Node} {used : Member} {record : Record}
    (written : ofMember? groundwork configuration scope context used = some record) :
    record.isItem = true := by
  obtain ⟨node, _, written⟩ := Option.bind_eq_some_iff.mp written
  split at written
  case h_3 | h_4 =>
    obtain ⟨called, _, isRecord⟩ := Option.bind_eq_some_iff.mp written
    rw [← Option.some.inj isRecord]
    exact (operatorRecord_registers node called).2.1
  case h_8 => cases written
  case h_1 | h_2 =>
    obtain ⟨called, _, isRecord⟩ := Option.bind_eq_some_iff.mp written
    rw [← Option.some.inj isRecord]
    rfl
  all_goals
    rw [← Option.some.inj written]
    rfl

/-- An item becomes a record that registers it. -/
theorem isItem_of_ofItem? {scope : String} {context : Node} {item : Item} {record : Record}
    (written : ofItem? groundwork configuration scope context item = some record) :
    record.isItem = true := by
  cases item with
  | member used => exact isItem_of_ofMember? written
  | constructors nodes =>
      rw [← Option.some.inj written]
      rfl
  | property name =>
      obtain ⟨property, _, written⟩ := Option.bind_eq_some_iff.mp written
      obtain ⟨getter, _, written⟩ := Option.bind_eq_some_iff.mp written
      rw [← Option.some.inj written]
      rfl
  | manualBlock id =>
      obtain ⟨node, _, written⟩ := Option.bind_eq_some_iff.mp written
      split at written
      · rw [← Option.some.inj written]
        rfl
      · cases written

/-- A record that is no item is about the node of its unit alone. -/
theorem Origin.node?_of_notItem {unit : ScheduledUnit} {record : Record} {subjects : List Nat}
    (origin : Origin groundwork configuration unit record subjects)
    (notItem : record.isItem = false) {id : Nat} (subject : id ∈ subjects) :
    unit.id.node? = some id := by
  cases origin with
  | unit member isUnit =>
      rw [List.mem_singleton.mp subject]
      exact isUnit
  | item listed inContext written =>
      rw [isItem_of_ofItem? written] at notItem
      cases notItem

end Record

/-! ## Nodes that records can be about -/

section Admits

variable {groundwork : Groundwork} (laid : groundwork.Laid)

include laid

namespace Groundwork.Laid

theorem admits_of_isEmitted {node : Node} (member : node ∈ groundwork.graph.nodes)
    (isEmitted : groundwork.visibility.isEmitted node.id = true) : groundwork.Admits node.id :=
  ⟨node, laid.wired.node?_id member, .inl isEmitted⟩

theorem admits_of_visible {node : Node} (member : node ∈ groundwork.graph.nodes)
    (isVisible : (node.marking.visible != some false) = true) : groundwork.Admits node.id :=
  ⟨node, laid.wired.node?_id member, .inr (bne_iff_ne.mp isVisible)⟩

/-- A class takes no member that is marked as hidden. -/
theorem admits_of_inlinableMembers {base : Node} {id : Nat}
    (inlinable : id ∈ Inheritance.inlinableMembers groundwork.graph base) :
    groundwork.Admits id := by
  obtain ⟨member, kept, rfl⟩ := List.mem_map.mp inlinable
  obtain ⟨below, isInlinable⟩ := List.mem_filter.mp kept
  rw [Bool.and_eq_true] at isInlinable
  exact laid.admits_of_visible (Graph.mem_nodes_of_childrenOf below) isInlinable.2

theorem admits_of_inherited {id : Nat} {member : Member}
    (taken : member ∈ groundwork.inheritance.inherited id) : groundwork.Admits member.node := by
  obtain ⟨configuration, inherited⟩ := laid.inheritance
  obtain ⟨_, base, _, _, _, inlinable⟩ :=
    Inheritance.exists_base_of_inherited laid.wired inherited taken
  exact laid.admits_of_inlinableMembers inlinable

/-- No accessor that is marked as hidden makes a property. -/
theorem admits_of_accessorMethods {node accessor : Node}
    (isAccessor : accessor ∈
      Property.accessorMethods groundwork.graph groundwork.inheritance node) :
    groundwork.Admits accessor.id := by
  unfold Property.accessorMethods at isAccessor
  rcases List.mem_append.mp (List.mem_of_mem_filter isAccessor) with own | inherited
  · obtain ⟨below, isKept⟩ := List.mem_filter.mp own
    rw [Bool.and_eq_true] at isKept
    exact laid.admits_of_visible (Graph.mem_nodes_of_childrenOf below) isKept.2
  · obtain ⟨id, isTaken, found⟩ := Graph.mem_nodesOf.mp inherited
    obtain ⟨member, taken, rfl⟩ := List.mem_map.mp isTaken
    rw [laid.wired.id_eq found]
    exact laid.admits_of_inherited taken

theorem admits_of_attachedTo {id owner : Nat}
    (attached : id ∈ groundwork.operators.attachedTo owner) : groundwork.Admits id := by
  obtain ⟨configuration, inherited⟩ := laid.inheritance
  rw [laid.operators] at attached
  obtain ⟨node, candidate, rfl⟩ := OperatorTable.exists_candidate_of_attachedTo attached
  obtain ⟨member, isEmitted | isInlined⟩ := OperatorTable.mem_candidates.mp candidate
  · exact laid.admits_of_isEmitted member isEmitted
  · obtain ⟨base, inlinable⟩ :=
      Inheritance.exists_base_of_inlinedNodes laid.wired inherited isInlined
    exact laid.admits_of_inlinableMembers inlinable

/-- What reads and writes a property of a class can be told of. -/
theorem admits_of_property {name : String} {properties : Nat} {id : Nat}
    (subject : id ∈ Item.subjects (groundwork.properties.get properties) (.property name)) :
    groundwork.Admits id := by
  unfold Item.subjects at subject
  dsimp only at subject
  cases found : (groundwork.properties.get properties).find? fun property =>
      property.name == name with
  | none => simp [found] at subject
  | some property =>
      rw [found, Option.map_some, Option.getD_some] at subject
      obtain ⟨_, accessor, isAccessor, rfl⟩ := PropertyTable.exists_accessor laid.properties
        (List.mem_of_find?_eq_some found) subject
      exact laid.admits_of_accessorMethods isAccessor

end Groundwork.Laid

namespace Item

variable {context : Node} {item : Item} (member : context ∈ groundwork.graph.nodes)

include member

theorem admits_of_emittedChildren {declared : Node}
    (below : declared ∈ emittedChildren groundwork context) : groundwork.Admits declared.id := by
  obtain ⟨⟨declaredMember, _⟩, isEmitted⟩ := (mem_emittedChildren laid.wired member).mp below
  exact laid.admits_of_isEmitted declaredMember isEmitted

/-- What the items of a context register is emitted, or is not marked as hidden. -/
theorem Source.admits (source : Source groundwork context item) {id : Nat}
    (registers : id ∈ item.nodes) : groundwork.Admits id := by
  cases source with
  | namespaceMember below registered =>
      rw [List.mem_singleton.mp registers]
      exact admits_of_emittedChildren laid member below
  | enumerator below isValue =>
      rw [List.mem_singleton.mp registers]
      exact admits_of_emittedChildren laid member below
  | @classMember used declared isClass taken found registered =>
      rw [List.mem_singleton.mp registers]
      unfold Inheritance.members at taken
      rcases List.mem_append.mp taken with own | inherited
      · obtain ⟨child, kept, rfl⟩ := List.mem_map.mp own
        obtain ⟨below, isKept⟩ := List.mem_filter.mp kept
        rw [Bool.and_eq_true] at isKept
        exact laid.admits_of_isEmitted (Graph.mem_nodes_of_childrenOf below) isKept.2
      · exact laid.admits_of_inherited inherited
  | constructors =>
      obtain ⟨declared, kept, rfl⟩ := List.mem_map.mp registers
      exact admits_of_emittedChildren laid member (List.mem_of_mem_filter kept)
  | property => cases registers
  | attached isClass owned found =>
      rw [List.mem_singleton.mp registers, laid.wired.id_eq found]
      exact laid.admits_of_attachedTo owned

theorem admits_of_source (source : Source groundwork context item ∨ IsBlock groundwork context item)
    {properties : Nat} {id : Nat}
    (subject : id ∈ item.subjects (groundwork.properties.get properties)) :
    groundwork.Admits id := by
  cases item with
  | property name => exact laid.admits_of_property subject
  | _ =>
      rcases source with source | ⟨declared, below, _, isBlock⟩
      · exact source.admits laid member subject
      · rw [isBlock] at subject
        rw [List.mem_singleton.mp subject]
        exact admits_of_emittedChildren laid member below

end Item

/-- A node that a record of a schedule is about is emitted, or is not marked as
hidden. -/
theorem Record.Origin.admits {configuration : Configuration} {schedule : Schedule}
    {inner : List ScheduledUnit} (made : Schedule.Made groundwork schedule inner)
    {unit : ScheduledUnit} (listed : unit ∈ schedule.units) {record : Record}
    {subjects : List Nat} (origin : Origin groundwork configuration unit record subjects)
    {id : Nat} (subject : id ∈ subjects) : groundwork.Admits id := by
  cases origin with
  | unit member isUnit notItem =>
      rw [List.mem_singleton.mp subject]
      exact laid.admits_of_isEmitted member (made.unitOf?_of_mem_units laid listed member isUnit).1
  | item isItem inContext written =>
      obtain ⟨context, member, source⟩ := made.exists_source laid listed isItem
      exact Item.admits_of_source laid member source subject

end Admits

end Registrar
