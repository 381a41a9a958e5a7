import Mathlib
import Registrar.Proofs.Hidden
import Registrar.Proofs.Property.Accessors

/-!
Contract: records of deleted callables.

Owns: that no deleted callable is registered, and that those that are accessors are
read and written by properties all the same.

Does not own: which methods are accessors.

Whether a callable is deleted is asked where members, operators and constructors are
collected, and not where accessors are.
-/

set_option autoImplicit false

namespace Registrar

/-- The node is a callable that is deleted. -/
def Node.IsDeleted (node : Node) : Prop :=
  ∃ signature, node.kind.signature? = some signature ∧ signature.isDeleted = true

theorem Node.not_isDeleted_of_noSignature {node : Node} (isNone : node.kind.signature? = none) :
    ¬ node.IsDeleted := by
  rintro ⟨signature, isSignature, _⟩
  rw [isNone] at isSignature
  cases isSignature

theorem Node.not_isDeleted_of_isRegistrable {node : Node}
    (registrable : Record.isRegistrable node.kind = true) : ¬ node.IsDeleted := by
  rintro ⟨signature, isSignature, deleted⟩
  cases kind : node.kind <;>
    simp_all [Record.isRegistrable, DeclarationKind.signature?]

theorem Node.not_isDeleted_of_isConstructor {node : Node}
    (isConstructor : Item.isConstructor node = true) : ¬ node.IsDeleted := by
  rintro ⟨signature, isSignature, deleted⟩
  cases kind : node.kind <;>
    simp_all [Item.isConstructor, DeclarationKind.signature?]

namespace Plan

/-- The record of the plan is about the node. -/
def Tells (configuration : Configuration) (plan : Plan) (node : Node) (record : Record) : Prop :=
  ∃ stretch ∈ plan.stretches configuration, record ∈ stretch.2 ∧
    ∃ subjects, Record.Origin plan.groundwork configuration stretch.1 record subjects ∧
      node.id ∈ subjects

/-- Properties alone tell of deleted callables, and of exactly those that are accessors of
emitted classes. -/
structure TellsDeletedAccessors (configuration : Configuration) (plan : Plan) : Prop where
  /-- No record of a function, an operator or constructors tells of a deleted one. -/
  asAccessor : ∀ node ∈ plan.groundwork.graph.nodes, node.IsDeleted →
    ∀ record, Tells configuration plan node record → ∃ stored, record = .property stored
  /-- The deleted callables that are told of are the accessors of emitted classes. -/
  exactly : ∀ node ∈ plan.groundwork.graph.nodes, node.IsDeleted →
    ((∃ record, Tells configuration plan node record) ↔
      ∃ owner ∈ plan.groundwork.graph.nodes,
        plan.groundwork.visibility.isEmitted owner.id = true ∧ owner.kind.target = .class ∧
        node ∈ Property.accessorMethods plan.groundwork.graph plan.groundwork.inheritance owner)

end Plan

/-! ## Items -/

section Items

variable {groundwork : Groundwork} (laid : groundwork.Laid) {context node : Node} {item : Item}

include laid

/-- No item registers a deleted callable. -/
theorem Item.not_isDeleted_of_source (member : context ∈ groundwork.graph.nodes)
    (source : Source groundwork context item ∨ IsBlock groundwork context item)
    (found : groundwork.graph.node? node.id = some node) (registers : node.id ∈ item.nodes) :
    ¬ node.IsDeleted := by
  have isDeclared {declared : Node} (below : declared ∈ emittedChildren groundwork context)
      (sameId : node.id = declared.id) : node = declared := by
    have isOther := node?_of_emittedChildren laid member below
    rw [← sameId, found] at isOther
    exact Option.some.inj isOther
  rcases source with source | ⟨declared, below, isBlock, rfl⟩
  · cases source with
    | namespaceMember below registered =>
        rw [isDeclared below (List.mem_singleton.mp registers)]
        exact Node.not_isDeleted_of_isRegistrable
          (Record.isRegistrable_of_isNamespaceMember registered)
    | @enumerator declared below isValue =>
        rw [isDeclared below (List.mem_singleton.mp registers)]
        refine Node.not_isDeleted_of_noSignature ?_
        cases kind : declared.kind <;> simp_all [DeclarationKind.target, DeclarationKind.signature?]
    | @classMember used declared isClass taken isFound registered =>
        rw [← List.mem_singleton.mp registers, found, Option.some.injEq] at isFound
        rw [isFound]
        exact Node.not_isDeleted_of_isRegistrable
          (Record.isRegistrable_of_isClassMember registered)
    | constructors =>
        obtain ⟨declared, isFound, isOne⟩ :=
          Source.isConstructor_of_mem laid member .constructors _ registers
        rw [found, Option.some.injEq] at isFound
        rw [isFound]
        exact Node.not_isDeleted_of_isConstructor isOne
    | property => cases registers
    | @attached declared id isClass owned isFound =>
        rw [laid.operators, OperatorTable.mem_attachedTo laid.wired] at owned
        obtain ⟨other, entry, isNode, assigned, _⟩ :=
          OperatorTable.exists_node_of_owner? laid.wired owned
        have sameId : node.id = declared.id := List.mem_singleton.mp registers
        rw [← laid.wired.id_eq isFound, ← sameId, found, Option.some.injEq] at isNode
        rw [isNode]
        exact Node.not_isDeleted_of_isRegistrable (Record.isRegistrable_of_assigned assigned)
  · rw [isDeclared below (List.mem_singleton.mp registers)]
    refine Node.not_isDeleted_of_noSignature ?_
    unfold isManualBlock at isBlock
    cases kind : declared.kind <;> simp_all [DeclarationKind.target, DeclarationKind.signature?]

/-- What reads or writes a property is an accessor of an emitted class. -/
theorem Item.exists_owner_of_property {name : String} {id : Nat}
    (found : groundwork.graph.node? node.id = some node)
    (subject : node.id ∈ subjects (groundwork.properties.get id) (.property name)) :
    ∃ owner ∈ groundwork.graph.nodes, groundwork.visibility.isEmitted owner.id = true ∧
      owner.kind.target = .class ∧
      node ∈ Property.accessorMethods groundwork.graph groundwork.inheritance owner := by
  unfold subjects at subject
  dsimp only at subject
  cases isProperty : (groundwork.properties.get id).find? fun property =>
      property.name == name with
  | none => simp [isProperty] at subject
  | some property =>
      rw [isProperty, Option.map_some, Option.getD_some] at subject
      obtain ⟨owner, isOwner, isEmitted, isClass, ofClass⟩ :=
        (PropertyTable.mem_get_iff laid.properties laid.wired).mp
          (List.mem_of_find?_eq_some isProperty)
      obtain ⟨accessor, isAccessor, sameId⟩ := Property.exists_accessor_of_ofClass ofClass subject
      have isFound := laid.wired.node?_id (Property.accessorMethods_subset owner isAccessor)
      rw [sameId, found, Option.some.injEq] at isFound
      rw [← laid.wired.id_eq isOwner] at isEmitted
      rw [isFound]
      exact ⟨owner, Graph.mem_nodes_of_node? isOwner, isEmitted, isClass, isAccessor⟩

/-- An accessor of an emitted class reads or writes a property that is an item of it. -/
theorem Item.exists_property_of_accessor {owner : Node} (member : owner ∈ groundwork.graph.nodes)
    (isEmitted : groundwork.visibility.isEmitted owner.id = true)
    (isClass : owner.kind.target = .class)
    (isAccessor : node ∈
      Property.accessorMethods groundwork.graph groundwork.inheritance owner) :
    ∃ name, .property name ∈ (collect groundwork owner).map PlacedItem.item ∧
      node.id ∈ subjects (groundwork.properties.get owner.id) (.property name) := by
  obtain ⟨property, listed, isMethod⟩ := PropertyTable.exists_property laid.properties laid.wired
    member isEmitted isClass isAccessor
  refine ⟨property.name, ?_, ?_⟩
  · refine List.mem_map.mpr ⟨⟨.property property.name, property.order⟩,
      List.mem_append_left _ ?_, rfl⟩
    unfold registrationsOf
    cases kind : owner.kind <;> simp [kind, DeclarationKind.target] at isClass
    have isItem : ⟨.property property.name, property.order⟩ ∈ propertiesOf groundwork owner :=
      List.mem_map_of_mem listed
    simp [isItem]
  · unfold subjects
    dsimp only
    cases first : (groundwork.properties.get owner.id).find? fun other =>
        other.name == property.name with
    | none =>
        rw [List.find?_eq_none] at first
        exact absurd (beq_self_eq_true property.name) (first property listed)
    | some other =>
        have sameName := List.find?_some first
        rw [beq_iff_eq] at sameName
        rw [PropertyTable.eq_of_name_eq laid.properties laid.wired
          (List.mem_of_find?_eq_some first) listed sameName]
        exact isMethod

end Items

/-! ## Records -/

section Records

variable {groundwork : Groundwork} {configuration : Configuration} {schedule : Schedule}
  {inner : List ScheduledUnit} (laid : groundwork.Laid)
  (made : Schedule.Made groundwork schedule inner)

include laid made

/-- A record of a deleted callable is that of a property, and the callable an accessor. -/
theorem Record.Origin.property_of_isDeleted {unit : ScheduledUnit}
    (listed : unit ∈ schedule.units) {record : Record} {subjects : List Nat}
    (origin : Origin groundwork configuration unit record subjects) {node : Node}
    (member : node ∈ groundwork.graph.nodes) (subject : node.id ∈ subjects)
    (deleted : node.IsDeleted) :
    (∃ stored, record = .property stored) ∧
      ∃ owner ∈ groundwork.graph.nodes, groundwork.visibility.isEmitted owner.id = true ∧
        owner.kind.target = .class ∧
        node ∈ Property.accessorMethods groundwork.graph groundwork.inheritance owner := by
  have found := laid.wired.node?_id member
  cases origin with
  | @unit other otherMember isUnit notItem =>
      have same := laid.wired.eq_of_id_eq member otherMember (List.mem_singleton.mp subject)
      rw [← same] at isUnit
      refine absurd deleted (Node.not_isDeleted_of_noSignature ?_)
      rcases Schedule.unitOf?_eq_some (made.unitOf?_of_mem_units laid listed member isUnit).2 with
        ⟨_, isContext⟩ | ⟨_, isAlias, _⟩
      · cases kind : node.kind <;>
          simp_all [DeclarationKind.isContext, DeclarationKind.signature?]
      · cases kind : node.kind <;>
          simp_all [DeclarationKind.target, DeclarationKind.signature?]
  | @item context item scope isItem inContext written =>
      obtain ⟨around, aroundMember, source⟩ := made.exists_source laid listed isItem
      cases item with
      | property name =>
          refine ⟨?_, Item.exists_owner_of_property laid found subject⟩
          obtain ⟨property, _, written⟩ := Option.bind_eq_some_iff.mp written
          obtain ⟨getter, _, written⟩ := Option.bind_eq_some_iff.mp written
          exact ⟨_, (Option.some.inj written).symm⟩
      | _ =>
          exact absurd deleted
            (Item.not_isDeleted_of_source laid aroundMember source found subject)

end Records

/-! ## Plans -/

namespace Plan

variable {configuration : Configuration} {unit : TranslationUnit} {plan : Plan}

/-- An accessor of an emitted class has a record. -/
theorem exists_tells_of_accessor (planned : ofUnit configuration unit = .ok plan)
    {node owner : Node} (member : owner ∈ plan.groundwork.graph.nodes)
    (isEmitted : plan.groundwork.visibility.isEmitted owner.id = true)
    (isClass : owner.kind.target = .class)
    (isAccessor : node ∈
      Property.accessorMethods plan.groundwork.graph plan.groundwork.inheritance owner) :
    ∃ record, Tells configuration plan node record := by
  obtain ⟨laid, inner, made⟩ := exists_made planned
  obtain ⟨name, isItem, subject⟩ :=
    Item.exists_property_of_accessor laid member isEmitted isClass isAccessor
  obtain ⟨scheduled, listed, isId, items⟩ := made.exists_items laid member isEmitted
    (DeclarationKind.isContext_iff.mpr (.inr (.inr (.inl isClass))))
  rw [← map_fst_stretches configuration plan] at listed
  obtain ⟨stretch, isStretch, rfl⟩ := List.mem_map.mp listed
  have scheduledItem := (Item.inOrder_perm items).mem_iff.mpr isItem
  obtain ⟨record, isRecord, origin⟩ :=
    (Record.shape_of_mem_stretches laid made isStretch).exists_record scheduledItem
  rw [isId] at origin
  exact ⟨record, stretch, isStretch, isRecord, _, origin, subject⟩

/-- No record tells of a deleted callable but that of a property, which does wherever one is
an accessor of an emitted class. -/
theorem tellsDeletedAccessors (planned : ofUnit configuration unit = .ok plan) :
    TellsDeletedAccessors configuration plan := by
  obtain ⟨laid, inner, made⟩ := exists_made planned
  have ofRecord : ∀ node ∈ plan.groundwork.graph.nodes, node.IsDeleted → ∀ record,
      Tells configuration plan node record → (∃ stored, record = .property stored) ∧
        ∃ owner ∈ plan.groundwork.graph.nodes,
          plan.groundwork.visibility.isEmitted owner.id = true ∧ owner.kind.target = .class ∧
          node ∈ Property.accessorMethods plan.groundwork.graph plan.groundwork.inheritance
            owner := by
    rintro node member deleted record ⟨stretch, isStretch, _, subjects, origin, subject⟩
    exact origin.property_of_isDeleted laid made (Record.mem_stretches isStretch).1 member subject
      deleted
  refine ⟨fun node member deleted record tells => (ofRecord node member deleted record tells).1,
    fun node member deleted => ⟨?_, ?_⟩⟩
  · rintro ⟨record, tells⟩
    exact (ofRecord node member deleted record tells).2
  · rintro ⟨owner, ownerMember, isEmitted, isClass, isAccessor⟩
    exact exists_tells_of_accessor planned ownerMember isEmitted isClass isAccessor

/-- A visible class with a deleted method that reads a property. -/
def deletedGetter : TranslationUnit where
  root := { id := 0, kind := .translationUnit, order := 0 }
  others :=
    [ { id := 1, kind := .class [] none, name := "A", qualifiedName := "A", parent := some 0
        order := 1, payloads := [.text "visible"] },
      { id := 2, kind := .method { returnType := "int", isDeleted := true } false false
        name := "get", qualifiedName := "A::get", parent := some 1, order := 2
        payloads := [.map [("getter_for", .string "x")]] } ]
  valid := by decide

theorem deletedGetter_isTold :
    ∃ plan, ofUnit {} deletedGetter = .ok plan ∧ TellsDeletedAccessors {} plan ∧
      ∃ node ∈ plan.groundwork.graph.nodes, node.IsDeleted ∧
        ∃ record, Tells {} plan node record := by
  have isPlanned : (ofUnit {} deletedGetter).toOption.any (fun plan =>
      plan.groundwork.graph.nodes.any fun owner =>
        plan.groundwork.visibility.isEmitted owner.id && owner.kind.target == .class &&
          (Property.accessorMethods plan.groundwork.graph plan.groundwork.inheritance owner).any
            fun node => node.kind.signature?.any Signature.isDeleted) = true := by
    decide +kernel
  obtain ⟨plan, planned, holds⟩ := exists_of_any isPlanned
  obtain ⟨owner, ownerMember, holds⟩ := List.any_eq_true.mp holds
  rw [Bool.and_eq_true, Bool.and_eq_true, beq_iff_eq] at holds
  obtain ⟨⟨isEmitted, isClass⟩, holds⟩ := holds
  obtain ⟨node, isAccessor, isDeleted⟩ := List.any_eq_true.mp holds
  have deleted : node.IsDeleted := (Option.any_eq_true _ _).mp isDeleted
  have member := Property.accessorMethods_subset owner isAccessor
  have tells := tellsDeletedAccessors planned
  exact ⟨plan, planned, tells, node, member, deleted,
    (tells.exactly node member deleted).mpr ⟨owner, ownerMember, isEmitted, isClass, isAccessor⟩⟩

end Plan

end Registrar
