import Mathlib
import Registrar.Proofs.Schedule.Units

/-!
Contract: the records of the items of a context.

Owns: which record an item becomes, and that every item of a context becomes
one.

Does not own: the records that open and close contexts.
-/

set_option autoImplicit false

namespace Registrar

namespace Record

/-! ## Sorts of records -/

/-- Whether the record registers an item, and neither opens nor closes a context
nor names a second time. -/
def isItem : Record → Bool
  | contextOpen _ | enum _ | contextClose _ _ | .typeAlias _ => false
  | _ => true

/-- The qualified name of the member that is registered. -/
def memberName? : Record → Option String
  | method called | function called | operator _ _ called => some called.qualifiedName
  | field stored | .variable stored => some stored.qualifiedName
  | enumerator named => some named.qualifiedName
  | _ => none

theorem exists_of_forall₂ {α β : Type} {relates : α → β → Prop} {items : List α}
    {others : List β} (related : List.Forall₂ relates items others) {item : α}
    (listed : item ∈ items) : ∃ other ∈ others, relates item other := by
  obtain ⟨index, inside, rfl⟩ := List.mem_iff_getElem.mp listed
  have sameLength := related.length_eq
  exact ⟨others[index], List.getElem_mem (by omega), related.get inside (by omega)⟩

/-- The record registers the item of a context: the member it is, each of the
constructors as an overload in order, the property with its getter, or the block. -/
def Registers (groundwork : Groundwork) (context : Node) (record : Record) : Item → Prop
  | .member used =>
      ∃ declared, groundwork.graph.node? used.node = some declared ∧
        record.memberName? = some declared.qualifiedName
  | .constructors nodes =>
      ∃ scope overloads, record = constructors scope overloads ∧
        List.Forall₂ (fun id (overload : ConstructorRecord) =>
          ∃ declared, groundwork.graph.node? id = some declared ∧
            overload.qualifiedName = declared.qualifiedName) nodes overloads
  | .property name =>
      ∃ stored property getter, record = .property stored ∧ stored.name = name ∧
        property ∈ groundwork.properties.get context.id ∧ property.name = name ∧
        groundwork.graph.node? property.getter = some getter ∧
        stored.getter = getter.qualifiedName
  | .manualBlock id =>
      ∃ declared scope body, groundwork.graph.node? id = some declared ∧
        declared.kind = .manualBlock body ∧ record = .manualBlock scope body

/-- The item is written as the record, which registers it in the scope. -/
structure Writes (groundwork : Groundwork) (configuration : Configuration) (context : Node)
    (scope : String) (item : Item) (record : Record) : Prop where
  written : ofItem? groundwork configuration scope context item = some record
  registers : Registers groundwork context record item
  isItem : record.isItem = true
  scope : record.scope? = some scope

variable {groundwork : Groundwork} {configuration : Configuration} {scope : String}
  {context : Node}

/-! ## Members -/

/-- Whether declarations of the kind can be registered as members. -/
def isRegistrable : DeclarationKind → Bool
  | .function signature _ => !signature.isDeleted
  | .method signature _ _ => !signature.isDeleted
  | .operator _ signature _ => !signature.isDeleted
  | .conversionFunction signature => !signature.isDeleted
  | .field _ _ _ | .variable _ _ | .enumerator _ => true
  | _ => false

theorem exists_functionRecord {member : Member} {node : Node} {signature : Signature}
    (isSignature : node.kind.signature? = some signature)
    (callable : signature.isDeleted = false) :
    ∃ called, functionRecord? groundwork configuration scope member node = some called ∧
      called.scope = scope ∧ called.qualifiedName = node.qualifiedName := by
  unfold functionRecord?
  rw [isSignature]
  dsimp only
  rw [callable, if_neg Bool.false_ne_true]
  exact ⟨_, rfl, rfl, rfl⟩

/-- Whatever an operator becomes, it is registered under its qualified name. -/
theorem operatorRecord_registers (node : Node) (called : FunctionRecord) :
    (operatorRecord groundwork context node called).memberName? = some called.qualifiedName ∧
      (operatorRecord groundwork context node called).isItem = true ∧
      (operatorRecord groundwork context node called).scope? = some called.scope := by
  unfold operatorRecord
  split
  · exact ⟨rfl, rfl, rfl⟩
  · split <;> exact ⟨rfl, rfl, rfl⟩

theorem exists_writes_called {used : Member} {declared : Node} {signature : Signature}
    {make : FunctionRecord → Record} (found : groundwork.graph.node? used.node = some declared)
    (isSignature : declared.kind.signature? = some signature)
    (callable : (!signature.isDeleted) = true)
    (isMade : ofMember? groundwork configuration scope context used =
      (functionRecord? groundwork configuration scope used declared).bind fun called =>
        some (make called))
    (makes : ∀ called, (make called).memberName? = some called.qualifiedName ∧
      (make called).isItem = true ∧ (make called).scope? = some called.scope) :
    ∃ record, Writes groundwork configuration context scope (.member used) record := by
  rw [Bool.not_eq_true'] at callable
  obtain ⟨called, isCalled, inScope, named⟩ :=
    @exists_functionRecord groundwork configuration scope used declared signature isSignature
      callable
  obtain ⟨isNamed, isItem, isScoped⟩ := makes called
  refine ⟨make called, ?_, ⟨declared, found, ?_⟩, isItem, ?_⟩
  · show ofMember? groundwork configuration scope context used = some (make called)
    rw [isMade, isCalled, Option.bind_some]
  · rw [isNamed, named]
  · rw [isScoped, inScope]

/-- A member that can be registered is. -/
theorem exists_writes_member {used : Member} {declared : Node}
    (found : groundwork.graph.node? used.node = some declared)
    (registrable : isRegistrable declared.kind = true) :
    ∃ record, Writes groundwork configuration context scope (.member used) record := by
  cases kind : declared.kind with
  | function signature template =>
      rw [kind] at registrable
      apply @exists_writes_called _ _ _ _ used declared signature function found
      · rw [kind]
        rfl
      · exact registrable
      · simp [ofMember?, found, kind]
      · exact fun called => ⟨rfl, rfl, rfl⟩
  | method signature isStatic isConst =>
      rw [kind] at registrable
      apply @exists_writes_called _ _ _ _ used declared signature method found
      · rw [kind]
        rfl
      · exact registrable
      · simp [ofMember?, found, kind]
      · exact fun called => ⟨rfl, rfl, rfl⟩
  | operator symbol signature isMember =>
      rw [kind] at registrable
      apply @exists_writes_called _ _ _ _ used declared signature
        (operatorRecord groundwork context declared) found
      · rw [kind]
        rfl
      · exact registrable
      · simp [ofMember?, found, kind]
      · exact operatorRecord_registers declared
  | conversionFunction signature =>
      rw [kind] at registrable
      apply @exists_writes_called _ _ _ _ used declared signature
        (operatorRecord groundwork context declared) found
      · rw [kind]
        rfl
      · exact registrable
      · simp [ofMember?, found, kind]
      · exact operatorRecord_registers declared
  | field type isConst isStatic =>
      exact ⟨_, by simp [ofItem?, ofMember?, found, kind]; rfl, ⟨declared, found, rfl⟩, rfl, rfl⟩
  | «variable» type isConst =>
      exact ⟨_, by simp [ofItem?, ofMember?, found, kind]; rfl, ⟨declared, found, rfl⟩, rfl, rfl⟩
  | enumerator value =>
      exact ⟨_, by simp [ofItem?, ofMember?, found, kind]; rfl, ⟨declared, found, rfl⟩, rfl, rfl⟩
  | _ =>
      rw [kind] at registrable
      cases registrable

/-! ## Items -/

theorem isRegistrable_of_isNamespaceMember {operators : OperatorTable} {declared : Node}
    (registered : Item.isNamespaceMember operators declared = true) :
    isRegistrable declared.kind = true := by
  unfold Item.isNamespaceMember at registered
  cases kind : declared.kind <;> simp_all [isRegistrable]

theorem isRegistrable_of_isClassMember {operators : OperatorTable} {declared : Node}
    (registered : Item.isClassMember operators declared = true) :
    isRegistrable declared.kind = true := by
  unfold Item.isClassMember at registered
  cases kind : declared.kind <;> simp_all [isRegistrable]

theorem isRegistrable_of_assigned {declared : Node} {entry : OperatorEntry}
    (assigned : OperatorTable.Assigned declared entry) :
    isRegistrable declared.kind = true := by
  obtain ⟨signature, isSignature, callable⟩ := assigned.callable
  have isOne := assigned.target
  cases kind : declared.kind <;>
    simp_all [isRegistrable, DeclarationKind.signature?, DeclarationKind.target]

theorem exists_constructorRecord {declared : Node} (isOne : Item.isConstructor declared = true) :
    ∃ overload, constructorRecord? configuration declared = some overload := by
  unfold Item.isConstructor at isOne
  unfold constructorRecord?
  cases kind : declared.kind <;> simp_all

theorem qualifiedName_of_constructorRecord? {declared : Node} {overload : ConstructorRecord}
    (isOverload : constructorRecord? configuration declared = some overload) :
    overload.qualifiedName = declared.qualifiedName := by
  unfold constructorRecord? at isOverload
  split at isOverload
  · split at isOverload
    · cases isOverload
    · rw [← Option.some.inj isOverload]
  · cases isOverload

/-- Every constructor of an overloaded one becomes an overload. -/
theorem constructors_overloads {ids : List Nat}
    (areConstructors : ∀ id ∈ ids, ∃ declared, groundwork.graph.node? id = some declared ∧
      Item.isConstructor declared = true) :
    List.Forall₂ (fun id overload =>
        ∃ declared, groundwork.graph.node? id = some declared ∧
          constructorRecord? configuration declared = some overload)
      ids ((groundwork.graph.nodesOf ids).filterMap (constructorRecord? configuration)) := by
  induction ids with
  | nil => exact .nil
  | cons first rest inductionHypothesis =>
      obtain ⟨declared, found, isOne⟩ := areConstructors first List.mem_cons_self
      obtain ⟨overload, isOverload⟩ := @exists_constructorRecord configuration declared isOne
      have others := inductionHypothesis fun id listed =>
        areConstructors id (List.mem_cons_of_mem first listed)
      unfold Graph.nodesOf at others ⊢
      rw [List.filterMap_cons, found]
      dsimp only
      rw [List.filterMap_cons, isOverload]
      exact .cons ⟨declared, found, isOverload⟩ others

theorem exists_writes_property {property : Property} (laid : groundwork.Laid)
    (isProperty : property ∈ groundwork.properties.get context.id) :
    ∃ record, Writes groundwork configuration context scope (.property property.name) record := by
  cases first : (groundwork.properties.get context.id).find? fun other =>
      other.name == property.name with
  | none =>
      rw [List.find?_eq_none] at first
      exact absurd (beq_self_eq_true property.name) (first property isProperty)
  | some other =>
      have sameName := List.find?_some first
      rw [beq_iff_eq] at sameName
      have isOther := List.mem_of_find?_eq_some first
      obtain ⟨getter, isGetter⟩ :=
        PropertyTable.exists_getter laid.wired laid.properties isOther
      refine ⟨_, by simp [ofItem?, propertyRecord?, first, isGetter]; rfl, ?_, rfl, rfl⟩
      exact ⟨_, other, getter, rfl, sameName, isOther, sameName, isGetter, rfl⟩

/-- Every item of a context becomes a record. -/
theorem exists_writes (laid : groundwork.Laid) (member : context ∈ groundwork.graph.nodes)
    {item : Item}
    (source : Item.Source groundwork context item ∨ Item.IsBlock groundwork context item) :
    ∃ record, Writes groundwork configuration context scope item record := by
  have isChild {declared : Node} (below : declared ∈ Item.emittedChildren groundwork context) :
      declared ∈ groundwork.graph.nodes :=
    ((Item.mem_emittedChildren laid.wired member).mp below).1.1
  rcases source with source | ⟨declared, below, isBlock, rfl⟩
  · cases source with
    | namespaceMember below registered =>
        exact exists_writes_member (laid.wired.node?_id (isChild below))
          (isRegistrable_of_isNamespaceMember registered)
    | @enumerator declared below isValue =>
        refine exists_writes_member (laid.wired.node?_id (isChild below)) ?_
        cases kind : declared.kind <;> simp_all [isRegistrable, DeclarationKind.target]
    | classMember isClass taken found registered =>
        exact exists_writes_member found (isRegistrable_of_isClassMember registered)
    | constructors =>
        refine ⟨_, rfl, ⟨scope, _, rfl, ?_⟩, rfl, rfl⟩
        refine (constructors_overloads ?_).imp ?_
        · exact Item.Source.isConstructor_of_mem laid member .constructors
        · rintro id overload ⟨declared, found, isOverload⟩
          exact ⟨declared, found, qualifiedName_of_constructorRecord? isOverload⟩
    | property isProperty => exact exists_writes_property laid isProperty
    | @attached declared id isClass owned found =>
        rw [laid.operators, OperatorTable.mem_attachedTo laid.wired] at owned
        obtain ⟨node, entry, isNode, assigned, _⟩ :=
          OperatorTable.exists_node_of_owner? laid.wired owned
        rw [found, Option.some.injEq] at isNode
        subst node
        rw [← laid.wired.id_eq found] at found
        exact exists_writes_member found (isRegistrable_of_assigned assigned)
  · have found := laid.wired.node?_id (isChild below)
    unfold Item.isManualBlock at isBlock
    rw [beq_iff_eq] at isBlock
    cases kind : declared.kind with
    | manualBlock body =>
        refine ⟨.manualBlock scope body, by simp [ofItem?, found, kind], ?_, rfl, rfl⟩
        exact ⟨declared, scope, body, found, kind, rfl⟩
    | _ =>
        rw [kind] at isBlock
        cases isBlock

/-- The items of a context become one record each, in order. -/
theorem ofItems_writes (laid : groundwork.Laid) (member : context ∈ groundwork.graph.nodes)
    {items : List Item}
    (sources : ∀ item ∈ items,
      Item.Source groundwork context item ∨ Item.IsBlock groundwork context item) :
    List.Forall₂ (Writes groundwork configuration context scope) items
      (ofItems groundwork configuration scope context items) := by
  induction items with
  | nil => exact .nil
  | cons first rest inductionHypothesis =>
      obtain ⟨record, writes⟩ : ∃ record,
          Writes groundwork configuration context scope first record :=
        exists_writes laid member (sources first List.mem_cons_self)
      have others := inductionHypothesis fun item listed =>
        sources item (List.mem_cons_of_mem first listed)
      unfold ofItems at others ⊢
      rw [List.filterMap_cons, writes.written]
      exact .cons writes others

end Record

end Registrar
