import Mathlib
import Registrar.Proofs.Schedule.Units

/-!
Contract: what is registered twice.

Owns: that a context registers each of its nodes once unless a free operator is
also a member of its class, and that no other context registers an operator that
is attached to a class.

Does not own: what is registered at all.
-/

set_option autoImplicit false

namespace Registrar

namespace Item

/-- The nodes that items register, whatever their places. -/
def registered (items : List PlacedItem) : List Nat :=
  items.flatMap fun placed => placed.item.nodes

theorem registered_append (left right : List PlacedItem) :
    registered (left ++ right) = registered left ++ registered right :=
  List.flatMap_append

theorem registered_own (nodes : List Node) :
    registered (nodes.map own) = nodes.map fun node => node.id := by
  induction nodes with
  | nil => rfl
  | cons first rest inductionHypothesis =>
      unfold registered at inductionHypothesis ⊢
      rw [List.map_cons, List.flatMap_cons, inductionHypothesis]
      rfl

variable {groundwork : Groundwork} {context : Node}

/-! ## Sorts of nodes -/

/-- The node with the number is of one of the sorts. -/
def IsOfSort (graph : Graph) (sorts : List Target) (id : Nat) : Prop :=
  ∃ declared, graph.node? id = some declared ∧ declared.kind.target ∈ sorts

theorem IsOfSort.contradiction {graph : Graph} {sorts others : List Target} {id : Nat}
    (ofSort : IsOfSort graph sorts id) (ofOther : IsOfSort graph others id)
    (apart : ∀ sort ∈ sorts, sort ∉ others) : False := by
  obtain ⟨declared, found, isSort⟩ := ofSort
  obtain ⟨other, otherFound, isOther⟩ := ofOther
  rw [found, Option.some.injEq] at otherFound
  subst other
  exact apart _ isSort isOther

theorem disjoint_of_isOfSort {graph : Graph} {left right : List Nat} {sorts others : List Target}
    (ofSorts : ∀ id ∈ left, IsOfSort graph sorts id)
    (ofOthers : ∀ id ∈ right, IsOfSort graph others id)
    (apart : ∀ sort ∈ sorts, sort ∉ others) : List.Disjoint left right :=
  fun id isLeft isRight => (ofSorts id isLeft).contradiction (ofOthers id isRight) apart

/-- The sorts of members of classes. -/
def memberSorts : List Target := [.method, .field, .operator, .conversionFunction]

theorem sort_of_isClassMember {operators : OperatorTable} {declared : Node}
    (registered : isClassMember operators declared = true) :
    declared.kind.target ∈ memberSorts := by
  unfold isClassMember at registered
  cases kind : declared.kind <;> simp_all [memberSorts, DeclarationKind.target]

theorem sort_of_isConstructor {declared : Node} (registered : isConstructor declared = true) :
    declared.kind.target = .constructor := by
  unfold isConstructor at registered
  cases kind : declared.kind <;> simp_all [DeclarationKind.target]

theorem sort_of_isNamespaceMember {operators : OperatorTable} {declared : Node}
    (registered : isNamespaceMember operators declared = true) :
    declared.kind.target ∈ [Target.function, .variable, .operator] := by
  unfold isNamespaceMember at registered
  cases kind : declared.kind <;> simp_all [DeclarationKind.target]

theorem sort_of_isInnerBlock {declared : Node} (registered : isInnerBlock declared = true) :
    declared.kind.target = .manualBlock := by
  unfold isInnerBlock isManualBlock at registered
  rw [Bool.and_eq_true, Bool.and_eq_true, beq_iff_eq] at registered
  exact registered.1.1

/-! ## Parts of a context -/

section Parts

variable (laid : groundwork.Laid) (member : context ∈ groundwork.graph.nodes)

include laid member

theorem selected_nodup (select : Node → Bool) :
    (((emittedChildren groundwork context).filter select).map fun node => node.id).Nodup := by
  have distinct := laid.wired.children_nodup member
  rw [← laid.wired.map_id_childrenOf member] at distinct
  unfold emittedChildren
  exact distinct.sublist ((List.filter_sublist.trans List.filter_sublist).map _)

theorem selected_isOfSort {select : Node → Bool} {sorts : List Target}
    (ofSort : ∀ declared, select declared = true → declared.kind.target ∈ sorts) :
    ∀ id ∈ ((emittedChildren groundwork context).filter select).map (fun node => node.id),
      IsOfSort groundwork.graph sorts id := by
  intro id listed
  obtain ⟨declared, kept, rfl⟩ := List.mem_map.mp listed
  obtain ⟨below, selected⟩ := List.mem_filter.mp kept
  have isNode := ((mem_emittedChildren laid.wired member).mp below).1.1
  exact ⟨declared, laid.wired.node?_id isNode, ofSort declared selected⟩

theorem constructors_isOfSort :
    ∀ id ∈ ((emittedChildren groundwork context).filter isConstructor).map (fun node => node.id),
      IsOfSort groundwork.graph [.constructor] id :=
  selected_isOfSort laid member fun _ isOne => List.mem_singleton.mpr (sort_of_isConstructor isOne)

theorem innerBlocks_isOfSort :
    ∀ id ∈ ((emittedChildren groundwork context).filter isInnerBlock).map (fun node => node.id),
      IsOfSort groundwork.graph [.manualBlock] id :=
  selected_isOfSort laid member fun _ isBlock =>
    List.mem_singleton.mpr (sort_of_isInnerBlock isBlock)

omit laid member in
theorem registered_classMembers_sublist :
    (registered (classMembers groundwork context)).Sublist
      ((groundwork.inheritance.members groundwork.graph groundwork.visibility context).map
        Member.node) := by
  unfold classMembers
  generalize groundwork.inheritance.members groundwork.graph groundwork.visibility context = used
  induction used with
  | nil => exact List.Sublist.refl []
  | cons first rest inductionHypothesis =>
      rw [List.filterMap_cons]
      split
      · exact inductionHypothesis.cons first.node
      · rename_i placed isItem
        have isFirst : placed.item = .member first := by
          split at isItem
          · split at isItem
            · rw [← Option.some.inj isItem]
            · cases isItem
          · cases isItem
        unfold registered at inductionHypothesis ⊢
        rw [List.flatMap_cons, isFirst]
        exact inductionHypothesis.cons_cons first.node

omit laid member in
theorem registered_classMembers_isOfSort :
    ∀ id ∈ registered (classMembers groundwork context),
      IsOfSort groundwork.graph memberSorts id := by
  intro id listed
  obtain ⟨placed, isItem, isNode⟩ := List.mem_flatMap.mp listed
  obtain ⟨used, _, isPlaced⟩ := List.mem_filterMap.mp isItem
  split at isPlaced
  · rename_i declared found
    split at isPlaced
    · rename_i isMember
      rw [← Option.some.inj isPlaced, nodes, List.mem_singleton] at isNode
      rw [isNode]
      exact ⟨declared, found, sort_of_isClassMember isMember⟩
    · cases isPlaced
  · cases isPlaced

omit laid member in
theorem registered_constructorsOf_sublist :
    (registered (constructorsOf groundwork context)).Sublist
      (((emittedChildren groundwork context).filter isConstructor).map fun node => node.id) := by
  unfold constructorsOf
  dsimp only
  split
  · unfold registered
    rw [List.flatMap_cons, List.flatMap_nil, List.append_nil]
    exact List.Sublist.refl _
  · exact List.nil_sublist _

omit laid member in
theorem registered_propertiesOf : registered (propertiesOf groundwork context) = [] := by
  unfold registered propertiesOf
  rw [List.flatMap_map]
  exact List.flatMap_eq_nil_iff.mpr fun _ _ => rfl

omit member in
theorem registered_attachedOperators :
    registered (attachedOperators groundwork context) =
      groundwork.operators.attachedTo context.id := by
  unfold attachedOperators
  rw [registered_own]
  apply laid.wired.map_id_nodesOf
  intro id owned
  rw [laid.operators, OperatorTable.mem_attachedTo laid.wired] at owned
  obtain ⟨node, _, found, _⟩ := OperatorTable.exists_node_of_owner? laid.wired owned
  exact Graph.node?_lt found

omit member in
theorem attached_isOfSort :
    ∀ id ∈ groundwork.operators.attachedTo context.id,
      IsOfSort groundwork.graph [.operator] id := by
  intro id owned
  rw [laid.operators, OperatorTable.mem_attachedTo laid.wired] at owned
  obtain ⟨node, _, found, _, isOperator, _⟩ :=
    OperatorTable.exists_node_of_owner? laid.wired owned
  exact ⟨node, found, List.mem_singleton.mpr isOperator⟩

omit laid member in
theorem registered_blocksOf :
    registered (blocksOf groundwork context) =
      ((emittedChildren groundwork context).filter isInnerBlock).map fun node => node.id := by
  unfold registered blocksOf
  generalize (emittedChildren groundwork context).filter isInnerBlock = blocks
  induction blocks with
  | nil => rfl
  | cons first rest inductionHypothesis =>
      rw [List.map_cons, List.flatMap_cons, inductionHypothesis]
      rfl

omit member in
theorem registered_collect_of_class (isClass : context.kind.target = .class) :
    registered (collect groundwork context) =
      registered (classMembers groundwork context) ++ registered (constructorsOf groundwork context)
        ++ groundwork.operators.attachedTo context.id
        ++ ((emittedChildren groundwork context).filter isInnerBlock).map fun node => node.id := by
  have registrations : registrationsOf groundwork context =
      classMembers groundwork context ++ constructorsOf groundwork context
        ++ propertiesOf groundwork context ++ attachedOperators groundwork context := by
    unfold registrationsOf
    cases kind : context.kind <;> simp_all [DeclarationKind.target]
  unfold collect
  rw [registrations, registered_append, registered_append, registered_append, registered_append,
    registered_propertiesOf, List.append_nil, registered_attachedOperators laid,
    registered_blocksOf]

theorem registered_class_nodup (isClass : context.kind.target = .class)
    (apart : ∀ used ∈ groundwork.inheritance.members groundwork.graph groundwork.visibility context,
      groundwork.operators.owner? used.node = none) :
    (registered (collect groundwork context)).Nodup := by
  have constructorsSorted : ∀ id ∈ registered (constructorsOf groundwork context),
      IsOfSort groundwork.graph [.constructor] id := by
    intro id listed
    exact constructors_isOfSort laid member id (registered_constructorsOf_sublist.subset listed)
  have blocksSorted := innerBlocks_isOfSort laid member
  have operatorsNodup : (groundwork.operators.attachedTo context.id).Nodup := by
    rw [laid.operators]
    exact OperatorTable.attachedTo_nodup laid.wired context.id
  have membersNodup : (registered (classMembers groundwork context)).Nodup := by
    obtain ⟨configuration, inherited⟩ := laid.inheritance
    exact (Inheritance.members_nodup laid.wired inherited member).sublist
      registered_classMembers_sublist
  have constructorsNodup : (registered (constructorsOf groundwork context)).Nodup :=
    (selected_nodup laid member isConstructor).sublist registered_constructorsOf_sublist
  rw [registered_collect_of_class laid isClass, List.nodup_append', List.nodup_append',
    List.nodup_append', List.disjoint_append_left, List.disjoint_append_left,
    List.disjoint_append_left]
  refine ⟨⟨⟨membersNodup, constructorsNodup, ?_⟩, operatorsNodup, ?_, ?_⟩,
    selected_nodup laid member isInnerBlock, ⟨?_, ?_⟩, ?_⟩
  · exact disjoint_of_isOfSort registered_classMembers_isOfSort constructorsSorted (by decide)
  · intro id isMember isAttached
    obtain ⟨used, taken, rfl⟩ := List.mem_map.mp (registered_classMembers_sublist.subset isMember)
    rw [laid.operators, OperatorTable.mem_attachedTo laid.wired, ← laid.operators, apart used taken]
      at isAttached
    cases isAttached
  · exact disjoint_of_isOfSort constructorsSorted (attached_isOfSort laid) (by decide)
  · exact disjoint_of_isOfSort registered_classMembers_isOfSort blocksSorted (by decide)
  · exact disjoint_of_isOfSort constructorsSorted blocksSorted (by decide)
  · exact disjoint_of_isOfSort (attached_isOfSort laid) blocksSorted (by decide)

/-- What a context other than a class registers is selected among its children. -/
theorem registered_selected_nodup (select : Node → Bool) (sorts : List Target)
    (registrations : registrationsOf groundwork context =
      ((emittedChildren groundwork context).filter select).map own)
    (ofSort : ∀ declared, select declared = true → declared.kind.target ∈ sorts)
    (noBlock : .manualBlock ∉ sorts) : (registered (collect groundwork context)).Nodup := by
  unfold collect
  rw [registrations, registered_append, registered_own, registered_blocksOf, List.nodup_append']
  refine ⟨selected_nodup laid member select, selected_nodup laid member isInnerBlock, ?_⟩
  refine disjoint_of_isOfSort (selected_isOfSort laid member ofSort)
    (innerBlocks_isOfSort laid member) ?_
  intro sort isSort isBlock
  rw [List.mem_singleton.mp isBlock] at isSort
  exact noBlock isSort

/-- A context registers each of its nodes once, unless it is a class that has a
free operator attached to a class among its members. -/
theorem registered_collect_nodup (apart : context.kind.target = .class →
      ∀ used ∈ groundwork.inheritance.members groundwork.graph groundwork.visibility context,
        groundwork.operators.owner? used.node = none) :
    (registered (collect groundwork context)).Nodup := by
  cases kind : context.kind with
  | translationUnit =>
      refine registered_selected_nodup laid member (isNamespaceMember groundwork.operators) _ ?_
        (fun declared => sort_of_isNamespaceMember) (by decide)
      rw [registrationsOf, kind]
  | «namespace» isInline =>
      refine registered_selected_nodup laid member (isNamespaceMember groundwork.operators) _ ?_
        (fun declared => sort_of_isNamespaceMember) (by decide)
      rw [registrationsOf, kind]
  | «class» bases template =>
      have isClass : context.kind.target = .class := by
        rw [kind]
        rfl
      exact registered_class_nodup laid member isClass (apart isClass)
  | enum isScoped =>
      refine registered_selected_nodup laid member _ [.enumerator] ?_
        (fun declared isValue => List.mem_singleton.mpr (beq_iff_eq.mp isValue)) (by decide)
      rw [registrationsOf, kind]
  | _ =>
      refine registered_selected_nodup laid member (fun _ => false) [] ?_
        (fun declared isNone => by cases isNone) List.not_mem_nil
      rw [registrationsOf, kind]
      simp

end Parts

theorem registered_of_ofContext {ordered : List Item}
    (isOrder : ofContext groundwork context = .ok ordered) :
    (ordered.flatMap nodes).Perm (registered (collect groundwork context)) := by
  have moved := (inOrder_perm isOrder).flatMap_right nodes
  rw [List.flatMap_map] at moved
  exact moved

theorem attached_isOperator (laid : groundwork.Laid) {operator owner : Nat}
    (attached : groundwork.operators.owner? operator = some owner) :
    IsOfSort groundwork.graph [.operator] operator := by
  rw [laid.operators] at attached
  obtain ⟨node, _, found, _, isOperator, _⟩ :=
    OperatorTable.exists_node_of_owner? laid.wired attached
  exact ⟨node, found, List.mem_singleton.mpr isOperator⟩

/-- A manual block is no operator. -/
theorem IsBlock.not_attached {item : Item} {operator owner : Nat}
    (isBlock : IsBlock groundwork context item) (laid : groundwork.Laid)
    (member : context ∈ groundwork.graph.nodes)
    (attached : groundwork.operators.owner? operator = some owner) : operator ∉ item.nodes := by
  intro registers
  obtain ⟨declared, below, isManual, rfl⟩ := isBlock
  rw [nodes, List.mem_singleton] at registers
  subst operator
  have isManualSort : IsOfSort groundwork.graph [.manualBlock] declared.id :=
    ⟨declared, node?_of_emittedChildren laid member below,
      List.mem_singleton.mpr (beq_iff_eq.mp isManual)⟩
  exact (attached_isOperator laid attached).contradiction isManualSort (by decide)

/-- An operator that is attached to a class is registered by the class alone, as
long as no class has it among its members. -/
theorem Source.owner_eq {item : Item} {operator owner : Nat}
    (source : Source groundwork context item) (laid : groundwork.Laid)
    (member : context ∈ groundwork.graph.nodes)
    (apart : context.kind.target = .class →
      ∀ used ∈ groundwork.inheritance.members groundwork.graph groundwork.visibility context,
        groundwork.operators.owner? used.node = none)
    (attached : groundwork.operators.owner? operator = some owner)
    (registers : operator ∈ item.nodes) : context.id = owner := by
  have isOperator := attached_isOperator laid attached
  cases source with
  | @namespaceMember declared below registered =>
      rw [nodes, List.mem_singleton] at registers
      subst operator
      exfalso
      unfold isNamespaceMember at registered
      obtain ⟨other, found, isSort⟩ := isOperator
      rw [node?_of_emittedChildren laid member below, Option.some.injEq] at found
      subst other
      rw [List.mem_singleton] at isSort
      cases kind : declared.kind <;> simp_all [DeclarationKind.target]
  | @enumerator declared below isValue =>
      rw [nodes, List.mem_singleton] at registers
      subst operator
      have isValueSort : IsOfSort groundwork.graph [.enumerator] declared.id :=
        ⟨declared, node?_of_emittedChildren laid member below, List.mem_singleton.mpr isValue⟩
      exact (isOperator.contradiction isValueSort (by decide)).elim
  | @classMember used declared isClass taken found registered =>
      rw [nodes, List.mem_singleton] at registers
      rw [registers, apart isClass used taken] at attached
      cases attached
  | constructors =>
      have isConstructor := constructors_isOfSort laid member operator registers
      exact (isOperator.contradiction isConstructor (by decide)).elim
  | property isProperty => cases registers
  | @attached declared id isClass owned found =>
      have sameNode : operator = id := by
        rw [nodes, List.mem_singleton] at registers
        rw [registers]
        exact laid.wired.id_eq found
      rw [laid.operators, OperatorTable.mem_attachedTo laid.wired, ← laid.operators,
        ← sameNode, attached, Option.some.injEq] at owned
      exact owned.symm

/-- The class that an operator is attached to has it as an item. -/
theorem attached_mem_collect {operator : Nat} (laid : groundwork.Laid)
    (isClass : context.kind.target = .class)
    (attached : groundwork.operators.owner? operator = some context.id) :
    .member { node := operator } ∈ (collect groundwork context).map PlacedItem.item := by
  have owned := attached
  rw [laid.operators] at attached
  obtain ⟨node, _, found, _⟩ := OperatorTable.exists_node_of_owner? laid.wired attached
  have listed : own node ∈ attachedOperators groundwork context := by
    refine List.mem_map_of_mem (Graph.mem_nodesOf.mpr ⟨operator, ?_, found⟩)
    rw [laid.operators, OperatorTable.mem_attachedTo laid.wired, ← laid.operators]
    exact owned
  have isRegistration : own node ∈ registrationsOf groundwork context := by
    unfold registrationsOf
    cases kind : context.kind <;> simp_all [DeclarationKind.target]
  have isItem : (own node).item = .member { node := operator } := by
    rw [own, laid.wired.id_eq found]
  rw [← isItem]
  exact List.mem_map_of_mem (List.mem_append_left _ isRegistration)

/-- A member of a class that is an operator attached to some class is an item. -/
theorem attached_mem_classMembers {used : Member} {owner : Nat} (laid : groundwork.Laid)
    (taken : used ∈ groundwork.inheritance.members groundwork.graph groundwork.visibility context)
    (attached : groundwork.operators.owner? used.node = some owner) :
    used.node ∈ registered (classMembers groundwork context) := by
  rw [laid.operators] at attached
  obtain ⟨node, entry, found, assigned, isOperator, hasSlot⟩ :=
    OperatorTable.exists_node_of_owner? laid.wired attached
  rw [← laid.operators] at hasSlot
  obtain ⟨signature, isSignature, callable⟩ := assigned.callable
  have isMember : isClassMember groundwork.operators node = true := by
    unfold isClassMember
    rw [← laid.wired.id_eq found] at hasSlot
    cases kind : node.kind <;>
      simp_all [DeclarationKind.target, DeclarationKind.signature?]
  refine List.mem_flatMap.mpr ⟨⟨.member used, node.order⟩, ?_, List.mem_singleton_self _⟩
  refine List.mem_filterMap.mpr ⟨used, taken, ?_⟩
  rw [found]
  dsimp only
  rw [if_pos isMember]

end Item

namespace Schedule

/-- No node is registered twice: not in one unit, and an operator that is attached
to a class is registered there, as a member of its own, and nowhere else. -/
def RegistersOnce (groundwork : Groundwork) (schedule : Schedule) : Prop :=
  (∀ unit ∈ schedule.units, (unit.items.flatMap Item.nodes).Nodup) ∧
    ∀ operator owner, groundwork.operators.owner? operator = some owner →
      (∃ unit ∈ schedule.units, unit.id = .context owner ∧
          .member { node := operator } ∈ unit.items) ∧
        ∀ unit ∈ schedule.units, operator ∈ unit.items.flatMap Item.nodes →
          unit.id = .context owner

/-- No emitted class has an operator that is attached to a class among its
members. -/
def MembersApart (groundwork : Groundwork) : Prop :=
  ∀ node ∈ groundwork.graph.nodes, groundwork.visibility.isEmitted node.id = true →
    node.kind.target = .class →
    ∀ used ∈ groundwork.inheritance.members groundwork.graph groundwork.visibility node,
      groundwork.operators.owner? used.node = none

instance (groundwork : Groundwork) : Decidable (MembersApart groundwork) :=
  inferInstanceAs (Decidable (∀ node ∈ groundwork.graph.nodes, _))

variable {groundwork : Groundwork} {schedule : Schedule} {inner : List ScheduledUnit}

theorem rootBlocks_nodup (laid : groundwork.Laid) (placement : Placement) :
    ((rootBlocks groundwork placement).flatMap Item.nodes).Nodup := by
  obtain ⟨root, member, isRoot⟩ := laid.exists_root
  have isSelected : (rootBlocks groundwork placement).flatMap Item.nodes =
      ((Item.emittedChildren groundwork root).filter fun node =>
        Item.isManualBlock node && node.marking.placement == some placement).map
          fun node => node.id := by
    unfold rootBlocks
    rw [isRoot]
    dsimp only
    rw [List.flatMap_map, ← List.flatMap_pure_eq_map]
    rfl
  rw [isSelected]
  exact Item.selected_nodup laid member _

section Registering

variable (made : Made groundwork schedule inner) (laid : groundwork.Laid)

include made laid

theorem Made.items_nodup (apart : MembersApart groundwork) {unit : ScheduledUnit}
    (listed : unit ∈ schedule.units) : (unit.items.flatMap Item.nodes).Nodup := by
  rcases made.mem_units.mp listed with early | listed | postamble
  · rw [eq_of_mem_blockUnit early]
    exact rootBlocks_nodup laid .early
  · rcases made.unit_cases laid listed with ⟨node, member, _, emitted, _, items⟩ | isAlias
    · apply (Item.registered_of_ofContext items).nodup_iff.mpr
      exact Item.registered_collect_nodup laid member (apart node member emitted)
    · obtain ⟨_, _, _, _, _, _, isNil⟩ := isAlias
      rw [isNil]
      exact List.nodup_nil
  · rw [eq_of_mem_blockUnit postamble]
    exact rootBlocks_nodup laid .postamble

/-- An attached operator is a member in the unit of its owner. -/
theorem Made.exists_owner_unit {operator owner : Nat}
    (attached : groundwork.operators.owner? operator = some owner) :
    ∃ unit ∈ schedule.units, unit.id = .context owner ∧
      .member { node := operator } ∈ unit.items := by
  have isEmitted := attached
  rw [laid.operators] at isEmitted
  obtain ⟨emitted, ownerNode, isOwner, isClass⟩ :=
    OperatorTable.owner_isEmitted laid.wired isEmitted
  have ownerMember := Graph.mem_nodes_of_node? isOwner
  have sameId := laid.wired.id_eq isOwner
  subst owner
  obtain ⟨unit, listed, isId, items⟩ := made.exists_items laid ownerMember emitted
    (DeclarationKind.isContext_iff.mpr (.inr (.inr (.inl isClass))))
  exact ⟨unit, listed, isId,
    (Item.inOrder_perm items).mem_iff.mpr (Item.attached_mem_collect laid isClass attached)⟩

/-- An attached operator is registered in no other unit. -/
theorem Made.id_of_registers (apart : MembersApart groundwork) {operator owner : Nat}
    (attached : groundwork.operators.owner? operator = some owner) {unit : ScheduledUnit}
    (listed : unit ∈ schedule.units) (registers : operator ∈ unit.items.flatMap Item.nodes) :
    unit.id = .context owner := by
  obtain ⟨item, isItem, registers⟩ := List.mem_flatMap.mp registers
  obtain ⟨root, rootMember, isRoot⟩ := laid.exists_root
  rcases made.mem_units.mp listed with early | listed | postamble
  · rw [eq_of_mem_blockUnit early] at isItem
    have isBlock := Item.isBlock_of_mem_rootBlocks isRoot isItem
    exact absurd registers (isBlock.not_attached laid rootMember attached)
  · rcases made.unit_cases laid listed with ⟨node, member, sameUnit, emitted, _, items⟩ | isAlias
    · rcases Item.source_of_mem_ofContext items isItem with source | isBlock
      · rw [sameUnit, source.owner_eq laid member (apart node member emitted) attached registers]
      · exact absurd registers (isBlock.not_attached laid member attached)
    · obtain ⟨_, _, _, _, _, _, isNil⟩ := isAlias
      rw [isNil] at isItem
      cases isItem
  · rw [eq_of_mem_blockUnit postamble] at isItem
    have isBlock := Item.isBlock_of_mem_rootBlocks isRoot isItem
    exact absurd registers (isBlock.not_attached laid rootMember attached)

theorem Made.registersOnce (apart : MembersApart groundwork) :
    RegistersOnce groundwork schedule := by
  refine ⟨fun unit listed => made.items_nodup laid apart listed, ?_⟩
  intro operator owner attached
  refine ⟨made.exists_owner_unit laid attached, ?_⟩
  intro unit listed registers
  exact made.id_of_registers laid apart attached listed registers

end Registering

/-- A member that is an operator attached to a class is registered with the member's
class as well, so twice. -/
theorem Made.membersApart (made : Made groundwork schedule inner) (laid : groundwork.Laid)
    (once : RegistersOnce groundwork schedule) : MembersApart groundwork := by
  intro node member emitted isClass used taken
  cases attached : groundwork.operators.owner? used.node with
  | none => rfl
  | some owner =>
      exfalso
      obtain ⟨unit, listed, isId, items⟩ := made.exists_items laid member emitted
        (DeclarationKind.isContext_iff.mpr (.inr (.inr (.inl isClass))))
      have isMember := Item.attached_mem_classMembers laid taken attached
      have all := Item.registered_of_ofContext items
      rw [Item.registered_collect_of_class laid isClass] at all
      have registers : used.node ∈ unit.items.flatMap Item.nodes := by
        refine all.mem_iff.mpr ?_
        simp only [List.mem_append]
        exact .inl (.inl (.inl isMember))
      have isOwner := (once.2 used.node owner attached).2 unit listed registers
      rw [isId, UnitId.context.injEq] at isOwner
      -- So the class owns the operator, and has it once more as an attached one.
      have distinct := all.nodup_iff.mp (once.1 unit listed)
      have isAttached : used.node ∈ groundwork.operators.attachedTo node.id := by
        rw [isOwner, laid.operators, OperatorTable.mem_attachedTo laid.wired, ← laid.operators]
        exact attached
      have apart := (List.nodup_append'.mp (List.nodup_append'.mp distinct).1).2.2
      exact apart (List.mem_append_left _ isMember) isAttached

end Schedule

namespace Plan

variable {configuration : Configuration} {unit : TranslationUnit} {plan : Plan}

/-- Nothing is registered twice exactly where no emitted class has a free operator
that is attached to a class among its members, be it declared in the class or taken
from an inlined base. -/
theorem registersOnce_iff_membersApart (planned : ofUnit configuration unit = .ok plan) :
    Schedule.RegistersOnce plan.groundwork plan.schedule ↔
      Schedule.MembersApart plan.groundwork := by
  obtain ⟨laid, inner, made⟩ := exists_made planned
  exact ⟨made.membersApart laid, made.registersOnce laid⟩

/-- A visible class with a free operator declared in it. -/
def nestedOperator : TranslationUnit where
  root := { id := 0, kind := .translationUnit, order := 0 }
  others :=
    [ { id := 1, kind := .class [] none, name := "A", qualifiedName := "A", parent := some 0
        order := 1, payloads := [.text "visible"] },
      { id := 2
        kind := .operator "+" { parameters := [{ name := "l", type := "A" },
          { name := "r", type := "int" }], returnType := "A" } false
        name := "operator+", qualifiedName := "A::operator+", parent := some 1, order := 2 } ]
  valid := by decide

theorem nestedOperator_registeredTwice :
    ∃ plan, ofUnit {} nestedOperator = .ok plan ∧
      ¬ Schedule.RegistersOnce plan.groundwork plan.schedule := by
  have together : (ofUnit {} nestedOperator).toOption.any
      (fun plan => !decide (Schedule.MembersApart plan.groundwork)) = true := by decide +kernel
  obtain ⟨plan, planned, notApart⟩ := exists_of_any together
  refine ⟨plan, planned, ?_⟩
  rw [registersOnce_iff_membersApart planned]
  simpa using notApart

end Plan

end Registrar
