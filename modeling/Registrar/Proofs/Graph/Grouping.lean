import Mathlib
import Registrar.Graph.Entity
import Registrar.Proofs.TranslationUnit

/-!
Contract: what holds of the groups of declarations and of the entities made of
them.

Owns: that no declaration is lost or counted twice, that the group of the root
comes first, that groups are in source order, and which entity stands around
another.

Does not own: what the annotations of a group add up to.
-/

set_option autoImplicit false

namespace Registrar

namespace Group

/-! ## Nothing is lost -/

theorem mem_members_first (group : Group) : group.first ∈ group.members := List.mem_cons_self

theorem insert_perm (key : String) (declaration : Declaration) (groups : List Group) :
    ((insert key declaration groups).flatMap members).Perm
      (groups.flatMap members ++ [declaration]) := by
  induction groups with
  | nil => simp [insert, members]
  | cons group rest inductionHypothesis =>
      rw [insert]
      split
      · simp only [List.flatMap_cons, members, List.cons_append, List.append_assoc]
        refine List.Perm.cons _ (List.Perm.append_left _ ?_)
        exact (List.perm_append_singleton declaration _).symm
      · simp only [List.flatMap_cons, List.append_assoc]
        exact List.Perm.append_left _ inductionHypothesis

theorem add_perm (groups : List Group) (declaration : Declaration) :
    ((add groups declaration).flatMap members).Perm
      (groups.flatMap members ++ [declaration]) := by
  rw [add]
  split
  · exact insert_perm _ declaration groups
  · simp [members]

/-- Every declaration is in one group, as often as it is in the list. -/
theorem ofDeclarations_perm (declarations : List Declaration) :
    ((ofDeclarations declarations).flatMap members).Perm declarations := by
  have fromGroups (groups : List Group) (declarations : List Declaration) :
      ((declarations.foldl add groups).flatMap members).Perm
        (groups.flatMap members ++ declarations) := by
    induction declarations generalizing groups with
    | nil => simp
    | cons declaration rest inductionHypothesis =>
        rw [List.foldl_cons, List.append_cons]
        refine (inductionHypothesis (add groups declaration)).trans ?_
        exact (add_perm groups declaration).append_right rest
  exact fromGroups [] declarations

/-- A declaration that is listed is in some group. -/
theorem exists_mem_ofDeclarations {declarations : List Declaration} {declaration : Declaration}
    (listed : declaration ∈ declarations) :
    ∃ group ∈ ofDeclarations declarations, declaration ∈ group.members :=
  List.mem_flatMap.mp ((ofDeclarations_perm declarations).mem_iff.mpr listed)

/-- What is in a group is listed. -/
theorem mem_of_mem_ofDeclarations {declarations : List Declaration} {group : Group}
    (member : group ∈ ofDeclarations declarations) {declaration : Declaration}
    (grouped : declaration ∈ group.members) : declaration ∈ declarations :=
  (ofDeclarations_perm declarations).mem_iff.mp (List.mem_flatMap.mpr ⟨group, member, grouped⟩)

/-- No declaration is in two groups, or in one twice. -/
theorem members_disjoint (unit : TranslationUnit) :
    (∀ group ∈ ofDeclarations unit.declarations, group.members.Nodup) ∧
      (ofDeclarations unit.declarations).Pairwise (Function.onFun List.Disjoint members) := by
  rw [← List.nodup_flatMap, (ofDeclarations_perm unit.declarations).nodup_iff]
  exact List.Nodup.of_map Declaration.id unit.ids_nodup

/-- No two groups share a declaration. -/
theorem index_eq_of_shared {unit : TranslationUnit} {left right : Nat}
    {leftGroup rightGroup : Group}
    (isLeft : (ofDeclarations unit.declarations)[left]? = some leftGroup)
    (isRight : (ofDeclarations unit.declarations)[right]? = some rightGroup)
    {shared : Declaration} (leftListed : shared ∈ leftGroup.members)
    (rightListed : shared ∈ rightGroup.members) : left = right := by
  obtain ⟨leftInside, rfl⟩ := List.getElem?_eq_some_iff.mp isLeft
  obtain ⟨rightInside, rfl⟩ := List.getElem?_eq_some_iff.mp isRight
  have disjoint := List.pairwise_iff_getElem.mp (members_disjoint unit).2
  rcases Nat.lt_trichotomy left right with before | same | after
  · exact (disjoint left right leftInside rightInside before leftListed rightListed).elim
  · exact same
  · exact (disjoint right left rightInside leftInside after rightListed leftListed).elim

/-! ## The group of the root -/

/-- The first group is that of the root, and all else in the groups is among the
other declarations. -/
def LedBy (root : Declaration) (others : List Declaration) (groups : List Group) : Prop :=
  ∃ first rest, groups = first :: rest ∧ first.first = root ∧
    (∀ declaration ∈ first.others, declaration ∈ others) ∧
      ∀ group ∈ rest, ∀ declaration ∈ group.members, declaration ∈ others

theorem mem_of_mem_insert {key : String} {declaration : Declaration} {groups : List Group}
    {others : List Declaration} (listed : declaration ∈ others)
    (inside : ∀ group ∈ groups, ∀ member ∈ group.members, member ∈ others) :
    ∀ group ∈ insert key declaration groups, ∀ member ∈ group.members, member ∈ others := by
  intro group groupMember member grouped
  have inAll := (insert_perm key declaration groups).mem_iff.mp
    (List.mem_flatMap.mpr ⟨group, groupMember, grouped⟩)
  rcases List.mem_append.mp inAll with before | new
  · obtain ⟨earlier, earlierMember, earlierGrouped⟩ := List.mem_flatMap.mp before
    exact inside earlier earlierMember member earlierGrouped
  · rwa [List.mem_singleton.mp new]

/-- Adding one of the other declarations leaves the group of the root first. -/
theorem LedBy.add {root declaration : Declaration} {others : List Declaration}
    {groups : List Group} (led : LedBy root others groups) (listed : declaration ∈ others) :
    LedBy root others (add groups declaration) := by
  obtain ⟨first, rest, rfl, isRoot, firstInside, restInside⟩ := led
  rw [Group.add]
  split
  · rw [insert]
    split
    · refine ⟨_, rest, rfl, isRoot, ?_, restInside⟩
      intro other member
      rcases List.mem_append.mp member with before | new
      · exact firstInside other before
      · rwa [List.mem_singleton.mp new]
    · exact ⟨first, _, rfl, isRoot, firstInside, mem_of_mem_insert listed restInside⟩
  · refine ⟨first, rest ++ [⟨declaration, []⟩], by simp, isRoot, firstInside, ?_⟩
    intro group groupMember member grouped
    rcases List.mem_append.mp groupMember with before | new
    · exact restInside group before member grouped
    · rw [List.mem_singleton.mp new, members, List.mem_singleton] at grouped
      rwa [grouped]

/-- The groups of a unit are led by that of its root. -/
theorem ledBy_ofDeclarations (unit : TranslationUnit) :
    LedBy unit.root unit.others (ofDeclarations unit.declarations) := by
  have fromGroups (groups : List Group) (led : LedBy unit.root unit.others groups)
      (declarations : List Declaration) (listed : ∀ other ∈ declarations, other ∈ unit.others) :
      LedBy unit.root unit.others (declarations.foldl Group.add groups) := by
    induction declarations generalizing groups with
    | nil => exact led
    | cons declaration rest inductionHypothesis =>
        rw [List.foldl_cons]
        refine inductionHypothesis _ (led.add (listed declaration (by simp))) ?_
        intro other member
        exact listed other (List.mem_cons_of_mem _ member)
  have onlyRoot : LedBy unit.root unit.others (add [] unit.root) := by
    refine ⟨⟨unit.root, []⟩, [], ?_, rfl, by simp, by simp⟩
    rw [add]
    split <;> rfl
  exact fromGroups _ onlyRoot unit.others fun _ member => member

/-! ## Members in source order -/

theorem mem_inSourceOrder {group : Group} {declaration : Declaration} :
    declaration ∈ group.inSourceOrder ↔ declaration ∈ group.members :=
  (List.mergeSort_perm _ _).mem_iff

theorem inSourceOrder_ne_nil (group : Group) : group.inSourceOrder ≠ [] :=
  List.ne_nil_of_mem (mem_inSourceOrder.mpr group.mem_members_first)

/-- The declaration that comes first in the source. -/
def primary (group : Group) : Declaration := group.inSourceOrder.headD group.first

theorem inSourceOrder_eq_cons (group : Group) :
    group.inSourceOrder = group.primary :: group.inSourceOrder.tail := by
  rw [primary]
  cases ordered : group.inSourceOrder with
  | nil => exact absurd ordered group.inSourceOrder_ne_nil
  | cons first rest => rfl

theorem primary_mem_members (group : Group) : group.primary ∈ group.members := by
  rw [← mem_inSourceOrder, inSourceOrder_eq_cons]
  exact List.mem_cons_self

/-- The declarations of a group stand in source order. -/
theorem inSourceOrder_pairwise (group : Group) :
    group.inSourceOrder.Pairwise fun left right =>
      TranslationUnit.sourceOrder left right = true := by
  apply pairwise_mergeSort_of_numbers
  intro left right
  exact TranslationUnit.sourceOrder_iff

/-- No declaration of a group has the number of another. -/
theorem inSourceOrder_ids_nodup {unit : TranslationUnit} {group : Group}
    (member : group ∈ ofDeclarations unit.declarations) :
    (group.inSourceOrder.map Declaration.id).Nodup := by
  have isListed {declaration : Declaration} (ordered : declaration ∈ group.inSourceOrder) :
      declaration ∈ unit.declarations :=
    mem_of_mem_ofDeclarations member (mem_inSourceOrder.mp ordered)
  refine List.Nodup.map_on ?_ ((List.mergeSort_perm _ _).nodup_iff.mpr
    ((members_disjoint unit).1 group member))
  intro left isLeft right isRight sameId
  exact TranslationUnit.eq_of_id_eq (isListed isLeft) (isListed isRight) sameId

/-- The first of a group in the source comes before all others. -/
theorem sourceOrder_primary {group : Group} {declaration : Declaration}
    (listed : declaration ∈ group.members) :
    TranslationUnit.sourceOrder group.primary declaration = true := by
  have ordered := group.inSourceOrder_pairwise
  rw [← mem_inSourceOrder] at listed
  rw [group.inSourceOrder_eq_cons] at ordered listed
  rcases List.mem_cons.mp listed with rfl | later
  · rw [TranslationUnit.sourceOrder_iff]
    omega
  · exact (List.pairwise_cons.mp ordered).1 declaration later

/-! ## Numbers of groups -/

theorem indexOf?_lt {groups : List Group} {id index : Nat}
    (found : indexOf? groups id = some index) : index < groups.length := by
  obtain ⟨inside, _⟩ := List.findIdx?_eq_some_iff_getElem.mp found
  exact inside

/-- The number of a declaration in some group is that of a group. -/
theorem indexOf?_isSome {groups : List Group} {group : Group} (member : group ∈ groups)
    {declaration : Declaration} (grouped : declaration ∈ group.members) :
    (indexOf? groups declaration.id).isSome := by
  rw [indexOf?, List.findIdx?_isSome, List.any_eq_true]
  exact ⟨group, member, List.any_eq_true.mpr ⟨declaration, grouped, beq_self_eq_true _⟩⟩

end Group

/-! ## Entities -/

/-- In a list numbered by place an item is found by its number. -/
theorem getElem?_of_numbered {α : Type} {items : List α} {number : α → Nat}
    (numbered : ∀ (index : Nat) (item : α), items[index]? = some item → number item = index)
    {item : α} (member : item ∈ items) : items[number item]? = some item := by
  obtain ⟨index, found⟩ := List.mem_iff_getElem?.mp member
  rwa [numbered index item found]

namespace Entity

variable (table : MarkingTable) (groups : List Group)

/-- The entities are those of the groups, each with the number of its group. -/
theorem getElem?_ofGroups (index : Nat) :
    (ofGroups table groups).1[index]? =
      (groups[index]?).map fun group => (ofGroup table groups index group).1 := by
  simp [ofGroups, Function.comp_def]

theorem length_ofGroups : (ofGroups table groups).1.length = groups.length := by
  simp [ofGroups]

variable {table groups}

theorem exists_group_of_mem {entity : Entity} (member : entity ∈ (ofGroups table groups).1) :
    ∃ index group, groups[index]? = some group ∧
      entity = (ofGroup table groups index group).1 := by
  obtain ⟨index, found⟩ := List.mem_iff_getElem?.mp member
  rw [getElem?_ofGroups, Option.map_eq_some_iff] at found
  obtain ⟨group, isGroup, rfl⟩ := found
  exact ⟨index, group, isGroup, rfl⟩

/-- The number of an entity is its place. -/
theorem id_of_getElem?_ofGroups {index : Nat} {entity : Entity}
    (found : (ofGroups table groups).1[index]? = some entity) : entity.id = index := by
  rw [getElem?_ofGroups, Option.map_eq_some_iff] at found
  obtain ⟨group, _, rfl⟩ := found
  rfl

theorem map_id_ofGroups : (ofGroups table groups).1.map Entity.id = List.range groups.length := by
  refine List.ext_getElem (by simp [length_ofGroups]) fun index inside _ => ?_
  rw [List.getElem_map, List.getElem_range]
  exact id_of_getElem?_ofGroups (List.getElem?_eq_getElem _)

/-- An entity is found by its number. -/
theorem getElem?_id_of_mem {entity : Entity} (member : entity ∈ (ofGroups table groups).1) :
    (ofGroups table groups).1[entity.id]? = some entity :=
  getElem?_of_numbered (fun _ _ => id_of_getElem?_ofGroups) member

theorem lexicalParent_ofGroup (index : Nat) (group : Group) :
    (ofGroup table groups index group).1.lexicalParent =
      group.primary.parent.bind (Group.indexOf? groups) := rfl

theorem kind_ofGroup (index : Nat) (group : Group) :
    (ofGroup table groups index group).1.kind =
      ((group.inSourceOrder.find? listsBases).getD group.primary).kind := rfl

/-- The entity around another is one of the entities. -/
theorem lexicalParent_lt {entity : Entity} {parent : Nat}
    (member : entity ∈ (ofGroups table groups).1)
    (around : entity.lexicalParent = some parent) : parent < groups.length := by
  obtain ⟨index, group, _, rfl⟩ := exists_group_of_mem member
  rw [lexicalParent_ofGroup, Option.bind_eq_some_iff] at around
  obtain ⟨_, _, found⟩ := around
  exact Group.indexOf?_lt found

/-- The kind is that of one of the declarations. -/
theorem exists_kind_ofGroup (table : MarkingTable) (groups : List Group) (index : Nat)
    (group : Group) :
    ∃ declaration ∈ group.members,
      (ofGroup table groups index group).1.kind = declaration.kind := by
  rw [kind_ofGroup]
  cases found : group.inSourceOrder.find? listsBases with
  | none => exact ⟨group.primary, group.primary_mem_members, rfl⟩
  | some definition =>
      exact ⟨definition, Group.mem_inSourceOrder.mp (List.mem_of_find?_eq_some found), rfl⟩

/-- The kind is that of the first declaration, or that of a class with bases. -/
theorem kind_eq_or_class (table : MarkingTable) (groups : List Group) (index : Nat)
    (group : Group) :
    (ofGroup table groups index group).1.kind = group.primary.kind ∨
      (ofGroup table groups index group).1.kind.target = .class := by
  rw [kind_ofGroup]
  cases found : group.inSourceOrder.find? listsBases with
  | none => exact .inl rfl
  | some definition =>
      right
      have lists : listsBases definition = true := List.find?_some found
      rw [listsBases] at lists
      split at lists
      · rename_i isClass
        simp [isClass, DeclarationKind.target]
      · cases lists

section OfUnit

variable (unit : TranslationUnit)

/-- The entities of a unit. -/
abbrev ofUnit (table : MarkingTable) : List Entity :=
  (ofGroups table (Group.ofDeclarations unit.declarations)).1

variable {unit}

theorem ofUnit_length_pos : 0 < (ofUnit unit table).length := by
  obtain ⟨first, rest, groups, _⟩ := Group.ledBy_ofDeclarations unit
  rw [length_ofGroups, groups]
  exact Nat.succ_pos _

/-- Only the root has nothing around it: any other first declaration has an owner
in the unit. -/
theorem primary_eq_root_of_lexicalParent_eq_none {index : Nat} {group : Group}
    (isGroup : (Group.ofDeclarations unit.declarations)[index]? = some group)
    (outermost : (ofGroup table (Group.ofDeclarations unit.declarations) index
      group).1.lexicalParent = none) : group.primary = unit.root := by
  have member : group ∈ Group.ofDeclarations unit.declarations :=
    List.mem_of_getElem? isGroup
  have listed : group.primary ∈ unit.declarations :=
    Group.mem_of_mem_ofDeclarations member group.primary_mem_members
  rcases List.mem_cons.mp listed with isRoot | isOther
  · exact isRoot
  · obtain ⟨owner, ownerListed, isParent, _⟩ := unit.exists_owner isOther
    obtain ⟨ownerGroup, ownerMember, grouped⟩ := Group.exists_mem_ofDeclarations ownerListed
    have found := Group.indexOf?_isSome ownerMember grouped
    rw [lexicalParent_ofGroup, isParent, Option.bind_some] at outermost
    rw [outermost] at found
    cases found

/-- Every entity but the first has another one around it. -/
theorem lexicalParent_isSome {entity : Entity} (member : entity ∈ ofUnit unit table)
    (below : entity.id ≠ 0) : entity.lexicalParent.isSome := by
  obtain ⟨index, group, isGroup, rfl⟩ := exists_group_of_mem member
  by_contra outermost
  rw [Option.not_isSome_iff_eq_none] at outermost
  have isRoot := primary_eq_root_of_lexicalParent_eq_none isGroup outermost
  obtain ⟨first, rest, groups, _, _, inside⟩ := Group.ledBy_ofDeclarations unit
  cases index with
  | zero => exact below rfl
  | succ index =>
      rw [groups, List.getElem?_cons_succ] at isGroup
      have isOther : unit.root ∈ unit.others := by
        rw [← isRoot]
        exact inside group (List.mem_of_getElem? isGroup) _ group.primary_mem_members
      obtain ⟨owner, _, isParent, _⟩ := unit.exists_owner isOther
      rw [unit.root_parent] at isParent
      cases isParent

/-- Only the first entity can be the root of the unit. -/
theorem id_eq_zero_of_target {entity : Entity} (member : entity ∈ ofUnit unit table)
    (isRoot : entity.kind.target = .translationUnit) : entity.id = 0 := by
  obtain ⟨index, group, isGroup, rfl⟩ := exists_group_of_mem member
  obtain ⟨first, rest, groups, _, _, inside⟩ := Group.ledBy_ofDeclarations unit
  cases index with
  | zero => rfl
  | succ index =>
      obtain ⟨declaration, grouped, sameKind⟩ :=
        exists_kind_ofGroup table (Group.ofDeclarations unit.declarations) (index + 1) group
      rw [groups, List.getElem?_cons_succ] at isGroup
      have isOther := inside group (List.mem_of_getElem? isGroup) declaration grouped
      rw [sameKind] at isRoot
      exact absurd isRoot (unit.target_of_mem_others isOther)

/-- An entity with nothing around it is the root of the unit, or a class that was
declared as the same. -/
theorem kind_of_lexicalParent_eq_none {entity : Entity} (member : entity ∈ ofUnit unit table)
    (outermost : entity.lexicalParent = none) :
    entity.kind.target = .translationUnit ∨ entity.kind.target = .class := by
  obtain ⟨index, group, isGroup, rfl⟩ := exists_group_of_mem member
  rcases kind_eq_or_class table (Group.ofDeclarations unit.declarations) index group with
    isPrimary | isClass
  · left
    rw [isPrimary, primary_eq_root_of_lexicalParent_eq_none isGroup outermost, unit.root_kind]
    rfl
  · exact .inr isClass

end OfUnit

end Entity

end Registrar
