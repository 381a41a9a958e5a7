import Mathlib
import Registrar.Proofs.Renumbering.Entities
import Registrar.Proofs.Renumbering.Groups

/-!
Contract: what is known of entities whose declarations are listed in another order.

Owns: that the same annotations are found, and that the same is known of every
entity, under the number that it has in the other order.

Does not own: where the entities are exposed.
-/

set_option autoImplicit false

namespace Registrar

variable {unit other : TranslationUnit} {table otherTable : MarkingTable}

/-! ## Annotations -/

theorem Examination.ofDeclaration_eq (reorders : unit.Reorders other) :
    ofDeclaration other = ofDeclaration unit := by
  have sameDeclarations : other.get? = unit.get? := funext reorders.get?_eq
  have sameRoot : isAtRoot other = isAtRoot unit := by
    unfold isAtRoot
    rw [sameDeclarations]
  have sameCauses : causes other = causes unit := by
    unfold causes misplaced
    rw [sameRoot]
  unfold ofDeclaration
  rw [sameCauses]

namespace MarkingTable

/-- Of one declaration only one annotation is found. -/
theorem entryOf?_eq {left right : Declaration} (leftMember : left ∈ unit.declarations)
    (rightMember : right ∈ unit.declarations) {leftEntry rightEntry : Nat × Marking}
    (isLeft : entryOf? unit left = some leftEntry) (isRight : entryOf? unit right = some rightEntry)
    (sameId : leftEntry.1 = rightEntry.1) : leftEntry = rightEntry := by
  have id_eq {declaration : Declaration} {entry : Nat × Marking}
      (isEntry : entryOf? unit declaration = some entry) : entry.1 = declaration.id := by
    unfold entryOf? at isEntry
    split at isEntry
    · split at isEntry
      · cases isEntry
      · rw [← Option.some.inj isEntry]
    · cases isEntry
  have isSame : left = right := by
    apply TranslationUnit.eq_of_id_eq leftMember rightMember
    rw [← id_eq isLeft, sameId, id_eq isRight]
  rw [isSame, isRight] at isLeft
  exact (Option.some.inj isLeft).symm

/-- In another order there are the same annotations. -/
theorem ofUnit_reorders (reorders : unit.Reorders other) (marked : ofUnit unit = .ok table) :
    ∃ found, ofUnit other = .ok found ∧ ∀ id, found.get id = table.get id := by
  have sameExamination := Examination.ofDeclaration_eq reorders
  have sameEntry : entryOf? other = entryOf? unit := by
    funext declaration
    unfold entryOf?
    rw [sameExamination]
  unfold ofUnit at marked
  dsimp only at marked
  split at marked
  · rename_i noFaults
    rw [List.isEmpty_iff, List.flatMap_eq_nil_iff] at noFaults
    have noOtherFaults : other.declarations.flatMap (fun declaration =>
        (Examination.ofDeclaration other declaration).faults) = [] := by
      rw [List.flatMap_eq_nil_iff, sameExamination]
      exact fun declaration listed => noFaults declaration (reorders.perm.mem_iff.mp listed)
    refine ⟨⟨other.declarations.filterMap (entryOf? other)⟩, ?_, ?_⟩
    · unfold ofUnit
      dsimp only
      rw [noOtherFaults]
      rfl
    · intro id
      have sameEntries : (other.declarations.filterMap (entryOf? unit)).find?
          (fun entry => entry.1 == id) =
          ((unit.declarations.filterMap (entryOf? unit)).find?
            fun entry => entry.1 == id).map fun entry => entry := by
        refine find?_eq_map_find? ?_ (fun _ _ => rfl) ?_
        · intro entry
          rw [(reorders.perm.filterMap (entryOf? unit)).mem_iff]
          exact exists_eq_right.symm
        · intro left isLeft right isRight leftHolds rightHolds
          obtain ⟨leftDeclaration, leftMember, leftEntry⟩ := List.mem_filterMap.mp isLeft
          obtain ⟨rightDeclaration, rightMember, rightEntry⟩ := List.mem_filterMap.mp isRight
          rw [beq_iff_eq] at leftHolds rightHolds
          exact entryOf?_eq leftMember rightMember leftEntry rightEntry
            (leftHolds.trans rightHolds.symm)
      rw [← Except.ok.inj marked]
      unfold get
      dsimp only
      rw [sameEntry, sameEntries, Option.map_id']
  · cases marked

end MarkingTable

/-! ## Names -/

namespace Declaration

/-- Whether what is declared can be looked up by name. -/
def isNamed (declaration : Declaration) : Bool :=
  declaration.kind.isContext
    || [Target.classTemplate, .functionTemplate, .typeAlias].contains declaration.kind.target

/-- The name by which what is declared is looked up. -/
def lookupName? (declaration : Declaration) : Option String :=
  if declaration.isNamed && !declaration.qualifiedName.isEmpty then
    some (Spelling.normalize declaration.qualifiedName)
  else none

theorem isNamed_eq_family (declaration : Declaration) :
    declaration.isNamed =
      ["scope", "function_template", "type_alias"].contains declaration.family := by
  unfold isNamed family
  cases declaration.kind <;> rfl

theorem Redeclares.isNamed_eq {left right : Declaration} (redeclares : left.Redeclares right) :
    left.isNamed = right.isNamed := by
  rw [isNamed_eq_family, isNamed_eq_family, redeclares.parts_eq.1]

/-- Contexts, templates and aliases of one name are declarations of one entity. -/
def NamesApart (declarations : List Declaration) : Prop :=
  ∀ left ∈ declarations, ∀ right ∈ declarations, left.lookupName?.isSome = true →
    left.lookupName? = right.lookupName? → left.Redeclares right

instance : DecidableRel Redeclares := fun left right =>
  decidable_of_iff (left.mergeKey?.isSome = true ∧ left.mergeKey? = right.mergeKey?) <| by
    unfold Redeclares
    rw [Option.isSome_iff_exists]
    constructor
    · rintro ⟨⟨key, isKey⟩, same⟩
      exact ⟨key, isKey, same.symm.trans isKey⟩
    · rintro ⟨key, isLeft, isRight⟩
      exact ⟨⟨key, isLeft⟩, isLeft.trans isRight.symm⟩

instance (declarations : List Declaration) : Decidable (NamesApart declarations) :=
  inferInstanceAs (Decidable (∀ left ∈ declarations, ∀ right ∈ declarations,
    left.lookupName?.isSome = true → left.lookupName? = right.lookupName? →
      left.Redeclares right))

end Declaration

namespace Entity

theorem isNamed_ofGroup {group : Group} (isGroup : group ∈ Group.ofDeclarations unit.declarations)
    (index : Nat) :
    (ofGroup table (Group.ofDeclarations unit.declarations) index group).1.isNamed =
      group.primary.isNamed := by
  obtain ⟨declaration, listed, sameKind⟩ :=
    exists_kind_ofGroup table (Group.ofDeclarations unit.declarations) index group
  unfold isNamed
  rw [sameKind]
  change declaration.isNamed = group.primary.isNamed
  rcases ((Group.mem_members_iff isGroup listed).mp group.primary_mem_members).2 with
    same | redeclares
  · rw [same]
  · exact redeclares.isNamed_eq

theorem lookupName?_ofGroup {group : Group}
    (isGroup : group ∈ Group.ofDeclarations unit.declarations) (index : Nat) :
    (ofGroup table (Group.ofDeclarations unit.declarations) index group).1.lookupName? =
      group.primary.lookupName? := by
  unfold lookupName? Declaration.lookupName?
  rw [isNamed_ofGroup isGroup]
  rfl

/-! ## Entities -/

theorem mergeMarkings_eq (sameTable : ∀ id, otherTable.get id = table.get id) (name : String)
    (marking : Marking) (declarations : List Declaration) :
    mergeMarkings otherTable name marking declarations =
      mergeMarkings table name marking declarations := by
  induction declarations generalizing marking with
  | nil => rfl
  | cons declaration rest inductionHypothesis =>
      simp only [mergeMarkings]
      rw [sameTable, inductionHypothesis]

variable {number : Nat → Nat}

/-- The same is known of a group under its other number. -/
theorem ofGroup_renumber (numbers : Group.Numbers unit other number)
    (sameTable : ∀ id, otherTable.get id = table.get id) {group otherGroup : Group}
    (sameOrder : otherGroup.inSourceOrder = group.inSourceOrder) (index : Nat) :
    ofGroup otherTable (Group.ofDeclarations other.declarations) (number index) otherGroup =
      ((ofGroup table (Group.ofDeclarations unit.declarations) index group).1.renumber number,
        (ofGroup table (Group.ofDeclarations unit.declarations) index group).2) := by
  have samePrimary : group.inSourceOrder.headD otherGroup.first =
      group.inSourceOrder.headD group.first := by
    rw [group.inSourceOrder_eq_cons]
    rfl
  have sameParent (id : Option Nat) :
      id.bind (Group.indexOf? (Group.ofDeclarations other.declarations)) =
        (id.bind (Group.indexOf? (Group.ofDeclarations unit.declarations))).map number := by
    rw [Option.map_bind]
    exact Option.bind_congr fun found _ => numbers.indexOf?_eq found
  unfold ofGroup
  simp only [sameOrder, samePrimary, sameTable, mergeMarkings_eq sameTable, sameParent, renumber]

theorem getElem?_ofUnit_number (numbers : Group.Numbers unit other number)
    (sameTable : ∀ id, otherTable.get id = table.get id) (index : Nat) :
    (ofUnit other otherTable)[number index]? =
      ((ofUnit unit table)[index]?).map (renumber number) := by
  rw [getElem?_ofGroups, getElem?_ofGroups]
  cases isGroup : (Group.ofDeclarations unit.declarations)[index]? with
  | none =>
      have same := numbers.inSourceOrder_eq index
      rw [isGroup, Option.map_none, Option.map_eq_none_iff] at same
      rw [same]
      rfl
  | some group =>
      obtain ⟨otherGroup, isOtherGroup, sameOrder⟩ := numbers.getElem?_eq_some isGroup
      rw [isOtherGroup, Option.map_some, Option.map_some, Option.map_some,
        ofGroup_renumber numbers sameTable sameOrder]

theorem ofUnit_nodup (unit : TranslationUnit) (table : MarkingTable) :
    (ofUnit unit table).Nodup := by
  apply List.Nodup.of_map id
  rw [map_id_ofGroups]
  exact List.nodup_range

/-- In another order the entities are the same, under other numbers. -/
theorem ofUnit_perm (numbers : Group.Numbers unit other number)
    (sameTable : ∀ id, otherTable.get id = table.get id) :
    (ofUnit other otherTable).Perm ((ofUnit unit table).map (renumber number)) := by
  have renumberedOnce : ((ofUnit unit table).map (renumber number)).Nodup := by
    refine (ofUnit_nodup unit table).map_on ?_
    intro left leftMember right rightMember same
    have sameId : left.id = right.id := numbers.bijective.injective (congrArg Entity.id same)
    have isLeft := getElem?_id_of_mem leftMember
    rw [sameId, getElem?_id_of_mem rightMember] at isLeft
    exact (Option.some.inj isLeft).symm
  rw [List.perm_ext_iff_of_nodup (ofUnit_nodup other otherTable) renumberedOnce]
  intro entity
  rw [List.mem_iff_getElem?, List.mem_map]
  constructor
  · rintro ⟨target, found⟩
    obtain ⟨index, rfl⟩ := numbers.bijective.surjective target
    rw [getElem?_ofUnit_number numbers sameTable, Option.map_eq_some_iff] at found
    obtain ⟨original, isOriginal, same⟩ := found
    exact ⟨original, List.mem_of_getElem? isOriginal, same⟩
  · rintro ⟨original, member, rfl⟩
    refine ⟨number original.id, ?_⟩
    rw [getElem?_ofUnit_number numbers sameTable, getElem?_id_of_mem member, Option.map_some]

theorem ofUnit_ordersApart (reorders : unit.Reorders other) :
    ((ofUnit unit table).map Entity.order).Nodup := by
  refine (ofUnit_nodup unit table).map_on ?_
  intro left leftMember right rightMember sameOrder
  obtain ⟨leftIndex, leftGroup, isLeft, rfl⟩ := exists_group_of_mem leftMember
  obtain ⟨rightIndex, rightGroup, isRight, rfl⟩ := exists_group_of_mem rightMember
  have isListed {index : Nat} {group : Group}
      (isGroup : (Group.ofDeclarations unit.declarations)[index]? = some group) :
      group.primary ∈ unit.declarations :=
    Group.mem_of_mem_ofDeclarations (List.mem_of_getElem? isGroup) group.primary_mem_members
  have samePrimary : leftGroup.primary = rightGroup.primary :=
    reorders.eq_of_order_eq (isListed isLeft) (isListed isRight) sameOrder
  have shared := leftGroup.primary_mem_members
  rw [samePrimary] at shared
  have sameIndex := Group.index_eq_of_shared isLeft isRight shared rightGroup.primary_mem_members
  rw [sameIndex, isRight] at isLeft
  rw [sameIndex, Option.some.inj isLeft]

theorem ofUnit_namesApart (namesApart : Declaration.NamesApart unit.declarations) :
    ∀ left ∈ ofUnit unit table, ∀ right ∈ ofUnit unit table, ∀ name,
      left.lookupName? = some name → right.lookupName? = some name → left = right := by
  intro left leftMember right rightMember name isLeftName isRightName
  obtain ⟨leftIndex, leftGroup, isLeft, rfl⟩ := exists_group_of_mem leftMember
  obtain ⟨rightIndex, rightGroup, isRight, rfl⟩ := exists_group_of_mem rightMember
  have leftGroupMember := List.mem_of_getElem? isLeft
  have rightGroupMember := List.mem_of_getElem? isRight
  rw [lookupName?_ofGroup leftGroupMember] at isLeftName
  rw [lookupName?_ofGroup rightGroupMember] at isRightName
  have rightListed : rightGroup.primary ∈ unit.declarations :=
    Group.mem_of_mem_ofDeclarations rightGroupMember rightGroup.primary_mem_members
  have redeclares := namesApart _
    (Group.mem_of_mem_ofDeclarations leftGroupMember leftGroup.primary_mem_members) _
    rightListed (by rw [isLeftName]; rfl) (isLeftName.trans isRightName.symm)
  have shared := (Group.mem_members_iff leftGroupMember leftGroup.primary_mem_members).mpr
    ⟨rightListed, .inr redeclares⟩
  have sameIndex := Group.index_eq_of_shared isLeft isRight shared rightGroup.primary_mem_members
  rw [sameIndex, isRight] at isLeft
  rw [sameIndex, Option.some.inj isLeft]

/-- Entities whose declarations are listed in another order have other numbers. -/
theorem ofUnit_renumbers (reorders : unit.Reorders other)
    (namesApart : Declaration.NamesApart unit.declarations)
    (numbers : Group.Numbers unit other number)
    (sameTable : ∀ id, otherTable.get id = table.get id) :
    Renumbers number (ofUnit unit table) (ofUnit other otherTable) where
  injective := numbers.bijective.injective
  root := numbers.root
  perm := ofUnit_perm numbers sameTable
  numbered := fun _ _ => id_of_getElem?_ofGroups
  othersNumbered := fun _ _ => id_of_getElem?_ofGroups
  ordersApart := ofUnit_ordersApart reorders
  namesApart := ofUnit_namesApart namesApart

/-- In another order no redeclarations contradict each other, if none do. -/
theorem conflicts_eq_nil (numbers : Group.Numbers unit other number)
    (sameTable : ∀ id, otherTable.get id = table.get id)
    (noConflicts : (ofGroups table (Group.ofDeclarations unit.declarations)).2 = []) :
    (ofGroups otherTable (Group.ofDeclarations other.declarations)).2 = [] := by
  unfold ofGroups at noConflicts ⊢
  rw [List.flatMap_eq_nil_iff] at noConflicts ⊢
  intro merged isMerged
  obtain ⟨target, found⟩ := List.mem_iff_getElem?.mp isMerged
  rw [List.getElem?_mapIdx, Option.map_eq_some_iff] at found
  obtain ⟨otherGroup, isOtherGroup, rfl⟩ := found
  obtain ⟨index, rfl⟩ := numbers.bijective.surjective target
  obtain ⟨group, isGroup, sameOrder⟩ := numbers.exists_of_getElem? isOtherGroup
  rw [ofGroup_renumber numbers sameTable sameOrder]
  refine noConflicts (ofGroup table (Group.ofDeclarations unit.declarations) index group) ?_
  rw [List.mem_iff_getElem?]
  exact ⟨index, by rw [List.getElem?_mapIdx, isGroup, Option.map_some]⟩

end Entity

end Registrar
