import Mathlib
import Registrar.Proofs.Graph.Redeclarations

/-!
Contract: the groups of declarations that are listed in another order.

Owns: that the same declarations are taken for one entity, and which number each
group has in the other order.

Does not own: what is known of an entity.
-/

set_option autoImplicit false

namespace Registrar

/-! ## Places in another order -/

/-- The place of each item behind one more item at the front. -/
def shiftPlaces (place : Nat → Nat) : Nat → Nat
  | 0 => 0
  | index + 1 => place index + 1

theorem shiftPlaces_bijective {place : Nat → Nat} (bijective : Function.Bijective place) :
    Function.Bijective (shiftPlaces place) := by
  constructor
  · intro left right same
    cases left <;> cases right <;> simp_all [shiftPlaces, bijective.injective.eq_iff]
  · intro target
    cases target with
    | zero => exact ⟨0, rfl⟩
    | succ target =>
        obtain ⟨index, isTarget⟩ := bijective.surjective target
        exact ⟨index + 1, congrArg Nat.succ isTarget⟩

theorem getElem?_shiftPlaces {α : Type} {items others : List α} {place : Nat → Nat}
    (found : ∀ index, others[place index]? = items[index]?) (first : α) (index : Nat) :
    (first :: others)[shiftPlaces place index]? = (first :: items)[index]? := by
  cases index with
  | zero => rfl
  | succ index => exact found index

/-- Every item has a place in another order. -/
theorem exists_places {α : Type} {items others : List α} (perm : others.Perm items) :
    ∃ place : Nat → Nat, Function.Bijective place ∧
      ∀ index, others[place index]? = items[index]? := by
  induction perm with
  | nil => exact ⟨id, Function.bijective_id, fun _ => rfl⟩
  | cons first _ inductionHypothesis =>
      obtain ⟨place, bijective, found⟩ := inductionHypothesis
      exact ⟨shiftPlaces place, shiftPlaces_bijective bijective,
        getElem?_shiftPlaces found first⟩
  | swap first second rest =>
      refine ⟨Equiv.swap 0 1, (Equiv.swap 0 1).bijective, ?_⟩
      intro index
      rcases index with _ | _ | index
      · rfl
      · rfl
      · rw [Equiv.swap_apply_of_ne_of_ne (by omega) (by omega)]
        rfl
  | trans _ _ firstHypothesis secondHypothesis =>
      obtain ⟨early, earlyBijective, earlyFound⟩ := firstHypothesis
      obtain ⟨late, lateBijective, lateFound⟩ := secondHypothesis
      exact ⟨early ∘ late, earlyBijective.comp lateBijective, fun index =>
        (earlyFound (late index)).trans (lateFound index)⟩

/-! ## Units in another order -/

/-- The other unit lists the same declarations in another order. No two of them
have one place in the source. -/
structure TranslationUnit.Reorders (unit other : TranslationUnit) : Prop where
  perm : other.declarations.Perm unit.declarations
  ordersApart : (unit.declarations.map Declaration.order).Nodup

namespace TranslationUnit.Reorders

variable {unit other : TranslationUnit}

theorem symm (reorders : Reorders unit other) : Reorders other unit where
  perm := reorders.perm.symm
  ordersApart := (reorders.perm.map Declaration.order).nodup_iff.mpr reorders.ordersApart

theorem eq_of_order_eq (reorders : Reorders unit other) {left right : Declaration}
    (leftMember : left ∈ unit.declarations) (rightMember : right ∈ unit.declarations)
    (sameOrder : left.order = right.order) : left = right :=
  List.inj_on_of_nodup_map reorders.ordersApart leftMember rightMember sameOrder

/-- The same declarations are found by their numbers. -/
theorem get?_eq (reorders : Reorders unit other) (id : Nat) : other.get? id = unit.get? id := by
  apply Option.ext
  intro declaration
  rw [get?_eq_some_iff, get?_eq_some_iff, reorders.perm.mem_iff]

theorem root_eq (reorders : Reorders unit other) : other.root = unit.root := by
  have listed : other.root ∈ unit.declarations :=
    reorders.perm.mem_iff.mp List.mem_cons_self
  rcases List.mem_cons.mp listed with isRoot | isOther
  · exact isRoot
  · refine absurd ?_ (unit.target_of_mem_others isOther)
    rw [other.root_kind]
    rfl

end TranslationUnit.Reorders

namespace Group

/-! ## Groups in another order -/

theorem mem_members_iff {unit : TranslationUnit} {group : Group}
    (isGroup : group ∈ ofDeclarations unit.declarations) {left right : Declaration}
    (leftListed : left ∈ group.members) :
    right ∈ group.members ↔
      right ∈ unit.declarations ∧ (left = right ∨ left.Redeclares right) := by
  have grouped : right ∈ (ofDeclarations unit.declarations).flatMap members ↔
      right ∈ unit.declarations := (ofDeclarations_perm unit.declarations).mem_iff
  constructor
  · intro listed
    have isListed := List.mem_flatMap.mpr ⟨group, isGroup, listed⟩
    exact ⟨grouped.mp isListed, ((ofDeclarations_keyed unit.declarations).mem_members_iff isGroup
      leftListed isListed).mp listed⟩
  · rintro ⟨isListed, together⟩
    exact ((ofDeclarations_keyed unit.declarations).mem_members_iff isGroup leftListed
      (grouped.mpr isListed)).mpr together

theorem indexOf?_eq_some_iff {unit : TranslationUnit} {id index : Nat} :
    indexOf? (ofDeclarations unit.declarations) id = some index ↔
      ∃ group, (ofDeclarations unit.declarations)[index]? = some group ∧
        ∃ declaration ∈ group.members, declaration.id = id := by
  constructor
  · exact exists_mem_of_indexOf?
  · rintro ⟨group, isGroup, declaration, listed, rfl⟩
    have member := List.mem_of_getElem? isGroup
    obtain ⟨found, isFound⟩ := Option.isSome_iff_exists.mp (indexOf?_isSome member listed)
    obtain ⟨other, isOther, same, otherListed, sameId⟩ := exists_mem_of_indexOf? isFound
    have isSame : same = declaration :=
      TranslationUnit.eq_of_id_eq
        (mem_of_mem_ofDeclarations (List.mem_of_getElem? isOther) otherListed)
        (mem_of_mem_ofDeclarations member listed) sameId
    rw [isSame] at otherListed
    rw [isFound, index_eq_of_shared isOther isGroup otherListed listed]

variable {unit other : TranslationUnit}

/-- Groups that share a declaration share all, in the same order. -/
theorem inSourceOrder_eq_of_shared (reorders : unit.Reorders other) {group otherGroup : Group}
    (isGroup : group ∈ ofDeclarations unit.declarations)
    (isOtherGroup : otherGroup ∈ ofDeclarations other.declarations) {shared : Declaration}
    (listed : shared ∈ group.members) (otherListed : shared ∈ otherGroup.members) :
    otherGroup.inSourceOrder = group.inSourceOrder := by
  have sameMembers : otherGroup.members.Perm group.members := by
    rw [List.perm_ext_iff_of_nodup ((members_disjoint other).1 otherGroup isOtherGroup)
      ((members_disjoint unit).1 group isGroup)]
    intro declaration
    rw [mem_members_iff isOtherGroup otherListed, mem_members_iff isGroup listed,
      reorders.perm.mem_iff]
  have sameSorted : otherGroup.inSourceOrder.Perm group.inSourceOrder :=
    (List.mergeSort_perm _ _).trans (sameMembers.trans (List.mergeSort_perm _ _).symm)
  refine sameSorted.eq_of_pairwise ?_ otherGroup.inSourceOrder_pairwise
    group.inSourceOrder_pairwise
  intro left right leftListed rightListed forth back
  rw [sameSorted.mem_iff, mem_inSourceOrder] at leftListed
  rw [mem_inSourceOrder] at rightListed
  rw [TranslationUnit.sourceOrder_iff] at forth back
  exact reorders.eq_of_order_eq (mem_of_mem_ofDeclarations isGroup leftListed)
    (mem_of_mem_ofDeclarations isGroup rightListed) (by omega)

theorem exists_inSourceOrder_eq (reorders : unit.Reorders other) {group : Group}
    (isGroup : group ∈ ofDeclarations unit.declarations) :
    ∃ otherGroup ∈ ofDeclarations other.declarations,
      otherGroup.inSourceOrder = group.inSourceOrder := by
  have listed : group.first ∈ other.declarations :=
    reorders.perm.mem_iff.mpr (mem_of_mem_ofDeclarations isGroup group.mem_members_first)
  obtain ⟨otherGroup, isOtherGroup, otherListed⟩ := exists_mem_ofDeclarations listed
  exact ⟨otherGroup, isOtherGroup, inSourceOrder_eq_of_shared reorders isGroup isOtherGroup
    group.mem_members_first otherListed⟩

theorem map_inSourceOrder_nodup (unit : TranslationUnit) :
    ((ofDeclarations unit.declarations).map inSourceOrder).Nodup := by
  unfold List.Nodup
  rw [List.pairwise_map]
  refine (members_disjoint unit).2.imp ?_
  intro left right disjoint same
  have leftListed := left.mem_members_first
  rw [← mem_inSourceOrder, same, mem_inSourceOrder] at leftListed
  exact disjoint left.mem_members_first leftListed

theorem map_inSourceOrder_perm (reorders : unit.Reorders other) :
    ((ofDeclarations other.declarations).map inSourceOrder).Perm
      ((ofDeclarations unit.declarations).map inSourceOrder) := by
  rw [List.perm_ext_iff_of_nodup (map_inSourceOrder_nodup other) (map_inSourceOrder_nodup unit)]
  intro ordered
  rw [List.mem_map, List.mem_map]
  constructor
  · rintro ⟨group, isGroup, rfl⟩
    exact exists_inSourceOrder_eq reorders.symm isGroup
  · rintro ⟨group, isGroup, rfl⟩
    exact exists_inSourceOrder_eq reorders isGroup

/-! ## Numbers of groups -/

/-- The numbers under which the groups of one unit stand in another, that of the
root first in both. -/
structure Numbers (unit other : TranslationUnit) (number : Nat → Nat) : Prop where
  bijective : Function.Bijective number
  root : number 0 = 0
  inSourceOrder_eq : ∀ index,
    ((ofDeclarations other.declarations)[number index]?).map inSourceOrder =
      ((ofDeclarations unit.declarations)[index]?).map inSourceOrder

/-- Every group has a number in the other order. -/
theorem exists_numbers (reorders : unit.Reorders other) :
    ∃ number, Numbers unit other number := by
  have perm := map_inSourceOrder_perm reorders
  obtain ⟨first, rest, groups, isRoot, _⟩ := ledBy_ofDeclarations unit
  obtain ⟨otherFirst, otherRest, otherGroups, isOtherRoot, _⟩ := ledBy_ofDeclarations other
  have sameFirst : otherFirst.inSourceOrder = first.inSourceOrder := by
    have isGroup : first ∈ ofDeclarations unit.declarations := by
      rw [groups]
      exact List.mem_cons_self
    have isOtherGroup : otherFirst ∈ ofDeclarations other.declarations := by
      rw [otherGroups]
      exact List.mem_cons_self
    refine inSourceOrder_eq_of_shared reorders isGroup isOtherGroup first.mem_members_first ?_
    rw [isRoot, ← reorders.root_eq, ← isOtherRoot]
    exact otherFirst.mem_members_first
  rw [groups, otherGroups, List.map_cons, List.map_cons, sameFirst, List.perm_cons] at perm
  obtain ⟨place, bijective, found⟩ := exists_places perm
  refine ⟨shiftPlaces place, shiftPlaces_bijective bijective, rfl, ?_⟩
  intro index
  have atIndex := getElem?_shiftPlaces found first.inSourceOrder index
  rw [← List.getElem?_map, ← List.getElem?_map, groups, otherGroups, List.map_cons,
    List.map_cons, sameFirst, atIndex]

namespace Numbers

variable {number : Nat → Nat}

theorem getElem?_eq_some (numbers : Numbers unit other number) {index : Nat} {group : Group}
    (isGroup : (ofDeclarations unit.declarations)[index]? = some group) :
    ∃ otherGroup, (ofDeclarations other.declarations)[number index]? = some otherGroup ∧
      otherGroup.inSourceOrder = group.inSourceOrder := by
  have same := numbers.inSourceOrder_eq index
  rw [isGroup, Option.map_some] at same
  exact Option.map_eq_some_iff.mp same

theorem exists_of_getElem? (numbers : Numbers unit other number) {index : Nat}
    {otherGroup : Group}
    (isGroup : (ofDeclarations other.declarations)[number index]? = some otherGroup) :
    ∃ group, (ofDeclarations unit.declarations)[index]? = some group ∧
      otherGroup.inSourceOrder = group.inSourceOrder := by
  have same := numbers.inSourceOrder_eq index
  rw [isGroup, Option.map_some] at same
  obtain ⟨group, isFound, sameOrder⟩ := Option.map_eq_some_iff.mp same.symm
  exact ⟨group, isFound, sameOrder.symm⟩

/-- A declaration is found in the group under the other number. -/
theorem indexOf?_eq (numbers : Numbers unit other number) (id : Nat) :
    indexOf? (ofDeclarations other.declarations) id =
      (indexOf? (ofDeclarations unit.declarations) id).map number := by
  apply Option.ext
  intro target
  obtain ⟨index, rfl⟩ := numbers.bijective.surjective target
  rw [Option.map_eq_some_iff, indexOf?_eq_some_iff]
  constructor
  · rintro ⟨otherGroup, isOtherGroup, declaration, listed, sameId⟩
    obtain ⟨group, isGroup, sameOrder⟩ := numbers.exists_of_getElem? isOtherGroup
    rw [← mem_inSourceOrder, sameOrder, mem_inSourceOrder] at listed
    exact ⟨index, indexOf?_eq_some_iff.mpr ⟨group, isGroup, declaration, listed, sameId⟩, rfl⟩
  · rintro ⟨found, isFound, sameNumber⟩
    rw [← numbers.bijective.injective sameNumber]
    obtain ⟨group, isGroup, declaration, listed, sameId⟩ := indexOf?_eq_some_iff.mp isFound
    obtain ⟨otherGroup, isOtherGroup, sameOrder⟩ := numbers.getElem?_eq_some isGroup
    rw [← mem_inSourceOrder, ← sameOrder, mem_inSourceOrder] at listed
    exact ⟨otherGroup, isOtherGroup, declaration, listed, sameId⟩

end Numbers

end Group

end Registrar
