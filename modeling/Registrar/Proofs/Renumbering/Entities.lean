import Mathlib
import Registrar.Proofs.Graph.Wiring

/-!
Contract: entities under other numbers.

Owns: that names lead to the same entities, whatever numbers the entities have
and in whatever order they stand, as long as no two share a name.

Does not own: where the other numbers come from.
-/

set_option autoImplicit false

namespace Registrar

/-! ## Lists in another order -/

section Lists

variable {α β : Type} {form : α → β} {items : List α} {others : List β}

/-- What is found alone is found wherever it stands. -/
theorem find?_eq_map_find? {holds : α → Bool} {holdsOther : β → Bool}
    (mem_iff : ∀ other, other ∈ others ↔ ∃ item ∈ items, form item = other)
    (agree : ∀ item ∈ items, holdsOther (form item) = holds item)
    (alone : ∀ left ∈ items, ∀ right ∈ items, holds left = true → holds right = true →
      left = right) :
    others.find? holdsOther = (items.find? holds).map form := by
  cases found : items.find? holds with
  | none =>
      rw [Option.map_none, List.find?_eq_none]
      intro other listed
      obtain ⟨item, isItem, rfl⟩ := (mem_iff other).mp listed
      rw [agree item isItem]
      exact List.find?_eq_none.mp found item isItem
  | some item =>
      have isItem := List.mem_of_find?_eq_some found
      have isHeld := List.find?_some found
      cases foundOther : others.find? holdsOther with
      | none =>
          have fails := List.find?_eq_none.mp foundOther _ ((mem_iff _).mpr ⟨item, isItem, rfl⟩)
          rw [agree item isItem] at fails
          exact absurd isHeld fails
      | some other =>
          obtain ⟨same, isSame, rfl⟩ := (mem_iff other).mp (List.mem_of_find?_eq_some foundOther)
          have sameHeld := List.find?_some foundOther
          rw [agree same isSame] at sameHeld
          rw [alone same isSame item isItem sameHeld isHeld, Option.map_some]

/-- What stands in one order only does so under another form too. -/
theorem mergeSort_eq_map_mergeSort {le : α → α → Bool} {leOther : β → β → Bool}
    (perm : others.Perm (items.map form))
    (sorted : (items.mergeSort le).Pairwise fun left right => le left right = true)
    (sortedOther : (others.mergeSort leOther).Pairwise fun left right =>
      leOther left right = true)
    (agree : ∀ left ∈ items, ∀ right ∈ items, leOther (form left) (form right) = le left right)
    (antisymm : ∀ left ∈ items, ∀ right ∈ items, le left right = true → le right left = true →
      left = right) :
    others.mergeSort leOther = (items.mergeSort le).map form := by
  have permSorted : (others.mergeSort leOther).Perm ((items.mergeSort le).map form) :=
    (List.mergeSort_perm others leOther).trans
      (perm.trans ((List.mergeSort_perm items le).symm.map form))
  have sortedForms : ((items.mergeSort le).map form).Pairwise fun left right =>
      leOther left right = true := by
    rw [List.pairwise_map]
    refine sorted.imp_of_mem ?_
    intro left right isLeft isRight
    rw [List.mem_mergeSort] at isLeft isRight
    rw [agree left isLeft right isRight]
    exact fun isLe => isLe
  refine permSorted.eq_of_pairwise ?_ sortedOther sortedForms
  intro left right isLeft isRight forth back
  rw [permSorted.mem_iff] at isLeft
  obtain ⟨first, isFirst, rfl⟩ := List.mem_map.mp isLeft
  obtain ⟨second, isSecond, rfl⟩ := List.mem_map.mp isRight
  rw [List.mem_mergeSort] at isFirst isSecond
  rw [agree first isFirst second isSecond] at forth
  rw [agree second isSecond first isFirst] at back
  rw [antisymm first isFirst second isSecond forth back]

/-- A number is listed if and only if its other number is. -/
theorem contains_map {number : Nat → Nat} (injective : Function.Injective number)
    (ids : List Nat) (id : Nat) : (ids.map number).contains (number id) = ids.contains id := by
  rw [Bool.eq_iff_iff, List.contains_iff_mem, List.contains_iff_mem,
    List.mem_map_of_injective injective]

end Lists

namespace Entity

/-! ## Other numbers -/

/-- The entity under another number. The numbers of declarations stay. -/
def renumber (number : Nat → Nat) (entity : Entity) : Entity :=
  { entity with
    id := number entity.id
    lexicalParent := entity.lexicalParent.map number }

/-- The others are the entities under other numbers, in another order. No two have
one place in the source, or one name by which they are looked up. -/
structure Renumbers (number : Nat → Nat) (entities others : List Entity) : Prop where
  injective : Function.Injective number
  root : number 0 = 0
  perm : others.Perm (entities.map (renumber number))
  numbered : ∀ (index : Nat) (entity : Entity), entities[index]? = some entity →
    entity.id = index
  othersNumbered : ∀ (index : Nat) (entity : Entity), others[index]? = some entity →
    entity.id = index
  ordersApart : (entities.map Entity.order).Nodup
  namesApart : ∀ left ∈ entities, ∀ right ∈ entities, ∀ name,
    left.lookupName? = some name → right.lookupName? = some name → left = right

namespace Renumbers

variable {number : Nat → Nat} {entities others : List Entity}

theorem mem_iff (renumbers : Renumbers number entities others) (other : Entity) :
    other ∈ others ↔ ∃ entity ∈ entities, entity.renumber number = other := by
  rw [renumbers.perm.mem_iff, List.mem_map]

theorem length_eq (renumbers : Renumbers number entities others) :
    others.length = entities.length := by
  rw [renumbers.perm.length_eq, List.length_map]

theorem getElem?_id (renumbers : Renumbers number entities others) {entity : Entity}
    (member : entity ∈ entities) : entities[entity.id]? = some entity :=
  getElem?_of_numbered renumbers.numbered member

/-- An entity is found by its other number. -/
theorem getElem?_number (renumbers : Renumbers number entities others) (id : Nat) :
    others[number id]? = (entities[id]?).map (renumber number) := by
  cases found : entities[id]? with
  | none =>
      rw [Option.map_none]
      cases foundOther : others[number id]? with
      | none => rfl
      | some other =>
          obtain ⟨entity, member, rfl⟩ :=
            (renumbers.mem_iff other).mp (List.mem_of_getElem? foundOther)
          have sameId : entity.id = id :=
            renumbers.injective (renumbers.othersNumbered _ _ foundOther)
          rw [← sameId, renumbers.getElem?_id member] at found
          cases found
  | some entity =>
      have member : entity.renumber number ∈ others :=
        (renumbers.mem_iff _).mpr ⟨entity, List.mem_of_getElem? found, rfl⟩
      obtain ⟨index, foundOther⟩ := List.mem_iff_getElem?.mp member
      have isIndex : number entity.id = index := renumbers.othersNumbered index _ foundOther
      rw [renumbers.numbered id entity found] at isIndex
      rw [isIndex, foundOther, Option.map_some]

/-- Entities of one number are one entity. -/
theorem eq_of_id_eq (renumbers : Renumbers number entities others) {left right : Entity}
    (leftMember : left ∈ entities) (rightMember : right ∈ entities)
    (sameId : left.id = right.id) : left = right := by
  have found := renumbers.getElem?_id leftMember
  rw [sameId, renumbers.getElem?_id rightMember] at found
  exact (Option.some.inj found).symm

/-- Entities in one place in the source are one entity. -/
theorem eq_of_order_eq (renumbers : Renumbers number entities others) {left right : Entity}
    (leftMember : left ∈ entities) (rightMember : right ∈ entities)
    (sameOrder : left.order = right.order) : left = right :=
  List.inj_on_of_nodup_map renumbers.ordersApart leftMember rightMember sameOrder

/-! ## The same names -/

theorem lookup_eq (renumbers : Renumbers number entities others) (name : String) :
    lookup others name = (lookup entities name).map number := by
  simp only [lookup]
  split
  · rw [Option.map_some, renumbers.root]
  · rw [find?_eq_map_find? renumbers.mem_iff (fun _ _ => rfl), Option.map_map, Option.map_map]
    · rfl
    · intro left leftMember right rightMember isLeft isRight
      rw [beq_iff_eq] at isLeft isRight
      exact renumbers.namesApart left leftMember right rightMember _ isLeft isRight

theorem kind_number (renumbers : Renumbers number entities others) (id : Nat) :
    (others[number id]?).map Entity.kind = (entities[id]?).map Entity.kind := by
  rw [renumbers.getElem?_number, Option.map_map]
  rfl

theorem followAliases_eq (renumbers : Renumbers number entities others) (steps id : Nat) :
    followAliases others steps (number id) = (followAliases entities steps id).map number := by
  induction steps generalizing id with
  | zero => rfl
  | succ steps inductionHypothesis =>
      simp only [followAliases]
      rw [renumbers.kind_number]
      split
      · rename_i target _
        rw [renumbers.lookup_eq, Option.map_bind, Option.bind_map]
        exact Option.bind_congr fun found _ => inductionHypothesis found
      · rfl
      · rfl
      · rfl

theorem resolveType_eq (renumbers : Renumbers number entities others) (name : String) :
    resolveType others name = (resolveType entities name).map number := by
  unfold resolveType
  rw [renumbers.lookup_eq, renumbers.length_eq, Option.map_bind, Option.bind_map]
  exact Option.bind_congr fun found _ => renumbers.followAliases_eq entities.length found

theorem templateIn?_eq (renumbers : Renumbers number entities others) (entity : Entity) :
    (entity.renumber number).templateIn? others = (entity.templateIn? entities).map number := by
  have isNamed : ((entity.renumber number).kind.template?.bind fun use =>
      lookup others use.template) =
      (entity.kind.template?.bind fun use => lookup entities use.template).map number := by
    rw [Option.map_bind]
    exact Option.bind_congr fun use _ => renumbers.lookup_eq use.template
  unfold templateIn?
  rw [isNamed, Option.filter_map]
  congr 2
  funext id
  rw [Function.comp_apply, renumbers.getElem?_number]
  cases entities[id]? with
  | none => rfl
  | some template => rfl

end Renumbers

end Entity

end Registrar
