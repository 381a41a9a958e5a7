import Mathlib
import Registrar.Proofs.Renumbering.Declarations
import Registrar.Proofs.Renumbering.Graph
import Registrar.Proofs.Renumbering.Moves

/-!
Contract: the graph of a unit whose declarations are listed in another order.

Owns: that every entity has the same place, that no circle arises where there was
none, and that the graph is the same under other numbers.

Does not own: what is exposed of the graph.
-/

set_option autoImplicit false

namespace Registrar

variable {number : Nat → Nat}

/-! ## Places -/

namespace Entity

section Places

variable {entities others : List Entity} (renumbers : Renumbers number entities others)
  (noFaults : (Move.ofEntities entities).2 = [])
  (noOtherFaults : (Move.ofEntities others).2 = [])

include renumbers noFaults noOtherFaults

theorem parentAfter_renumber (entity : Entity) :
    (entity.renumber number).parentAfter (Move.ofEntities others).1 =
      (entity.parentAfter (Move.ofEntities entities).1).map number := by
  have sameMove : Move.find? (Move.ofEntities others).1 (entity.renumber number).id =
      (Move.find? (Move.ofEntities entities).1 entity.id).map (Move.renumber number) :=
    Move.find?_renumber renumbers noFaults noOtherFaults entity.id
  unfold parentAfter
  rw [sameMove]
  cases Move.find? (Move.ofEntities entities).1 entity.id <;> rfl

/-- The same entities are below another, in source order. -/
theorem childrenAfter_renumber (id : Nat) :
    childrenAfter others (Move.ofEntities others).1 (number id) =
      (childrenAfter entities (Move.ofEntities entities).1 id).map number := by
  have samePlace (entity : Entity) :
      ((entity.renumber number).parentAfter (Move.ofEntities others).1 == some (number id)) =
        (entity.parentAfter (Move.ofEntities entities).1 == some id) := by
    rw [parentAfter_renumber renumbers noFaults noOtherFaults, Bool.eq_iff_iff, beq_iff_eq,
      beq_iff_eq, ← Option.map_some, (Option.map_injective renumbers.injective).eq_iff]
  have below := renumbers.perm.filter fun entity =>
    entity.parentAfter (Move.ofEntities others).1 == some (number id)
  rw [List.filter_map] at below
  have isBelow : ((fun entity : Entity =>
      entity.parentAfter (Move.ofEntities others).1 == some (number id)) ∘ renumber number) =
      fun entity => entity.parentAfter (Move.ofEntities entities).1 == some id :=
    funext samePlace
  rw [isBelow] at below
  have isListed {entity : Entity} (kept : entity ∈ entities.filter fun entity =>
      entity.parentAfter (Move.ofEntities entities).1 == some id) : entity ∈ entities :=
    List.mem_of_mem_filter kept
  unfold childrenAfter
  rw [mergeSort_eq_map_mergeSort below (childrenAfter_sorted _ _ _) (childrenAfter_sorted _ _ _),
    List.map_map, List.map_map]
  · rfl
  · intro left leftKept right rightKept
    rw [Bool.eq_iff_iff, sourceOrder_iff, sourceOrder_iff]
    refine or_congr_right (and_congr_right fun sameOrder => ?_)
    rw [renumbers.eq_of_order_eq (isListed leftKept) (isListed rightKept) sameOrder]
    exact iff_of_true (le_refl _) (le_refl _)
  · intro left leftKept right rightKept forth back
    rw [sourceOrder_iff] at forth back
    exact renumbers.eq_of_order_eq (isListed leftKept) (isListed rightKept) (by omega)

theorem place_renumber (entity : Entity) :
    (entity.renumber number).place others (Move.ofEntities others).1 =
      (entity.place entities (Move.ofEntities entities).1).renumber number := by
  have sameId : (entity.renumber number).id = number entity.id := rfl
  unfold place Node.renumber
  simp only [parentAfter_renumber renumbers noFaults noOtherFaults, renumbers.templateIn?_eq,
    sameId, childrenAfter_renumber renumbers noFaults noOtherFaults,
    Move.find?_renumber renumbers noFaults noOtherFaults,
    Move.find?_requestedBy_renumber renumbers noFaults noOtherFaults, Option.map_map]
  rfl

end Places

end Entity

/-! ## Circles -/

namespace ParentLinks

section Links

variable {parentOf parentOfOther : Nat → Option Nat} (injective : Function.Injective number)
  (root : number 0 = 0)
  (sameLinks : ∀ id, parentOfOther (number id) = (parentOf id).map number)

include injective root sameLinks

theorem walk_renumber (steps id : Nat) :
    walk parentOfOther steps (number id) = (walk parentOf steps id).map number := by
  induction steps generalizing id with
  | zero => rfl
  | succ steps inductionHypothesis =>
      have isRoot : number id = 0 ↔ id = 0 := by
        conv_lhs => rw [← root]
        exact injective.eq_iff
      simp only [walk, isRoot, sameLinks]
      split
      · rfl
      · cases parentOf id with
        | none => rfl
        | some parent =>
            rw [Option.map_some]
            dsimp only
            rw [inductionHypothesis, List.map_cons]

theorem circleAbove_renumber (size start : Nat) :
    circleAbove parentOfOther size (number start) =
      (circleAbove parentOf size start).map number := by
  unfold circleAbove
  rw [walk_renumber injective root sameLinks, List.getElem?_map]
  cases (walk parentOf size start)[size - 1]? with
  | none => rfl
  | some reached =>
      have sameEnd : (fun id => id != number reached) ∘ number = fun id => id != reached := by
        funext id
        exact congrArg not injective.beq_eq
      simp only [Option.map_some]
      rw [walk_renumber injective root sameLinks, contains_map injective, List.takeWhile_map,
        sameEnd]
      split <;> rfl

end Links

end ParentLinks

namespace Arena

theorem circleFaults_eq_nil {arena : Arena}
    (noCircle : ∀ start < arena.length,
      ParentLinks.circleAbove arena.parentOf arena.length start = []) :
    arena.circleFaults = [] := by
  unfold circleFaults circles
  rw [List.filterMap_eq_nil_iff]
  intro circle listed
  rw [List.mem_eraseDups, List.mem_map] at listed
  obtain ⟨start, inside, rfl⟩ := listed
  unfold circleAbove
  rw [noCircle start (List.mem_range.mp inside), List.filterMap_nil, List.mergeSort_nil]
  rfl

/-- The entities of a unit in their places. -/
abbrev ofUnit (unit : TranslationUnit) (table : MarkingTable) : Arena :=
  (Entity.ofUnit unit table).map (Entity.place (Entity.ofUnit unit table)
    (Move.ofEntities (Entity.ofUnit unit table)).1)

section OfUnit

variable {unit other : TranslationUnit} {table otherTable : MarkingTable}
  (renumbers : Entity.Renumbers number (Entity.ofUnit unit table)
    (Entity.ofUnit other otherTable))
  (noFaults : (Move.ofEntities (Entity.ofUnit unit table)).2 = [])
  (noOtherFaults : (Move.ofEntities (Entity.ofUnit other otherTable)).2 = [])

include renumbers noFaults noOtherFaults

theorem getElem?_ofUnit_number (id : Nat) :
    (ofUnit other otherTable)[number id]? =
      ((ofUnit unit table)[id]?).map (Node.renumber number) := by
  rw [List.getElem?_map, List.getElem?_map, renumbers.getElem?_number, Option.map_map,
    Option.map_map]
  congr 1
  funext entity
  exact Entity.place_renumber renumbers noFaults noOtherFaults entity

theorem parentOf_ofUnit_number (id : Nat) :
    (ofUnit other otherTable).parentOf (number id) =
      ((ofUnit unit table).parentOf id).map number := by
  unfold parentOf
  rw [getElem?_ofUnit_number renumbers noFaults noOtherFaults, Option.bind_map, Option.map_bind]
  rfl

/-- In another order no circle arises where there is none. -/
theorem circleFaults_ofUnit_eq_nil
    (noCircle : ∀ start < (ofUnit unit table).length,
      ParentLinks.circleAbove (ofUnit unit table).parentOf (ofUnit unit table).length start = []) :
    (ofUnit other otherTable).circleFaults = [] := by
  have sameLength : (ofUnit other otherTable).length = (ofUnit unit table).length := by
    rw [List.length_map, List.length_map, renumbers.length_eq]
  refine circleFaults_eq_nil fun target inside => ?_
  rw [List.length_map] at inside
  obtain ⟨entity, member, same⟩ :=
    (renumbers.mem_iff _).mp (List.getElem_mem inside)
  have isTarget : number entity.id = target := by
    rw [← renumbers.othersNumbered target _ (List.getElem?_eq_getElem inside), ← same]
    rfl
  have isInside : entity.id < (ofUnit unit table).length := by
    rw [List.length_map]
    exact (List.getElem?_eq_some_iff.mp (renumbers.getElem?_id member)).1
  rw [← isTarget, sameLength, ParentLinks.circleAbove_renumber renumbers.injective
    renumbers.root (parentOf_ofUnit_number renumbers noFaults noOtherFaults),
    noCircle entity.id isInside, List.map_nil]

end OfUnit

end Arena

/-! ## Graphs -/

namespace Graph

variable {unit other : TranslationUnit} {table otherTable : MarkingTable} {graph : Graph}

theorem ofUnit_eq_ok
    (noConflicts : (Entity.ofGroups table (Group.ofDeclarations unit.declarations)).2 = [])
    (noFaults : (Move.ofEntities (Entity.ofUnit unit table)).2 = [])
    (noCircles : (Arena.ofUnit unit table).circleFaults = []) :
    ofUnit unit table = .ok ⟨Arena.ofUnit unit table⟩ := by
  simp only [ofUnit, noConflicts, noFaults, noCircles, List.append_nil, List.isEmpty_nil,
    ↓reduceIte]

/-- In another order a unit has the same graph under other numbers. -/
theorem ofUnit_renumbers (reorders : unit.Reorders other)
    (namesApart : Declaration.NamesApart unit.declarations)
    (sameTable : ∀ id, otherTable.get id = table.get id) (built : ofUnit unit table = .ok graph) :
    ∃ number found, ofUnit other otherTable = .ok found ∧ Renumbers number graph found := by
  obtain ⟨number, numbers⟩ := Group.exists_numbers reorders
  have nodes : graph.nodes = Arena.ofUnit unit table := (nodes_of_ofUnit built).1
  have noConflicts := (nodes_of_ofUnit built).2.2
  have renumbers := Entity.ofUnit_renumbers reorders namesApart numbers sameTable
  have wired := ofUnit_wired built
  have noFaults := moveFaults_of_ofUnit built
  have noOtherFaults : (Move.ofEntities (Entity.ofUnit other otherTable)).2 = [] :=
    Move.ofEntities_eq_nil (Entity.ofUnit_nodup other otherTable)
      (Move.agree_renumber renumbers (Move.agree_of_noFaults renumbers noFaults))
  have noCircle : ∀ start < (Arena.ofUnit unit table).length, ParentLinks.circleAbove
      (Arena.ofUnit unit table).parentOf (Arena.ofUnit unit table).length start = [] := by
    rw [← nodes]
    exact fun start inside => wired.noCircle inside
  have builtOther := ofUnit_eq_ok (Entity.conflicts_eq_nil numbers sameTable noConflicts)
    noOtherFaults (Arena.circleFaults_ofUnit_eq_nil renumbers noFaults noOtherFaults noCircle)
  refine ⟨number, _, builtOther, wired, ofUnit_wired builtOther, ?_, ?_⟩
  · rw [entities_of_ofUnit built, entities_of_ofUnit builtOther]
    exact renumbers
  · intro id
    unfold node?
    rw [nodes]
    exact Arena.getElem?_ofUnit_number renumbers noFaults noOtherFaults id

end Graph

end Registrar
