import Mathlib
import Registrar.Proofs.Renumbering.Entities

/-!
Contract: moves of entities under other numbers.

Owns: that the same moves are asked for and made, without faults if there are
none, and that every entity comes to the same place.

Does not own: whether the moves bring about circles.
-/

set_option autoImplicit false

namespace Registrar

variable {number : Nat → Nat} {entities others : List Entity}

namespace Move

def renumber (number : Nat → Nat) (move : Move) : Move :=
  { target := number move.target
    parent := move.parent.map number
    requestedBy := number move.requestedBy }

/-! ## Requests -/

theorem ofAlias?_renumber (renumbers : Entity.Renumbers number entities others)
    (entity : Entity) :
    ofAlias? others (entity.renumber number) = (ofAlias? entities entity).map (renumber number) := by
  have sameKind : (entity.renumber number).kind = entity.kind := rfl
  unfold ofAlias?
  rw [sameKind]
  split
  · rw [renumbers.resolveType_eq, Option.map_map, Option.map_map]
    rfl
  · rfl

theorem destination?_renumber (renumbers : Entity.Renumbers number entities others)
    (context : String) :
    destination? others context = (destination? entities context).map number := by
  unfold destination?
  rw [renumbers.lookup_eq, Option.filter_map]
  congr 2
  funext id
  rw [Function.comp_apply, renumbers.getElem?_number]
  cases entities[id]? <;> rfl

/-- An entity asks for the same move, or with the same fault. -/
theorem requested_renumber (renumbers : Entity.Renumbers number entities others)
    (entity : Entity) :
    requested others (entity.renumber number) =
      (requested entities entity).map (Option.map (renumber number)) := by
  have sameMarking : (entity.renumber number).marking = entity.marking := rfl
  unfold requested
  rw [sameMarking]
  split
  · rfl
  · rw [ofAlias?_renumber renumbers]
    rfl
  · rw [destination?_renumber renumbers]
    cases destination? entities _ <;> rfl

theorem exists_requested_renumber (renumbers : Entity.Renumbers number entities others)
    {entity : Entity} {move : Move}
    (asks : requested others (entity.renumber number) = .ok (some move)) :
    ∃ original, requested entities entity = .ok (some original) ∧
      original.renumber number = move := by
  rw [requested_renumber renumbers] at asks
  cases asked : requested entities entity with
  | error fault =>
      rw [asked] at asks
      cases asks
  | ok result =>
      rw [asked] at asks
      obtain ⟨original, rfl, isMove⟩ := Option.map_eq_some_iff.mp (Except.ok.inj asks)
      exact ⟨original, rfl, isMove⟩

theorem requestedBy_of_requested {entity : Entity} {move : Move}
    (asks : requested entities entity = .ok (some move)) : move.requestedBy = entity.id := by
  rcases requested_cases asks with ⟨_, _, _, _, _, rfl⟩ | ⟨_, _, _, _, rfl⟩ <;> rfl

/-! ## Moves without faults -/

/-- Every entity asks without a fault, and no two ask to move one target. -/
structure Agree (entities : List Entity) : Prop where
  asks : ∀ entity ∈ entities, ∃ asked, requested entities entity = .ok asked
  targetsApart : ∀ left ∈ entities, ∀ right ∈ entities, ∀ leftMove rightMove,
    requested entities left = .ok (some leftMove) →
    requested entities right = .ok (some rightMove) →
    leftMove.target = rightMove.target → left = right

theorem agree_of_noFaults (renumbers : Entity.Renumbers number entities others)
    (noFaults : (ofEntities entities).2 = []) : Agree entities where
  asks := by
    intro entity member
    obtain ⟨asked, asks, _⟩ := exists_requested noFaults member
    exact ⟨asked, asks⟩
  targetsApart := by
    intro left leftMember right rightMember leftMove rightMove leftAsks rightAsks sameTarget
    have isMade {entity : Entity} {move : Move} (member : entity ∈ entities)
        (asks : requested entities entity = .ok (some move)) :
        find? (ofEntities entities).1 move.target = some move := by
      obtain ⟨asked, asksThis, made⟩ := exists_requested noFaults member
      rw [asks, Except.ok.injEq] at asksThis
      exact made move asksThis.symm
    have isLeft := isMade leftMember leftAsks
    rw [sameTarget, isMade rightMember rightAsks, Option.some.injEq] at isLeft
    apply renumbers.eq_of_id_eq leftMember rightMember
    rw [← requestedBy_of_requested leftAsks, ← requestedBy_of_requested rightAsks, isLeft]

theorem agree_renumber (renumbers : Entity.Renumbers number entities others)
    (agree : Agree entities) : Agree others where
  asks := by
    intro found member
    obtain ⟨entity, isEntity, rfl⟩ := (renumbers.mem_iff found).mp member
    obtain ⟨asked, asks⟩ := agree.asks entity isEntity
    exact ⟨asked.map (renumber number), by rw [requested_renumber renumbers, asks]; rfl⟩
  targetsApart := by
    intro left leftMember right rightMember leftMove rightMove leftAsks rightAsks sameTarget
    obtain ⟨leftEntity, isLeft, rfl⟩ := (renumbers.mem_iff left).mp leftMember
    obtain ⟨rightEntity, isRight, rfl⟩ := (renumbers.mem_iff right).mp rightMember
    obtain ⟨leftOriginal, leftOriginalAsks, rfl⟩ := exists_requested_renumber renumbers leftAsks
    obtain ⟨rightOriginal, rightOriginalAsks, rfl⟩ :=
      exists_requested_renumber renumbers rightAsks
    rw [agree.targetsApart leftEntity isLeft rightEntity isRight leftOriginal rightOriginal
      leftOriginalAsks rightOriginalAsks (renumbers.injective sameTarget)]

/-- Where all requests agree, every one is granted. -/
theorem makeAll_eq_nil (agree : Agree entities) {moves : List Move} {rest : List Entity}
    (among : rest ⊆ entities) (distinct : rest.Nodup)
    (fresh : ∀ entity ∈ rest, ∀ move, requested entities entity = .ok (some move) →
      find? moves move.target = none) : (makeAll entities moves rest).2 = [] := by
  induction rest generalizing moves with
  | nil => rfl
  | cons entity rest inductionHypothesis =>
      obtain ⟨member, restAmong⟩ := List.cons_subset.mp among
      obtain ⟨notLater, restDistinct⟩ := List.nodup_cons.mp distinct
      obtain ⟨asked, asks⟩ := agree.asks entity member
      rw [makeAll, asks]
      cases asked with
      | none =>
          exact inductionHypothesis restAmong restDistinct fun later listed =>
            fresh later (List.mem_cons_of_mem entity listed)
      | some move =>
          dsimp only
          rw [fresh entity List.mem_cons_self move asks]
          refine inductionHypothesis restAmong restDistinct fun later listed other laterAsks => ?_
          have notBefore := fresh later (List.mem_cons_of_mem entity listed) other laterAsks
          have isApart : (move.target == other.target) = false := by
            rw [beq_eq_false_iff_ne]
            intro sameTarget
            rw [agree.targetsApart entity member later (restAmong listed) move other asks
              laterAsks sameTarget] at notLater
            exact notLater listed
          unfold find? at notBefore ⊢
          rw [List.find?_append, notBefore, Option.none_or, List.find?_cons, isApart,
            List.find?_nil]

theorem ofEntities_eq_nil (distinct : entities.Nodup) (agree : Agree entities) :
    (ofEntities entities).2 = [] :=
  makeAll_eq_nil agree (List.Subset.refl entities) distinct fun _ _ _ _ => rfl

/-! ## The moves that are made -/

/-- Without faults the moves are those that are asked for. -/
theorem mem_ofEntities_iff (noFaults : (ofEntities entities).2 = []) {move : Move} :
    move ∈ (ofEntities entities).1 ↔
      ∃ entity ∈ entities, requested entities entity = .ok (some move) := by
  constructor
  · intro made
    rcases mem_makeAll made with before | asked
    · cases before
    · exact asked
  · rintro ⟨entity, member, asks⟩
    obtain ⟨asked, asksThis, made⟩ := exists_requested noFaults member
    rw [asks, Except.ok.injEq] at asksThis
    exact List.mem_of_find?_eq_some (made move asksThis.symm)

section Made

variable (renumbers : Entity.Renumbers number entities others)
  (noFaults : (ofEntities entities).2 = []) (noOtherFaults : (ofEntities others).2 = [])

include renumbers noFaults noOtherFaults

theorem mem_ofEntities_renumber_iff (move : Move) :
    move ∈ (ofEntities others).1 ↔
      ∃ original ∈ (ofEntities entities).1, original.renumber number = move := by
  rw [mem_ofEntities_iff noOtherFaults]
  constructor
  · rintro ⟨found, member, asks⟩
    obtain ⟨entity, isEntity, rfl⟩ := (renumbers.mem_iff found).mp member
    obtain ⟨original, asked, isMove⟩ := exists_requested_renumber renumbers asks
    exact ⟨original, (mem_ofEntities_iff noFaults).mpr ⟨entity, isEntity, asked⟩, isMove⟩
  · rintro ⟨original, made, rfl⟩
    obtain ⟨entity, member, asks⟩ := (mem_ofEntities_iff noFaults).mp made
    exact ⟨entity.renumber number, (renumbers.mem_iff _).mpr ⟨entity, member, rfl⟩, by
      rw [requested_renumber renumbers, asks]; rfl⟩

/-- A move that is found by something that is its own is found under other numbers. -/
theorem find?_ofEntities_renumber {holds holdsOther : Move → Bool}
    (agree : ∀ move, holdsOther (move.renumber number) = holds move)
    (alone : ∀ left ∈ entities, ∀ right ∈ entities, ∀ leftMove rightMove,
      requested entities left = .ok (some leftMove) →
      requested entities right = .ok (some rightMove) →
      holds leftMove = true → holds rightMove = true → left = right) :
    (ofEntities others).1.find? holdsOther =
      ((ofEntities entities).1.find? holds).map (renumber number) := by
  refine find?_eq_map_find? (mem_ofEntities_renumber_iff renumbers noFaults noOtherFaults)
    (fun move _ => agree move) ?_
  intro left leftMade right rightMade leftHolds rightHolds
  obtain ⟨leftEntity, leftMember, leftAsks⟩ := (mem_ofEntities_iff noFaults).mp leftMade
  obtain ⟨rightEntity, rightMember, rightAsks⟩ := (mem_ofEntities_iff noFaults).mp rightMade
  rw [alone leftEntity leftMember rightEntity rightMember left right leftAsks rightAsks leftHolds
    rightHolds, rightAsks] at leftAsks
  exact (Option.some.inj (Except.ok.inj leftAsks)).symm

/-- The same move of an entity is made. -/
theorem find?_renumber (id : Nat) :
    find? (ofEntities others).1 (number id) =
      (find? (ofEntities entities).1 id).map (renumber number) := by
  refine find?_ofEntities_renumber renumbers noFaults noOtherFaults ?_ ?_
  · intro move
    exact renumbers.injective.beq_eq
  · intro left leftMember right rightMember leftMove rightMove leftAsks rightAsks isLeft isRight
    rw [beq_iff_eq] at isLeft isRight
    exact (agree_of_noFaults renumbers noFaults).targetsApart left leftMember right rightMember
      leftMove rightMove leftAsks rightAsks (isLeft.trans isRight.symm)

/-- An entity moves the same other entity. -/
theorem find?_requestedBy_renumber (id : Nat) :
    ((ofEntities others).1.find? fun move =>
        move.requestedBy == number id && move.target != number id) =
      ((ofEntities entities).1.find? fun move =>
        move.requestedBy == id && move.target != id).map (renumber number) := by
  refine find?_ofEntities_renumber renumbers noFaults noOtherFaults ?_ ?_
  · intro move
    change (number move.requestedBy == number id && number move.target != number id) =
      (move.requestedBy == id && move.target != id)
    simp only [bne, renumbers.injective.beq_eq]
  · intro left leftMember right rightMember leftMove rightMove leftAsks rightAsks isLeft isRight
    rw [Bool.and_eq_true, beq_iff_eq] at isLeft isRight
    apply renumbers.eq_of_id_eq leftMember rightMember
    rw [← requestedBy_of_requested leftAsks, ← requestedBy_of_requested rightAsks, isLeft.1,
      isRight.1]

end Made

end Move

end Registrar
