import Mathlib
import Registrar.Proofs.Graph.Wiring

/-!
Contract: requests to move entities, and what is told of them.

Owns: what an entity asks for, that the first request for an entity is found among the moves
that are made, and that what is told of a request depends on the requests before it alone.

Does not own: what a name stands for, and where the moves put the entities.

Moves are made one after the other, and whether one is made depends on those before. What is
found among the moves that are made is however just what is found first among those that are
asked for, so every request can be judged by itself.
-/

set_option autoImplicit false

namespace Registrar

variable {entities others : List Entity} {mover : Entity} {move : Move} {fault : Fault}

/-! ## Requests -/

/-- The name is that of a context. -/
def NamesContext (entities : List Entity) (context : String) (destination : Nat) : Prop :=
  Entity.lookup entities context = some destination ∧
    ∃ entity, entities[destination]? = some entity ∧ entity.kind.isContext = true

namespace Entity

/-- The entity asks to move the target to the place: what it is an alias of to where it is
declared itself, or itself into a context. -/
inductive Relocates (entities : List Entity) (mover : Entity) : Nat → Option Nat → Prop where
  | ofAlias {spelling : String} {target : Nat} (asks : mover.marking.exposeHere = some .here)
      (isAlias : mover.kind = .typeAlias (some spelling))
      (resolves : resolveType entities spelling = some target) :
      Relocates entities mover target mover.lexicalParent
  | intoContext {context : String} {destination : Nat}
      (asks : mover.marking.exposeHere = some (.into context))
      (names : NamesContext entities context destination) :
      Relocates entities mover mover.id (some destination)

/-- The entity asks to be moved to a context that is not known. -/
def AsksForUnknown (entities : List Entity) (mover : Entity) (context : String) : Prop :=
  mover.marking.exposeHere = some (.into context) ∧
    ∀ destination, ¬ NamesContext entities context destination

/-- The entity asks to move the target, and an earlier one does so too. -/
def Repeats (entities : List Entity) (mover : Entity) (target : Nat) : Prop :=
  (∃ place, mover.Relocates entities target place) ∧
    ∃ earlier ∈ entities, earlier.id < mover.id ∧
      ∃ place, earlier.Relocates entities target place

/-- No entity asks to move the target before this one does. -/
structure IsFirstToMove (entities others : List Entity) (first : Entity) (target : Nat) :
    Prop where
  member : first ∈ others
  relocates : ∃ place, first.Relocates entities target place
  atMost : ∀ other ∈ others, (∃ place, other.Relocates entities target place) →
    first.id ≤ other.id

end Entity

namespace Move

theorem destination?_eq_some_iff {context : String} {destination : Nat} :
    destination? entities context = some destination ↔
      NamesContext entities context destination := by
  rw [destination?, Option.filter_eq_some_iff, NamesContext]
  refine and_congr_right fun _ => ?_
  cases entities[destination]? <;> simp

theorem requested_eq_some_iff :
    requested entities mover = .ok (some move) ↔
      mover.Relocates entities move.target move.parent ∧ move.requestedBy = mover.id := by
  constructor
  · intro asks
    rcases requested_cases asks with
      ⟨spelling, target, isHere, isAlias, resolves, rfl⟩ |
        ⟨context, destination, isInto, found, rfl⟩
    · exact ⟨.ofAlias isHere isAlias resolves, rfl⟩
    · exact ⟨.intoContext isInto (destination?_eq_some_iff.mp found), rfl⟩
  · obtain ⟨target, place, requestedBy⟩ := move
    rintro ⟨relocates, rfl⟩
    cases relocates with
    | ofAlias asks isAlias resolves => simp [requested, asks, ofAlias?, isAlias, resolves]
    | intoContext asks names => simp [requested, asks, destination?_eq_some_iff.mpr names]

/-- A request fails exactly if the context is not known. -/
theorem requested_eq_error_iff :
    requested entities mover = .error fault ↔ ∃ context, mover.AsksForUnknown entities context ∧
      fault = (Fault.ofCause (.unreachableExposure mover.displayName context)).located
        mover.displayName mover.location := by
  unfold requested Entity.AsksForUnknown
  cases asks : mover.marking.exposeHere with
  | none => simp
  | some relocation =>
      cases relocation with
      | here => simp
      | into context =>
          have unknown_iff : destination? entities context = none ↔
              ∀ destination, ¬ NamesContext entities context destination := by
            rw [Option.eq_none_iff_forall_ne_some]
            exact forall_congr' fun destination => destination?_eq_some_iff.not
          simp only [Option.some.injEq, Relocation.into.injEq]
          cases found : destination? entities context with
          | none => simp [← unknown_iff, found, eq_comm]
          | some destination =>
              refine iff_of_false (by simp) ?_
              rintro ⟨_, ⟨rfl, unknown⟩, _⟩
              rw [unknown_iff.mpr unknown] at found
              cases found

/-- The move that an entity asks for, if it asks for one that can be made. -/
def request? (entities : List Entity) (mover : Entity) : Option Move :=
  match requested entities mover with
  | .ok asked => asked
  | .error _ => none

/-- All moves that entities ask for. -/
def requests (entities others : List Entity) : List Move := others.filterMap (request? entities)

theorem request?_eq_some_iff :
    request? entities mover = some move ↔
      mover.Relocates entities move.target move.parent ∧ move.requestedBy = mover.id := by
  rw [← requested_eq_some_iff, request?]
  cases requested entities mover <;> simp

theorem request?_of_relocates {target : Nat} {place : Option Nat}
    (relocates : mover.Relocates entities target place) :
    request? entities mover = some ⟨target, place, mover.id⟩ :=
  request?_eq_some_iff.mpr ⟨relocates, rfl⟩

/-- What is moved among the moves that are made is moved first among all that are asked
for. -/
theorem find?_makeAll_eq (moves : List Move) (rest : List Entity) (id : Nat) :
    find? (makeAll entities moves rest).1 id = find? (moves ++ requests entities rest) id := by
  induction rest generalizing moves with
  | nil => simp [makeAll, requests]
  | cons mover rest inductionHypothesis =>
      rw [makeAll, requests, List.filterMap_cons, request?]
      cases requested entities mover with
      | error fault => exact inductionHypothesis moves
      | ok asked =>
          cases asked with
          | none => exact inductionHypothesis moves
          | some move =>
              dsimp only
              cases earlier : find? moves move.target with
              | none =>
                  rw [inductionHypothesis (moves ++ [move])]
                  simp [requests]
              | some first =>
                  dsimp only
                  rw [inductionHypothesis moves]
                  unfold find? at earlier ⊢
                  rw [List.find?_append, List.find?_append, List.find?_cons]
                  by_cases isTarget : move.target = id
                  · rw [isTarget] at earlier
                    rw [earlier, Option.some_or, Option.some_or]
                  · rw [beq_false_of_ne isTarget]
                    rfl

/-! ## What is told of a request -/

/-- What is told of the request of an entity, after moves that are made. -/
def faultAfter? (entities : List Entity) (moves : List Move) (mover : Entity) : Option Fault :=
  match requested entities mover with
  | .error fault => some fault
  | .ok none => none
  | .ok (some move) => (find? moves move.target).map (repeatedFault entities mover move)

/-- What is told of the request of an entity, after those of all entities before it. -/
def fault? (entities : List Entity) (mover : Entity) : Option Fault :=
  faultAfter? entities
    (requests entities (entities.filter fun other => decide (other.id < mover.id))) mover

/-- One request after others. -/
theorem makeAll_cons (moves : List Move) (mover : Entity) (rest : List Entity) :
    ∃ after, (∀ id, find? after id = find? (moves ++ requests entities [mover]) id) ∧
      (makeAll entities moves (mover :: rest)).2 =
        (faultAfter? entities moves mover).toList ++ (makeAll entities after rest).2 := by
  refine ⟨(makeAll entities moves [mover]).1, find?_makeAll_eq moves [mover], ?_⟩
  simp only [makeAll, faultAfter?]
  cases requested entities mover with
  | error fault => rfl
  | ok asked =>
      cases asked with
      | none => rfl
      | some move =>
          dsimp only
          cases find? moves move.target <;> rfl

theorem makeAll_faults (ascending : entities.Pairwise fun left right => left.id < right.id)
    {before rest : List Entity} (isSplit : entities = before ++ rest) {moves : List Move}
    (sameMoves : ∀ id, find? moves id = find? (requests entities before) id) :
    (makeAll entities moves rest).2 = rest.filterMap (fault? entities) := by
  induction rest generalizing before moves with
  | nil => rfl
  | cons mover rest inductionHypothesis =>
      obtain ⟨after, sameAfter, faults⟩ := @makeAll_cons entities moves mover rest
      have areBefore :
          entities.filter (fun other => decide (other.id < mover.id)) = before := by
        rw [isSplit, List.pairwise_append, List.pairwise_cons] at ascending
        obtain ⟨-, ⟨isBelow, -⟩, isAbove⟩ := ascending
        rw [isSplit, List.filter_append, List.filter_eq_self.mpr, List.filter_eq_nil_iff.mpr,
          List.append_nil]
        · intro other listed
          rcases List.mem_cons.mp listed with rfl | later
          · simp
          · have := isBelow other later
            simp
            omega
        · intro other listed
          exact decide_eq_true (isAbove other listed mover List.mem_cons_self)
      have isFault : faultAfter? entities moves mover = fault? entities mover := by
        unfold fault? faultAfter?
        rw [areBefore]
        simp only [sameMoves]
      have isSplitAfter : entities = (before ++ [mover]) ++ rest := by simp [isSplit]
      rw [faults, isFault, inductionHypothesis isSplitAfter]
      · rw [List.filterMap_cons]
        cases fault? entities mover <;> rfl
      · intro id
        have isSame := sameMoves id
        unfold find? at isSame
        have isAll : requests entities (before ++ [mover]) =
            requests entities before ++ requests entities [mover] := List.filterMap_append
        rw [sameAfter, isAll, find?, find?, List.find?_append, List.find?_append, isSame]

/-- Each request is judged by itself. -/
theorem ofEntities_faults (ascending : entities.Pairwise fun left right => left.id < right.id) :
    (ofEntities entities).2 = entities.filterMap (fault? entities) :=
  makeAll_faults ascending (List.nil_append entities).symm fun _ => rfl

/-- Among entities in order of their numbers, the first that passes a test has the least
number of those that do. -/
theorem find?_eq_some_iff_of_ascending {test : Entity → Bool}
    (ascending : others.Pairwise fun left right => left.id < right.id) {first : Entity} :
    others.find? test = some first ↔ first ∈ others ∧ test first = true ∧
      ∀ other ∈ others, test other = true → first.id ≤ other.id := by
  induction others with
  | nil => simp
  | cons head rest inductionHypothesis =>
      obtain ⟨isLeast, restAscending⟩ := List.pairwise_cons.mp ascending
      rw [List.find?_cons]
      cases passes : test head with
      | true =>
          simp only [Option.some.injEq]
          constructor
          · rintro rfl
            refine ⟨List.mem_cons_self, passes, fun other listed _ => ?_⟩
            rcases List.mem_cons.mp listed with rfl | later
            · exact Nat.le_refl _
            · exact (isLeast other later).le
          · rintro ⟨listed, _, atMost⟩
            rcases List.mem_cons.mp listed with rfl | later
            · rfl
            · exact absurd (atMost head List.mem_cons_self passes)
                (Nat.not_le_of_lt (isLeast first later))
      | false =>
          simp only [inductionHypothesis restAscending, List.mem_cons, forall_eq_or_imp, passes,
            Bool.false_eq_true, false_implies, true_and]
          refine and_congr_left fun ⟨isFirst, _⟩ => ?_
          exact (or_iff_right_of_imp fun isHead => by simp [isHead, passes] at isFirst).symm

theorem any_request?_iff {target : Nat} :
    (request? entities mover).any (fun move => move.target == target) = true ↔
      ∃ place, mover.Relocates entities target place := by
  rw [Option.any_eq_true]
  constructor
  · rintro ⟨move, isMove, isTarget⟩
    rw [← beq_iff_eq.mp isTarget]
    exact ⟨move.parent, (request?_eq_some_iff.mp isMove).1⟩
  · rintro ⟨place, relocates⟩
    exact ⟨_, request?_of_relocates relocates, by simp⟩

/-- An entity asks for one move. -/
theorem eq_of_relocates {target other : Nat} {place otherPlace : Option Nat}
    (relocates : mover.Relocates entities target place)
    (relocatesOther : mover.Relocates entities other otherPlace) :
    target = other ∧ place = otherPlace := by
  have isMove := request?_of_relocates relocates
  rw [request?_of_relocates relocatesOther, Option.some.injEq, Move.mk.injEq] at isMove
  exact ⟨isMove.1.symm, isMove.2.1.symm⟩

/-- The move of a target is that of the first entity that asks for it. -/
theorem find?_requests_iff (ascending : others.Pairwise fun left right => left.id < right.id)
    {target : Nat} :
    find? (requests entities others) target = some move ↔
      ∃ (first : Entity) (place : Option Nat), first.IsFirstToMove entities others target ∧
        first.Relocates entities target place ∧ move = ⟨target, place, first.id⟩ := by
  rw [find?, requests, List.find?_filterMap, Option.bind_eq_some_iff]
  refine exists_congr fun first => ?_
  rw [find?_eq_some_iff_of_ascending ascending, any_request?_iff, request?_eq_some_iff]
  simp only [any_request?_iff]
  constructor
  · rintro ⟨⟨member, ⟨place, relocates⟩, atMost⟩, isMove, isRequest⟩
    obtain ⟨isTarget, isPlace⟩ := eq_of_relocates relocates isMove
    refine ⟨place, ⟨member, ⟨_, relocates⟩, atMost⟩, relocates, ?_⟩
    rw [isTarget, isPlace, ← isRequest]
  · rintro ⟨place, isFirst, relocates, rfl⟩
    exact ⟨⟨isFirst.member, isFirst.relocates, isFirst.atMost⟩, relocates, rfl⟩

theorem find?_requests_eq_none_iff {target : Nat} :
    find? (requests entities others) target = none ↔
      ∀ other ∈ others, ∀ place, ¬ other.Relocates entities target place := by
  rw [find?, List.find?_eq_none]
  constructor
  · intro noneMoves other listed place relocates
    exact noneMoves _ (List.mem_filterMap.mpr ⟨other, listed, request?_of_relocates relocates⟩)
      (beq_self_eq_true target)
  · intro noneAsks move listed isTarget
    obtain ⟨other, isOther, isMove⟩ := List.mem_filterMap.mp listed
    rw [← beq_iff_eq.mp isTarget] at noneAsks
    exact noneAsks other isOther _ (request?_eq_some_iff.mp isMove).1

end Move

/-! ## What is told -/

/-- The fault is that a target is moved again, and tells who moved it first. -/
def TellsRepeated (entities : List Entity) (mover : Entity) (fault : Fault) : Prop :=
  ∃ (target : Nat) (place : Option Nat) (first moved : Entity),
    mover.Relocates entities target place ∧ first.IsFirstToMove entities entities target ∧
    first.id < mover.id ∧ entities[target]? = some moved ∧
    fault = ⟨.alreadyExposedElsewhere moved.displayName,
      some
        { declaration := some mover.displayName
          location := some mover.location
          notes := [⟨"first exposed by '" ++ first.displayName ++ "'", some first.location⟩] }⟩

/-- The fault is that a context is not known. -/
def TellsUnknown (entities : List Entity) (mover : Entity) (fault : Fault) : Prop :=
  ∃ context, mover.AsksForUnknown entities context ∧
    fault = ⟨.unreachableExposure mover.displayName context,
      some { declaration := some mover.displayName, location := some mover.location }⟩

theorem TellsRepeated.category_eq (tells : TellsRepeated entities mover fault) :
    fault.cause.category = "already-exposed-elsewhere" := by
  obtain ⟨_, _, _, _, _, _, _, _, rfl⟩ := tells
  rfl

theorem TellsUnknown.category_eq (tells : TellsUnknown entities mover fault) :
    fault.cause.category = "unreachable-exposure" := by
  obtain ⟨_, _, rfl⟩ := tells
  rfl

section Numbered

variable (numbered : ∀ (index : Nat) (entity : Entity), entities[index]? = some entity →
  entity.id = index)

include numbered

theorem Entity.ascending_of_numbered :
    entities.Pairwise fun left right => left.id < right.id := by
  rw [List.pairwise_iff_getElem]
  intro earlier later earlierInside laterInside before
  rwa [numbered earlier _ (List.getElem?_eq_getElem earlierInside),
    numbered later _ (List.getElem?_eq_getElem laterInside)]

omit numbered in
/-- The first that moves a target before an entity does is the first of all that move it. -/
theorem Entity.isFirstToMove_filter_iff {first : Entity} {target : Nat} :
    first.IsFirstToMove entities
        (entities.filter fun other => decide (other.id < mover.id)) target ↔
      first.IsFirstToMove entities entities target ∧ first.id < mover.id := by
  constructor
  · intro isFirst
    obtain ⟨member, before⟩ := List.mem_filter.mp isFirst.member
    have isBefore : first.id < mover.id := of_decide_eq_true before
    refine ⟨⟨member, isFirst.relocates, fun other listed relocates => ?_⟩, isBefore⟩
    by_contra isLess
    exact isLess (isFirst.atMost other
      (List.mem_filter.mpr ⟨listed, decide_eq_true (by omega)⟩) relocates)
  · rintro ⟨isFirst, before⟩
    refine ⟨List.mem_filter.mpr ⟨isFirst.member, decide_eq_true before⟩, isFirst.relocates, ?_⟩
    exact fun other listed => isFirst.atMost other (List.mem_of_mem_filter listed)

omit numbered in
theorem Entity.exists_of_followAliases {steps id reached : Nat}
    (follows : followAliases entities steps id = some reached) :
    ∃ entity, entities[reached]? = some entity ∧ entity.kind.target ≠ .typeAlias := by
  induction steps generalizing id with
  | zero => cases follows
  | succ steps inductionHypothesis =>
      rw [followAliases] at follows
      split at follows
      · obtain ⟨next, _, onwards⟩ := Option.bind_eq_some_iff.mp follows
        exact inductionHypothesis onwards
      · cases follows
      · rename_i kind notSpelled notUnknown found
        obtain ⟨entity, isEntity, isKind⟩ := Option.map_eq_some_iff.mp found
        refine ⟨entity, (Option.some.inj follows) ▸ isEntity, ?_⟩
        rw [isKind]
        cases kind with
        | typeAlias target =>
            cases target with
            | none => exact absurd rfl notUnknown
            | some spelling => exact absurd rfl (notSpelled spelling)
        | _ => simp [DeclarationKind.target]
      · cases follows

/-- What is moved is one of the entities. An alias moves another than itself. -/
theorem Entity.Relocates.exists_target (member : mover ∈ entities) {target : Nat}
    {place : Option Nat} (relocates : mover.Relocates entities target place) :
    ∃ moved, entities[target]? = some moved ∧
      (mover.marking.exposeHere = some .here ↔ target ≠ mover.id) := by
  have isMover := getElem?_of_numbered numbered member
  cases relocates with
  | ofAlias asks isAlias resolves =>
      obtain ⟨start, _, follows⟩ := Option.bind_eq_some_iff.mp resolves
      obtain ⟨moved, isMoved, notAlias⟩ := exists_of_followAliases follows
      refine ⟨moved, isMoved, iff_of_true asks ?_⟩
      rintro rfl
      rw [isMover, Option.some.injEq] at isMoved
      rw [← isMoved, isAlias] at notAlias
      exact notAlias rfl
  | intoContext asks names => exact ⟨mover, isMover, by simp [asks]⟩

namespace Move

/-- What is told of a request is that its target was moved before, or that its context is
not known. -/
theorem fault?_eq_some_iff (member : mover ∈ entities) :
    fault? entities mover = some fault ↔
      TellsRepeated entities mover fault ∨ TellsUnknown entities mover fault := by
  have ascending := (Entity.ascending_of_numbered numbered).filter
    fun other => decide (other.id < mover.id)
  unfold fault? faultAfter?
  constructor
  · intro isFault
    split at isFault
    · rename_i failure fails
      rw [← Option.some.inj isFault]
      exact .inr (requested_eq_error_iff.mp fails)
    · cases isFault
    · rename_i move asks
      obtain ⟨earlier, isEarlier, rfl⟩ := Option.map_eq_some_iff.mp isFault
      obtain ⟨first, _, isFirst, _, rfl⟩ := (find?_requests_iff ascending).mp isEarlier
      obtain ⟨isFirst, before⟩ := Entity.isFirstToMove_filter_iff.mp isFirst
      obtain ⟨relocates, _⟩ := requested_eq_some_iff.mp asks
      obtain ⟨moved, isMoved, _⟩ := relocates.exists_target numbered member
      refine .inl ⟨_, _, first, moved, relocates, isFirst, before, isMoved, ?_⟩
      have isNamed := getElem?_of_numbered numbered isFirst.member
      simp [repeatedFault, Fault.located, isMoved, isNamed]
  · rintro (⟨target, place, first, moved, relocates, isFirst, before, isMoved, rfl⟩ | tells)
    · have asks : requested entities mover = .ok (some ⟨target, place, mover.id⟩) :=
        requested_eq_some_iff.mpr ⟨relocates, rfl⟩
      obtain ⟨firstPlace, firstRelocates⟩ := isFirst.relocates
      have isEarlier : find? (requests entities
          (entities.filter fun other => decide (other.id < mover.id))) target =
            some ⟨target, firstPlace, first.id⟩ :=
        (find?_requests_iff ascending).mpr ⟨first, firstPlace,
          Entity.isFirstToMove_filter_iff.mpr ⟨isFirst, before⟩, firstRelocates, rfl⟩
      have isNamed := getElem?_of_numbered numbered isFirst.member
      simp only [asks, isEarlier, Option.map_some]
      simp [repeatedFault, Fault.located, isMoved, isNamed]
    · rw [requested_eq_error_iff.mpr tells]

theorem fault?_repeated_iff (member : mover ∈ entities) :
    fault? entities mover = some fault ∧ fault.cause.category = "already-exposed-elsewhere" ↔
      TellsRepeated entities mover fault := by
  rw [fault?_eq_some_iff numbered member]
  constructor
  · rintro ⟨tells | tells, isCategory⟩
    · exact tells
    · rw [tells.category_eq] at isCategory
      exact absurd isCategory (by decide)
  · exact fun tells => ⟨.inl tells, tells.category_eq⟩

theorem fault?_unknown_iff (member : mover ∈ entities) :
    fault? entities mover = some fault ∧ fault.cause.category = "unreachable-exposure" ↔
      TellsUnknown entities mover fault := by
  rw [fault?_eq_some_iff numbered member]
  constructor
  · rintro ⟨tells | tells, isCategory⟩
    · rw [tells.category_eq] at isCategory
      exact absurd isCategory (by decide)
    · exact tells
  · exact fun tells => ⟨.inr tells, tells.category_eq⟩

/-- Nothing else is told of requests. -/
theorem ofEntities_eq_nil_of_category
    (neither : ∀ fault ∈ (ofEntities entities).2,
      fault.cause.category ≠ "already-exposed-elsewhere" ∧
        fault.cause.category ≠ "unreachable-exposure") : (ofEntities entities).2 = [] := by
  rw [List.eq_nil_iff_forall_not_mem]
  intro fault listed
  obtain ⟨notRepeated, notUnknown⟩ := neither fault listed
  rw [ofEntities_faults (Entity.ascending_of_numbered numbered), List.mem_filterMap] at listed
  obtain ⟨mover, member, isFault⟩ := listed
  rcases (fault?_eq_some_iff numbered member).mp isFault with tells | tells
  · exact notRepeated tells.category_eq
  · exact notUnknown tells.category_eq

/-- It is told of an entity that its target was moved before exactly if it was. -/
theorem exists_tellsRepeated_iff (member : mover ∈ entities) :
    (∃ fault, TellsRepeated entities mover fault) ↔ ∃ target, mover.Repeats entities target := by
  constructor
  · rintro ⟨_, target, place, first, _, relocates, isFirst, before, _⟩
    exact ⟨target, ⟨place, relocates⟩, first, isFirst.member, before, isFirst.relocates⟩
  · rintro ⟨target, ⟨place, relocates⟩, earlier, isEarlier, before, earlierPlace, earlierAsks⟩
    obtain ⟨moved, isMoved, _⟩ := relocates.exists_target numbered member
    have someMoves : find? (requests entities entities) target ≠ none := by
      rw [ne_eq, find?_requests_eq_none_iff]
      exact fun noneAsks => noneAsks earlier isEarlier earlierPlace earlierAsks
    obtain ⟨move, isMove⟩ := Option.ne_none_iff_exists'.mp someMoves
    obtain ⟨first, _, isFirst, _⟩ :=
      (find?_requests_iff (Entity.ascending_of_numbered numbered)).mp isMove
    have isLeast := isFirst.atMost earlier isEarlier ⟨earlierPlace, earlierAsks⟩
    exact ⟨_, target, place, first, moved, relocates, isFirst, by omega, isMoved, rfl⟩

end Move

end Numbered

end Registrar
