import Mathlib
import Registrar.Proofs.Identifier

/-!
Contract: what a supply hands out in the course of its calls.

Owns: that every call is answered, that an identifier that is handed out was neither reserved nor
handed out before, and which one it is.

Does not own: for which names identifiers are asked.

The base that is asked for may look like another base with a counter, and may be reserved between
two calls for it. So nothing is said of single bases here. All that is kept from call to call is
that just those identifiers are used that were reserved or handed out.
-/

set_option autoImplicit false

namespace Registrar.Identifier

/-! ## The search for a counter -/

/-- A search by counters of 32 bits ends where it comes to a free one. From a used one it goes on
to the next, unless there is none of 32 bits. -/
inductive SearchEnds (isUsed : Nat → Prop) : Nat → Nat → Prop where
  | free {counter : Nat} (isFree : ¬ isUsed counter) : SearchEnds isUsed counter counter
  | next {counter found : Nat} (used : isUsed counter) (hasNext : counter + 1 < 2 ^ 32)
      (rest : SearchEnds isUsed (counter + 1) found) : SearchEnds isUsed counter found

/-- A search ends at the least free counter, if that has 32 bits. -/
theorem searchEnds_of_isLeast {isUsed : Nat → Prop} {first least : Nat}
    (isLeast : IsLeast {counter | first ≤ counter ∧ ¬ isUsed counter} least)
    (fits : least < 2 ^ 32) : SearchEnds isUsed first least := by
  obtain ⟨⟨reached, isFree⟩, below⟩ := isLeast
  -- From the least free counter down, each one before it is used and has a next one.
  induction reached using Nat.decreasingInduction with
  | self => exact .free isFree
  | of_succ counter isBefore inductionHypothesis =>
      have used : isUsed counter := by
        by_contra isFreeBefore
        exact absurd (below ⟨le_rfl, isFreeBefore⟩) (Nat.not_le.mpr isBefore)
      refine .next used (by omega) (inductionHypothesis ?_)
      exact fun other isOther => below ⟨Nat.le_of_succ_le isOther.1, isOther.2⟩

/-! ## One call -/

/-- Asked for a base where just these identifiers are used, the identifier is the one to hand out:
an unused one, the base if it is unused, and otherwise the base with the least counter from two on
with which it is unused. A search by counters of 32 bits comes to this counter. -/
structure HandsOut (isUsed : String → Prop) (base identifier : String) : Prop where
  unused : ¬ isUsed identifier
  isBase : ¬ isUsed base → identifier = base
  isNumbered : isUsed base → ∃ counter, identifier = numbered base counter ∧
    IsLeast {counter | 2 ≤ counter ∧ ¬ isUsed (numbered base counter)} counter ∧
    SearchEnds (fun counter => isUsed (numbered base counter)) 2 counter

theorem take_handsOut {supply : Supply} (few : supply.used.length + 3 ≤ 2 ^ 32) (base : String) :
    HandsOut (· ∈ supply.used) base (supply.take base).1 := by
  refine ⟨take_not_mem_used supply base, ?_, ?_⟩
  · intro baseUnused
    simp [Supply.take, baseUnused]
  · intro baseUsed
    obtain ⟨isLeast, inRange⟩ := freeCounter_isLeast supply base
    refine ⟨supply.freeCounter base, by simp [Supply.take, baseUsed], isLeast, ?_⟩
    exact searchEnds_of_isLeast isLeast (Nat.lt_of_lt_of_le inRange few)

/-! ## Calls -/

/-- What a supply can be asked. -/
inductive Call where
  | reserve (identifier : String)
  | take (base : String)

/-- A call that was answered. -/
inductive Event where
  | reserved (identifier : String)
  | handedOut (base identifier : String)
  deriving DecidableEq

def Event.call : Event → Call
  | reserved identifier => .reserve identifier
  | handedOut base _ => .take base

/-- The identifier that is used after the call. -/
def Event.identifier : Event → String
  | reserved identifier => identifier
  | handedOut _ identifier => identifier

/-- What becomes of a call, and the supply after it. -/
def Supply.answer (supply : Supply) : Call → Event × Supply
  | .reserve identifier => (.reserved identifier, supply.reserve identifier)
  | .take base =>
      let (identifier, after) := supply.take base
      (.handedOut base identifier, after)

/-- What becomes of calls that are made one after the other. -/
def Supply.answers (supply : Supply) : List Call → List Event
  | [] => []
  | call :: rest =>
      let (event, after) := supply.answer call
      event :: after.answers rest

theorem answer_call (supply : Supply) (call : Call) : (supply.answer call).1.call = call := by
  cases call <;> rfl

/-- A call makes one identifier used. -/
theorem answer_used (supply : Supply) (call : Call) :
    (supply.answer call).2.used = (supply.answer call).1.identifier :: supply.used := by
  cases call <;> rfl

theorem answers_cons (supply : Supply) (call : Call) (rest : List Call) :
    supply.answers (call :: rest) =
      (supply.answer call).1 :: (supply.answer call).2.answers rest := rfl

theorem answers_call (supply : Supply) (calls : List Call) :
    (supply.answers calls).map Event.call = calls := by
  induction calls generalizing supply with
  | nil => rfl
  | cons call rest inductionHypothesis =>
      rw [answers_cons, List.map_cons, answer_call, inductionHypothesis]

/-- An event is the answer of a supply in which the identifiers of the events before it are used,
besides those that were used at first. -/
theorem exists_answer_of_answers {supply : Supply} {calls : List Call} {earlier later : List Event}
    {event : Event} (areAnswers : supply.answers calls = earlier ++ event :: later) :
    ∃ reached : Supply, reached.used = (earlier.map Event.identifier).reverse ++ supply.used ∧
      (reached.answer event.call).1 = event := by
  induction earlier generalizing supply calls with
  | nil =>
      cases calls with
      | nil => simp [Supply.answers] at areAnswers
      | cons call rest =>
          rw [answers_cons] at areAnswers
          obtain ⟨isEvent, -⟩ := List.cons.inj areAnswers
          refine ⟨supply, rfl, ?_⟩
          rw [← isEvent, answer_call]
  | cons first earlier inductionHypothesis =>
      cases calls with
      | nil => simp [Supply.answers] at areAnswers
      | cons call rest =>
          rw [answers_cons] at areAnswers
          obtain ⟨isFirst, areRest⟩ := List.cons.inj areAnswers
          obtain ⟨reached, isUsed, isEvent⟩ := inductionHypothesis areRest
          refine ⟨reached, ?_, isEvent⟩
          rw [isUsed, answer_used, isFirst, List.map_cons, List.reverse_cons, List.append_assoc,
            List.singleton_append]

/-! ## Fresh identifiers -/

/-- Every call is answered, in order, and what a call is answered with is the identifier to hand
out where just those identifiers are used that were reserved or handed out before it. -/
structure AnswersFreshly (calls : List Call) (events : List Event) : Prop where
  answered : events.map Event.call = calls
  handsOut : ∀ {earlier base identifier later},
    events = earlier ++ .handedOut base identifier :: later →
      HandsOut (· ∈ earlier.map Event.identifier) base identifier

theorem Supply.empty_answersFreshly {calls : List Call} (few : calls.length < 2 ^ 32 - 2) :
    AnswersFreshly calls (Supply.empty.answers calls) := by
  refine ⟨answers_call _ calls, ?_⟩
  intro earlier base identifier later areAnswers
  obtain ⟨reached, isUsed, isAnswer⟩ := exists_answer_of_answers areAnswers
  rw [Supply.empty, List.append_nil] at isUsed
  have fewUsed : reached.used.length + 3 ≤ 2 ^ 32 := by
    have inOrder := congrArg List.length (answers_call Supply.empty calls)
    rw [areAnswers] at inOrder
    rw [isUsed, List.length_reverse, List.length_map]
    simp only [List.length_map, List.length_append, List.length_cons] at inOrder
    omega
  have isTaken : (reached.take base).1 = identifier := (Event.handedOut.inj isAnswer).2
  have sameUsed : (· ∈ reached.used) = (· ∈ earlier.map Event.identifier) := by
    funext other
    rw [isUsed, List.mem_reverse]
  rw [← isTaken, ← sameUsed]
  exact take_handsOut fewUsed base

/-- Calls for bases of which some look like others with counters. -/
def lookalikeCalls : List Call :=
  [.reserve "a_2", .take "a", .take "a", .take "a_3", .reserve "a_4", .take "a"]

theorem lookalikeCalls_answersFreshly :
    lookalikeCalls.length < 2 ^ 32 - 2 ∧
      Supply.empty.answers lookalikeCalls =
        [.reserved "a_2", .handedOut "a" "a", .handedOut "a" "a_3", .handedOut "a_3" "a_3_2",
          .reserved "a_4", .handedOut "a" "a_5"] ∧
      HandsOut (· ∈ ["a_2", "a", "a_3", "a_3_2", "a_4"]) "a" "a_5" := by
  have few : lookalikeCalls.length < 2 ^ 32 - 2 := by decide
  have areAnswers : Supply.empty.answers lookalikeCalls =
      [.reserved "a_2", .handedOut "a" "a", .handedOut "a" "a_3", .handedOut "a_3" "a_3_2",
        .reserved "a_4"] ++ .handedOut "a" "a_5" :: [] := by decide +kernel
  exact ⟨few, areAnswers, (Supply.empty_answersFreshly few).handsOut areAnswers⟩

end Registrar.Identifier
