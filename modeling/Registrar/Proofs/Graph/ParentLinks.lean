import Mathlib
import Registrar.Graph.Basic

/-!
Contract: ways up along the links to parents.

Owns: counted steps upwards, that many enough steps must repeat a node, and that
where no circle is found every way up ends at the root.

Does not own: which links the nodes of a graph have.
-/

set_option autoImplicit false

namespace Registrar.ParentLinks

variable {parentOf : Nat → Option Nat}

/-- The step upwards from a node. Nothing is above the root. -/
def above (parentOf : Nat → Option Nat) (id : Nat) : Option Nat :=
  if id = 0 then none else parentOf id

/-- The node that so many steps upwards lead to. -/
def climb (parentOf : Nat → Option Nat) : Nat → Nat → Option Nat
  | 0, id => some id
  | steps + 1, id => (above parentOf id).bind (climb parentOf steps)

/-! ## Steps -/

theorem climb_succ_of_parent {id parent : Nat} (below : id ≠ 0)
    (link : parentOf id = some parent) (steps : Nat) :
    climb parentOf (steps + 1) id = climb parentOf steps parent := by
  rw [climb, above, if_neg below, link, Option.bind_some]

/-- Steps upwards can be taken one after the other. -/
theorem climb_add (first second id : Nat) :
    climb parentOf (first + second) id =
      (climb parentOf first id).bind (climb parentOf second) := by
  induction first generalizing id with
  | zero => rw [Nat.zero_add, climb, Option.bind_some]
  | succ first inductionHypothesis =>
      rw [Nat.succ_add, climb, climb]
      cases above parentOf id with
      | none => rfl
      | some parent =>
          rw [Option.bind_some, Option.bind_some]
          exact inductionHypothesis parent

/-- A way of many steps is also a way of fewer. -/
theorem climb_isSome_of_le {fewer more id : Nat} (atMost : fewer ≤ more)
    (reaches : (climb parentOf more id).isSome) : (climb parentOf fewer id).isSome := by
  obtain ⟨others, rfl⟩ := Nat.exists_eq_add_of_le atMost
  rw [climb_add] at reaches
  exact Option.isSome_of_isSome_bind reaches

/-- There is one number of steps to the root. -/
theorem climb_root_unique {first second id : Nat} (early : climb parentOf first id = some 0)
    (late : climb parentOf second id = some 0) : first = second := by
  have endsThere {fewer more : Nat} (reaches : climb parentOf fewer id = some 0)
      (again : climb parentOf (fewer + more) id = some 0) : more = 0 := by
    cases more with
    | zero => rfl
    | succ more =>
        rw [climb_add, reaches, Option.bind_some, climb, above, if_pos rfl] at again
        cases again
  rcases Nat.le_total first second with atMost | atLeast
  · obtain ⟨more, rfl⟩ := Nat.exists_eq_add_of_le atMost
    rw [endsThere early late, Nat.add_zero]
  · obtain ⟨more, rfl⟩ := Nat.exists_eq_add_of_le atLeast
    rw [endsThere late early, Nat.add_zero]

/-- A walk lists where the steps lead to. -/
theorem getElem?_walk (steps index id : Nat) :
    (walk parentOf steps id)[index]? =
      if index < steps then climb parentOf (index + 1) id else none := by
  induction steps generalizing index id with
  | zero => simp [walk]
  | succ steps inductionHypothesis =>
      rw [walk]
      by_cases isRoot : id = 0
      · simp [isRoot, climb, above]
      · rw [if_neg isRoot]
        cases link : parentOf id with
        | none => simp [climb, above, isRoot, link]
        | some parent =>
            rw [climb_succ_of_parent isRoot link]
            cases index with
            | zero => simp [climb]
            | succ index =>
                rw [List.getElem?_cons_succ, inductionHypothesis]
                simp only [Nat.add_lt_add_iff_right]

/-- A walk goes from each node to what is above it. -/
theorem isChain_walk (steps id : Nat) :
    (id :: walk parentOf steps id).IsChain fun id around => above parentOf id = some around := by
  induction steps generalizing id with
  | zero => exact List.isChain_singleton id
  | succ steps inductionHypothesis =>
      rw [walk]
      split
      · exact List.isChain_singleton id
      · rename_i notRoot
        split
        · exact List.isChain_singleton id
        · rename_i parent link
          exact List.isChain_cons_cons.mpr ⟨by rw [above, if_neg notRoot, link],
            inductionHypothesis parent⟩

/-! ## Repetitions -/

section Bounded

variable {size : Nat} (inRange : ∀ id parent, parentOf id = some parent → parent < size)

include inRange

/-- From a node in range no steps lead out of it. -/
theorem climb_lt {steps start reached : Nat} (startInRange : start < size)
    (reaches : climb parentOf steps start = some reached) : reached < size := by
  induction steps generalizing start with
  | zero =>
      rw [climb, Option.some.injEq] at reaches
      rwa [← reaches]
  | succ steps inductionHypothesis =>
      rw [climb, Option.bind_eq_some_iff] at reaches
      obtain ⟨parent, step, onwards⟩ := reaches
      rw [above] at step
      split at step
      · cases step
      · exact inductionHypothesis (inRange start parent step) onwards

/-- A way of as many steps as there are nodes meets a node twice. -/
theorem exists_repetition {start : Nat} (startInRange : start < size)
    (long : (climb parentOf size start).isSome) :
    ∃ first second id, first < second ∧ second ≤ size ∧
      climb parentOf first start = some id ∧ climb parentOf second start = some id := by
  let reachedAfter (steps : Nat) : Nat := (climb parentOf steps start).getD 0
  have reached : ∀ steps ≤ size, climb parentOf steps start = some (reachedAfter steps) := by
    intro steps atMost
    obtain ⟨id, found⟩ := Option.isSome_iff_exists.mp (climb_isSome_of_le atMost long)
    simp only [reachedAfter, found, Option.getD_some]
  have inside : ∀ steps ∈ Finset.range (size + 1), reachedAfter steps ∈ Finset.range size := by
    intro steps member
    have atMost : steps ≤ size := Nat.lt_succ_iff.mp (Finset.mem_range.mp member)
    exact Finset.mem_range.mpr (climb_lt inRange startInRange (reached steps atMost))
  have fewer : (Finset.range size).card < (Finset.range (size + 1)).card := by simp
  obtain ⟨one, oneMember, other, otherMember, different, same⟩ :=
    Finset.exists_ne_map_eq_of_card_lt_of_maps_to fewer inside
  have oneAtMost : one ≤ size := Nat.lt_succ_iff.mp (Finset.mem_range.mp oneMember)
  have otherAtMost : other ≤ size := Nat.lt_succ_iff.mp (Finset.mem_range.mp otherMember)
  rcases Nat.lt_or_gt_of_ne different with before | after
  · exact ⟨one, other, reachedAfter one, before, otherAtMost, reached one oneAtMost,
      same ▸ reached other otherAtMost⟩
  · exact ⟨other, one, reachedAfter other, after, oneAtMost, reached other otherAtMost,
      same ▸ reached one oneAtMost⟩

omit inRange in
/-- From the first repetition on a way goes round. -/
theorem climb_add_period {start id first second : Nat} (ordered : first < second)
    (earlier : climb parentOf first start = some id)
    (later : climb parentOf second start = some id) {steps : Nat} (fromFirst : first ≤ steps) :
    climb parentOf (steps + (second - first)) start = climb parentOf steps start := by
  obtain ⟨others, rfl⟩ := Nat.exists_eq_add_of_le fromFirst
  have rearranged : first + others + (second - first) = second + others := by omega
  rw [rearranged, climb_add, climb_add, earlier, later]

/-- A way that ends has fewer steps than there are nodes. -/
theorem lt_of_climb_to_end {steps start top : Nat} (startInRange : start < size)
    (reaches : climb parentOf steps start = some top) (ends : above parentOf top = none) :
    steps < size := by
  by_contra atLeast
  have long : (climb parentOf size start).isSome :=
    climb_isSome_of_le (Nat.le_of_not_lt atLeast) (by rw [reaches, Option.isSome_some])
  obtain ⟨first, second, _, ordered, atMost, earlier, later⟩ :=
    exists_repetition inRange startInRange long
  -- The way goes round from its first repetition on, past its end.
  have goesRound : climb parentOf (steps + (second - first)) start = climb parentOf steps start :=
    climb_add_period ordered earlier later (by omega)
  obtain ⟨more, isSucc⟩ : ∃ more, second - first = more + 1 := ⟨second - first - 1, by omega⟩
  rw [climb_add, reaches, Option.bind_some, isSucc, climb, ends] at goesRound
  cases goesRound

/-- As many steps as there are nodes lead to where the way goes round. -/
theorem exists_period {start reached : Nat} (startInRange : start < size)
    (reaches : climb parentOf size start = some reached) :
    ∃ period, 0 < period ∧ period ≤ size ∧ climb parentOf period reached = some reached := by
  have long : (climb parentOf size start).isSome := by rw [reaches, Option.isSome_some]
  obtain ⟨first, second, _, ordered, atMost, earlier, later⟩ :=
    exists_repetition inRange startInRange long
  refine ⟨second - first, by omega, by omega, ?_⟩
  have goesRound := climb_add_period ordered earlier later (Nat.le_trans ordered.le atMost)
  rwa [climb_add, reaches, Option.bind_some] at goesRound

/-- The circle above a node begins where as many steps as there are nodes lead to. From there
on it is walked until that node is met again. -/
theorem exists_circleAbove_eq_cons {start reached : Nat} (startInRange : start < size)
    (reaches : climb parentOf size start = some reached) :
    ∃ rest, circleAbove parentOf size start = reached :: rest ∧ reached ∉ rest ∧
      (reached :: rest ++ [reached]).IsChain fun id around => above parentOf id = some around := by
  obtain ⟨period, positive, atMost, returns⟩ := exists_period inRange startInRange reaches
  have last : (walk parentOf size start)[size - 1]? = some reached := by
    rw [getElem?_walk, if_pos (by omega), Nat.sub_add_cancel (by omega), reaches]
  have met : reached ∈ walk parentOf size reached := by
    refine List.mem_of_getElem? (i := period - 1) ?_
    rw [getElem?_walk, if_pos (by omega), Nat.sub_add_cancel positive, returns]
  obtain ⟨rest, after, isSplit, notBefore⟩ := List.eq_append_cons_of_mem met
  have passed : (walk parentOf size reached).takeWhile (fun id => id != reached) = rest := by
    rw [isSplit, List.takeWhile_append_of_pos, List.takeWhile_cons_of_neg (by simp),
      List.append_nil]
    intro id earlier
    rw [bne_iff_ne]
    rintro rfl
    exact notBefore earlier
  refine ⟨rest, ?_, notBefore, ?_⟩
  · simp only [circleAbove, last, List.contains_iff_mem.mpr met, if_true, passed]
  · have linked := @isChain_walk parentOf size reached
    have isWay : reached :: (rest ++ reached :: after) = (reached :: rest ++ [reached]) ++ after :=
      by simp
    rw [isSplit, isWay] at linked
    exact linked.left_of_append

/-- No circle is found exactly if there are fewer steps upwards than nodes. -/
theorem circleAbove_eq_nil_iff {start : Nat} (startInRange : start < size) :
    circleAbove parentOf size start = [] ↔ climb parentOf size start = none := by
  cases reaches : climb parentOf size start with
  | none =>
      have noLast : (walk parentOf size start)[size - 1]? = none := by
        rw [getElem?_walk, if_pos (by omega), Nat.sub_add_cancel (by omega), reaches]
      simp [circleAbove, noLast]
  | some reached =>
      obtain ⟨rest, isCircle, _⟩ := exists_circleAbove_eq_cons inRange startInRange reaches
      simp [isCircle]

omit inRange in
/-- A way that does not go on for so many steps ends before. -/
theorem exists_end {steps start : Nat} (ends : climb parentOf steps start = none) :
    ∃ fewer < steps, ∃ top, climb parentOf fewer start = some top ∧ above parentOf top = none := by
  induction steps generalizing start with
  | zero => cases ends
  | succ steps inductionHypothesis =>
      rw [climb] at ends
      cases step : above parentOf start with
      | none => exact ⟨0, Nat.succ_pos steps, start, rfl, step⟩
      | some parent =>
          rw [step, Option.bind_some] at ends
          obtain ⟨fewer, isLess, top, reaches, isTop⟩ := inductionHypothesis ends
          exact ⟨fewer + 1, Nat.succ_lt_succ isLess, top,
            by rw [climb, step, Option.bind_some, reaches], isTop⟩

/-- There are fewer steps upwards than nodes exactly if the way comes to an end. -/
theorem climb_size_eq_none_iff {start : Nat} (startInRange : start < size) :
    climb parentOf size start = none ↔
      ∃ steps top, climb parentOf steps start = some top ∧ above parentOf top = none := by
  constructor
  · intro ends
    obtain ⟨steps, _, top, reaches, isTop⟩ := exists_end ends
    exact ⟨steps, top, reaches, isTop⟩
  · rintro ⟨steps, top, reaches, isTop⟩
    have isLess := lt_of_climb_to_end inRange startInRange reaches isTop
    obtain ⟨more, rfl⟩ := Nat.exists_eq_add_of_lt isLess
    rw [Nat.add_assoc, climb_add, reaches, Option.bind_some, climb, isTop, Option.bind_none]

/-- Where all nodes but the root have parents and no circle is found, every way
up ends at the root, after fewer steps than there are nodes. -/
theorem exists_climb_root
    (hasParent : ∀ id, id < size → id ≠ 0 → (parentOf id).isSome) {start : Nat}
    (startInRange : start < size) (noCircle : circleAbove parentOf size start = []) :
    ∃ steps, steps < size ∧ climb parentOf steps start = some 0 := by
  obtain ⟨steps, isLess, top, isTop, ends⟩ :=
    exists_end ((circleAbove_eq_nil_iff inRange startInRange).mp noCircle)
  by_cases isRoot : top = 0
  · exact ⟨steps, isLess, by rw [isTop, isRoot]⟩
  · have linked := hasParent top (climb_lt inRange startInRange isTop) isRoot
    rw [above, if_neg isRoot] at ends
    simp [ends] at linked

end Bounded

end Registrar.ParentLinks
