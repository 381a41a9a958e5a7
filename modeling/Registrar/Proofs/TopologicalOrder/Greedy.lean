import Mathlib
import Registrar.Proofs.TopologicalOrder

/-!
Contract: which order is found among those in which each item follows what it
depends on.

Owns: that each item taken is the least of those that could be taken, that the
items are taken until none can be, and that this leaves no choice.

Does not own: which items are left over.
-/

set_option autoImplicit false

namespace Registrar.TopologicalOrder

universe u

variable {α : Type u}

/-! ## Items and what they depend on -/

/-- A listed item depends on another listed one. -/
def DependsOn (dependencies : α → List α) (items : List α) (item dependency : α) : Prop :=
  item ∈ items ∧ dependency ∈ items ∧ dependency ∈ dependencies item ∧ dependency ≠ item

/-- A listed item that is not placed yet, while all that it depends on is. -/
structure Ready (dependencies : α → List α) (items placed : List α) (item : α) : Prop where
  listed : item ∈ items
  unplaced : item ∉ placed
  dependenciesPlaced : ∀ dependency, DependsOn dependencies items item dependency →
    dependency ∈ placed

/-- One item comes before another by key and then by itself, or is it. -/
def Precedes [LE α] (key : α → Nat) (left right : α) : Prop :=
  key left < key right ∨ (key left = key right ∧ left ≤ right)

/-- The least of the ready items. -/
structure IsNext [LE α] (key : α → Nat) (dependencies : α → List α)
    (items placed : List α) (item : α) : Prop where
  ready : Ready dependencies items placed item
  least : ∀ other, Ready dependencies items placed other → Precedes key item other

/-- After the items that are placed already, others are placed one by one, each
time the least ready one, until none is ready. -/
inductive Greedy [LE α] (key : α → Nat) (dependencies : α → List α) (items : List α) :
    List α → List α → Prop
  | stuck {placed : List α} (noneReady : ∀ item, ¬ Ready dependencies items placed item) :
      Greedy key dependencies items placed []
  | take {placed rest : List α} {item : α} (next : IsNext key dependencies items placed item)
      (onwards : Greedy key dependencies items (placed ++ [item]) rest) :
      Greedy key dependencies items placed (item :: rest)

/-! ## Precedence -/

section Precedence

variable [LE α] [Std.IsLinearOrder α] {key : α → Nat}

theorem Precedes.antisymm {left right : α} (forth : Precedes key left right)
    (back : Precedes key right left) : left = right := by
  rcases forth with less | ⟨sameKey, atMost⟩
  · rcases back with more | ⟨sameKey, _⟩ <;> omega
  · rcases back with more | ⟨_, atLeast⟩
    · omega
    · exact Std.le_antisymm atMost atLeast

theorem Precedes.trans {left middle right : α} (first : Precedes key left middle)
    (second : Precedes key middle right) : Precedes key left right := by
  rcases first with less | ⟨sameKey, atMost⟩
  · rcases second with further | ⟨stillSame, _⟩
    · exact .inl (by omega)
    · exact .inl (by omega)
  · rcases second with further | ⟨stillSame, further⟩
    · exact .inl (by omega)
    · exact .inr ⟨sameKey.trans stillSame, Std.le_trans atMost further⟩

theorem Precedes.total (key : α → Nat) (left right : α) :
    Precedes key left right ∨ Precedes key right left := by
  rcases Nat.lt_trichotomy (key left) (key right) with less | same | more
  · exact .inl (.inl less)
  · rcases Std.le_total (a := left) (b := right) with atMost | atLeast
    · exact .inl (.inr ⟨same, atMost⟩)
    · exact .inr (.inr ⟨same.symm, atLeast⟩)
  · exact .inr (.inl more)

end Precedence

/-! ## Greedy orders -/

section Greedy

variable [LE α] {key : α → Nat} {dependencies : α → List α} {items placed ordered : List α}

/-- Wherever a greedy order is cut, what comes next is the least ready item. -/
theorem Greedy.isNext (greedy : Greedy key dependencies items placed ordered)
    {before after : List α} {item : α} (split : ordered = before ++ item :: after) :
    IsNext key dependencies items (placed ++ before) item := by
  induction greedy generalizing before with
  | stuck noneReady => simp at split
  | take next onwards inductionHypothesis =>
      cases before with
      | nil =>
          rw [List.append_nil, ← (List.cons.inj split).1]
          exact next
      | cons first others =>
          obtain ⟨rfl, splitLater⟩ := List.cons.inj split
          rw [List.append_cons]
          exact inductionHypothesis splitLater

/-- A greedy order ends where nothing is ready. -/
theorem Greedy.noneReady (greedy : Greedy key dependencies items placed ordered) (item : α) :
    ¬ Ready dependencies items (placed ++ ordered) item := by
  induction greedy with
  | stuck noneReady =>
      rw [List.append_nil]
      exact noneReady item
  | take next onwards inductionHypothesis =>
      rw [List.append_cons]
      exact inductionHypothesis

/-- Everything in a greedy order is listed. -/
theorem Greedy.subset (greedy : Greedy key dependencies items placed ordered) :
    ordered ⊆ items := by
  induction greedy with
  | stuck noneReady => exact List.nil_subset items
  | take next onwards inductionHypothesis =>
      exact List.cons_subset.mpr ⟨next.ready.listed, inductionHypothesis⟩

/-- A greedy order has nothing twice, and nothing that was placed before. -/
theorem Greedy.nodup (greedy : Greedy key dependencies items placed ordered)
    (distinct : placed.Nodup) : (placed ++ ordered).Nodup := by
  induction greedy with
  | stuck noneReady =>
      rw [List.append_nil]
      exact distinct
  | take next onwards inductionHypothesis =>
      rw [List.append_cons]
      apply inductionHypothesis
      rw [← List.concat_eq_append]
      exact distinct.concat next.ready.unplaced

/-- There is only one greedy order, since the least of the ready items is one. -/
theorem Greedy.unique [Std.IsLinearOrder α] {other : List α}
    (greedy : Greedy key dependencies items placed ordered)
    (otherGreedy : Greedy key dependencies items placed other) : ordered = other := by
  induction greedy generalizing other with
  | stuck noneReady =>
      cases otherGreedy with
      | stuck _ => rfl
      | take next _ => exact absurd next.ready (noneReady _)
  | take next onwards inductionHypothesis =>
      cases otherGreedy with
      | stuck noneReady => exact absurd next.ready (noneReady _)
      | take otherNext otherOnwards =>
          have same := (next.least _ otherNext.ready).antisymm (otherNext.least _ next.ready)
          subst same
          rw [inductionHypothesis otherOnwards]

end Greedy

/-! ## One step -/

variable [LE α] [DecidableLE α] [DecidableEq α]

/-- What remains after some items are placed: the others, each waiting for those
that it depends on and that are not placed. -/
structure Remains (key : α → Nat) (dependencies : α → List α) (items placed : List α)
    (remaining : List (Pending α)) : Prop where
  distinct : (remaining.map Pending.item).Nodup
  isRest : ∀ item, item ∈ remaining.map Pending.item ↔ item ∈ items ∧ item ∉ placed
  keyed : ∀ waiting ∈ remaining, waiting.key = key waiting.item
  waits : ∀ waiting ∈ remaining, ∀ dependency, dependency ∈ waiting.waitsFor ↔
    DependsOn dependencies items waiting.item dependency ∧ dependency ∉ placed

section Remains

variable {key : α → Nat} {dependencies : α → List α} {items placed : List α}
  {remaining : List (Pending α)}

omit [LE α] [DecidableLE α] in
/-- At first all items remain. -/
theorem remains_pending (key : α → Nat) (dependencies : α → List α) (items : List α) :
    Remains key dependencies items [] (pending key dependencies items) where
  distinct := by
    rw [map_item_pending]
    exact nodup_eraseDups items
  isRest := by
    intro item
    simp [map_item_pending, List.mem_eraseDups]
  keyed := by
    intro waiting member
    obtain ⟨item, _, rfl⟩ := List.mem_map.mp member
    rfl
  waits := by
    intro waiting member dependency
    obtain ⟨item, listed, rfl⟩ := List.mem_map.mp member
    rw [List.mem_eraseDups] at listed
    simp only [List.mem_filter, Bool.and_eq_true, bne_iff_ne, List.contains_iff_mem,
      List.mem_eraseDups, DependsOn, List.not_mem_nil, not_false_eq_true, and_true]
    tauto

omit [LE α] [DecidableLE α] in
/-- What is ready among the rest is what waits for nothing. -/
theorem Remains.isReady_iff (remains : Remains key dependencies items placed remaining)
    {waiting : Pending α} (member : waiting ∈ remaining) :
    isReady waiting = true ↔ Ready dependencies items placed waiting.item := by
  have isLeft := (remains.isRest waiting.item).mp (List.mem_map_of_mem member)
  rw [isReady, List.isEmpty_iff, List.eq_nil_iff_forall_not_mem]
  constructor
  · intro waitsForNone
    refine ⟨isLeft.1, isLeft.2, ?_⟩
    intro dependency depends
    by_contra unplaced
    exact waitsForNone dependency ((remains.waits waiting member dependency).mpr
      ⟨depends, unplaced⟩)
  · intro ready dependency waited
    obtain ⟨depends, unplaced⟩ := (remains.waits waiting member dependency).mp waited
    exact unplaced (ready.dependenciesPlaced dependency depends)

omit [LE α] [DecidableLE α] in
/-- Once an item that remains is placed, what remains are the others. -/
theorem Remains.release (remains : Remains key dependencies items placed remaining)
    (item : α) :
    Remains key dependencies items (placed ++ [item]) (release item remaining) where
  distinct := by
    rw [map_item_release]
    exact remains.distinct.filter _
  isRest := by
    intro other
    rw [map_item_release, List.mem_filter, remains.isRest]
    simp only [bne_iff_ne, List.mem_append, List.mem_singleton]
    tauto
  keyed := by
    intro waiting member
    obtain ⟨before, listed, rfl⟩ := List.mem_map.mp member
    exact remains.keyed before (List.mem_filter.mp listed).1
  waits := by
    intro waiting member dependency
    obtain ⟨before, listed, rfl⟩ := List.mem_map.mp member
    have waits := remains.waits before (List.mem_filter.mp listed).1 dependency
    simp only [List.mem_filter, waits, bne_iff_ne, List.mem_append, List.mem_singleton]
    tauto

omit [DecidableEq α] in
theorem least?_eq_none {waiting : List (Pending α)} (none : least? waiting = none) :
    waiting = [] := by
  cases waiting with
  | nil => rfl
  | cons first rest =>
      rw [least?] at none
      split at none
      · cases none
      · split at none <;> cases none

omit [DecidableEq α] in
theorem comesFirst_iff {left right : Pending α} (leftKeyed : left.key = key left.item)
    (rightKeyed : right.key = key right.item) :
    comesFirst left right = true ↔ Precedes key left.item right.item := by
  simp [comesFirst, Precedes, leftKeyed, rightKeyed]

omit [DecidableEq α] in
/-- The least of some items comes before each of them. -/
theorem least?_precedes [Std.IsLinearOrder α] {waiting : List (Pending α)}
    (keyed : ∀ other ∈ waiting, other.key = key other.item) {least : Pending α}
    (found : least? waiting = some least) :
    ∀ other ∈ waiting, Precedes key least.item other.item := by
  have reflexive (item : α) : Precedes key item item := .inr ⟨rfl, Std.le_refl item⟩
  induction waiting generalizing least with
  | nil => simp
  | cons first rest inductionHypothesis =>
      obtain ⟨firstKeyed, restKeyed⟩ := List.forall_mem_cons.mp keyed
      rw [least?] at found
      rw [List.forall_mem_cons]
      cases others : least? rest with
      | none =>
          simp only [others, Option.some.injEq] at found
          rw [least?_eq_none others, ← found]
          exact ⟨reflexive _, by simp⟩
      | some other =>
          have otherLeast := inductionHypothesis restKeyed others
          have compared : comesFirst first other = true ↔ _ :=
            comesFirst_iff firstKeyed (restKeyed other (mem_of_least? others))
          simp only [others] at found
          split at found
          · rename_i isFirst
            rw [← Option.some.inj found]
            refine ⟨reflexive _, fun further member => ?_⟩
            exact (compared.mp isFirst).trans (otherLeast further member)
          · rename_i notFirst
            rw [← Option.some.inj found]
            refine ⟨?_, otherLeast⟩
            exact (Precedes.total key other.item first.item).resolve_right
              fun isFirst => notFirst (compared.mpr isFirst)

variable [Std.IsLinearOrder α]

/-- The item taken in one step is the least ready one. -/
theorem Remains.isNext (remains : Remains key dependencies items placed remaining)
    {next : Pending α} (found : least? (remaining.filter isReady) = some next) :
    IsNext key dependencies items placed next.item := by
  obtain ⟨member, ready⟩ := List.mem_filter.mp (mem_of_least? found)
  refine ⟨(remains.isReady_iff member).mp ready, ?_⟩
  intro other otherReady
  obtain ⟨waiting, listed, rfl⟩ := List.mem_map.mp
    ((remains.isRest other).mpr ⟨otherReady.listed, otherReady.unplaced⟩)
  refine least?_precedes ?_ found waiting
    (List.mem_filter.mpr ⟨listed, (remains.isReady_iff listed).mpr otherReady⟩)
  intro candidate isCandidate
  exact remains.keyed candidate (List.mem_filter.mp isCandidate).1

omit [Std.IsLinearOrder α] in
/-- When no step can be made, nothing is ready. -/
theorem Remains.noneReady (remains : Remains key dependencies items placed remaining)
    (none : least? (remaining.filter isReady) = none) (item : α) :
    ¬ Ready dependencies items placed item := by
  intro ready
  obtain ⟨waiting, listed, rfl⟩ := List.mem_map.mp
    ((remains.isRest item).mpr ⟨ready.listed, ready.unplaced⟩)
  have isCandidate : waiting ∈ remaining.filter isReady :=
    List.mem_filter.mpr ⟨listed, (remains.isReady_iff listed).mpr ready⟩
  rw [least?_eq_none none] at isCandidate
  cases isCandidate

/-! ## All steps -/

/-- As many steps as there are items take all that can be taken. -/
theorem Remains.takeReady {steps : Nat}
    (remains : Remains key dependencies items placed remaining)
    (enough : remaining.length ≤ steps) :
    Greedy key dependencies items placed (takeReady steps remaining).1 ∧
      Remains key dependencies items (placed ++ (takeReady steps remaining).1)
        (takeReady steps remaining).2 := by
  induction steps generalizing placed remaining with
  | zero =>
      have isEmpty : remaining = [] := List.length_eq_zero_iff.mp (by omega)
      subst isEmpty
      rw [TopologicalOrder.takeReady, List.append_nil]
      exact ⟨.stuck (remains.noneReady rfl), remains⟩
  | succ steps inductionHypothesis =>
      rw [TopologicalOrder.takeReady]
      cases found : least? (remaining.filter isReady) with
      | none =>
          rw [List.append_nil]
          exact ⟨.stuck (remains.noneReady found), remains⟩
      | some next =>
          have member : next ∈ remaining := (List.mem_filter.mp (mem_of_least? found)).1
          have fewer := (perm_cons_release remains.distinct member).length_eq
          rw [List.length_cons, List.length_map, List.length_map] at fewer
          obtain ⟨onwards, rest⟩ := inductionHypothesis (remains.release next.item) (by omega)
          dsimp only
          rw [List.append_cons]
          exact ⟨.take (remains.isNext found) onwards, rest⟩

/-- The items that are taken, and those that are left over. -/
theorem exists_greedy (key : α → Nat) (dependencies : α → List α) (items : List α) :
    ∃ ordered stalled,
      takeReady (pending key dependencies items).length (pending key dependencies items) =
        (ordered, stalled) ∧
      Greedy key dependencies items [] ordered ∧
      Remains key dependencies items ordered stalled := by
  obtain ⟨greedy, rest⟩ := (remains_pending key dependencies items).takeReady le_rfl
  exact ⟨_, _, rfl, greedy, rest⟩

/-- An order that is found is the greedy one. -/
theorem greedy_of_order {ordered : List α}
    (inOrder : order key dependencies items = .ok ordered) :
    Greedy key dependencies items [] ordered := by
  obtain ⟨taken, stalled, run, greedy, _⟩ := exists_greedy key dependencies items
  rw [takeReady_of_order inOrder, Prod.mk.injEq] at run
  rw [run.1]
  exact greedy

/-- An order is found if the greedy one has all items. -/
theorem order_of_greedy {ordered : List α}
    (greedy : Greedy key dependencies items [] ordered) (all : items ⊆ ordered) :
    order key dependencies items = .ok ordered := by
  obtain ⟨taken, stalled, run, isGreedy, rest⟩ := exists_greedy key dependencies items
  rw [greedy.unique isGreedy] at all ⊢
  have noneLeft : stalled = [] := by
    rw [List.eq_nil_iff_forall_not_mem]
    intro waiting member
    obtain ⟨listed, unplaced⟩ := (rest.isRest waiting.item).mp (List.mem_map_of_mem member)
    exact unplaced (all listed)
  simp [order, run, noneLeft]

end Remains

end Registrar.TopologicalOrder
