import Mathlib
import Registrar.Proofs.TopologicalOrder.Greedy

/-!
Contract: which items are kept from having an order, and which of them are told.

Owns: that an order is found exactly if there are no circles, and that what is
told otherwise are the items on circles and those between two circles.

Does not own: what the items are.

An item that leads to a circle is never ready. Of those the ones that no other
waits for are dropped, so an item that leads to one circle is kept if another
circle leads to it, although it may be on neither.
-/

set_option autoImplicit false

namespace Registrar.TopologicalOrder

universe u

variable {α : Type u}

/-! ## Circles -/

/-- The item depends on itself through others. -/
def OnCircle (dependencies : α → List α) (items : List α) (item : α) : Prop :=
  Relation.TransGen (DependsOn dependencies items) item item

/-- No item depends on itself through others. -/
def Acyclic (dependencies : α → List α) (items : List α) : Prop :=
  ∀ item, ¬ OnCircle dependencies items item

/-- The item is on a circle, or depends on one through others. -/
def LeadsToCircle (dependencies : α → List α) (items : List α) (item : α) : Prop :=
  ∃ circular, OnCircle dependencies items circular ∧
    Relation.ReflTransGen (DependsOn dependencies items) item circular

/-- The item leads to a circle, and a circle leads to it. -/
def BetweenCircles (dependencies : α → List α) (items : List α) (item : α) : Prop :=
  LeadsToCircle dependencies items item ∧
    ∃ circular, OnCircle dependencies items circular ∧
      Relation.ReflTransGen (DependsOn dependencies items) circular item

section Circles

variable {dependencies : α → List α} {items : List α} {item : α}

theorem OnCircle.between (onCircle : OnCircle dependencies items item) :
    BetweenCircles dependencies items item :=
  ⟨⟨item, onCircle, .refl⟩, item, onCircle, .refl⟩

/-- Where each item ranks above what it depends on, there are no circles. -/
theorem acyclic_of_rank (rank : α → Nat)
    (falls : ∀ item dependency, DependsOn dependencies items item dependency →
      rank dependency < rank item) :
    Acyclic dependencies items := by
  intro item onCircle
  have below (last : α) (path : Relation.TransGen (DependsOn dependencies items) item last) :
      rank last < rank item := by
    induction path with
    | single depends => exact falls _ _ depends
    | tail _ depends inductionHypothesis => exact (falls _ _ depends).trans inductionHypothesis
  exact absurd (below item onCircle) (Nat.lt_irrefl _)

/-- What leads to a circle depends on something that does. -/
theorem LeadsToCircle.exists_dependency (leads : LeadsToCircle dependencies items item) :
    ∃ dependency, DependsOn dependencies items item dependency ∧
      LeadsToCircle dependencies items dependency := by
  obtain ⟨circular, onCircle, path⟩ := leads
  obtain ⟨dependency, depends, onwards⟩ :=
    Relation.TransGen.head'_iff.mp (Relation.TransGen.trans_right path onCircle)
  exact ⟨dependency, depends, circular, onCircle, onwards⟩

theorem LeadsToCircle.listed (leads : LeadsToCircle dependencies items item) :
    item ∈ items := by
  obtain ⟨dependency, depends, _⟩ := leads.exists_dependency
  exact depends.1

/-- What is between circles is awaited by something between circles. -/
theorem BetweenCircles.exists_awaiting (between : BetweenCircles dependencies items item) :
    ∃ other, DependsOn dependencies items other item ∧
      BetweenCircles dependencies items other := by
  obtain ⟨⟨goal, goalOnCircle, onwards⟩, circular, onCircle, path⟩ := between
  obtain ⟨other, reached, depends⟩ :=
    Relation.TransGen.tail'_iff.mp (Relation.TransGen.trans_left onCircle path)
  exact ⟨other, depends, ⟨goal, goalOnCircle, onwards.head depends⟩, circular, onCircle, reached⟩

/-- Among finitely many things of which each is related to another, each leads to
a circle. -/
theorem exists_circle {relation : α → α → Prop} {items : List α}
    (next : ∀ item ∈ items, ∃ other ∈ items, relation item other) {item : α}
    (listed : item ∈ items) :
    ∃ circular, Relation.TransGen relation circular circular ∧
      Relation.ReflTransGen relation item circular := by
  by_contra noCircle
  let reached : Set α := {other | other ∈ items ∧ Relation.ReflTransGen relation item other}
  let isAbove (left right : reached) : Prop := Relation.TransGen relation right.1 left.1
  have isFinite : Finite reached :=
    (items.finite_toSet.subset fun _ member => member.1).to_subtype
  have isTransitive : IsTrans reached isAbove := ⟨fun _ _ _ upper lower => lower.trans upper⟩
  have isIrreflexive : Std.Irrefl isAbove :=
    ⟨fun other circle => noCircle ⟨other, circle, other.2.2⟩⟩
  -- Without circles there is a last one among those reached, and it has no next one.
  obtain ⟨last, _, isLast⟩ := (Finite.wellFounded_of_trans_of_irrefl isAbove).has_min
    Set.univ ⟨⟨item, listed, .refl⟩, trivial⟩
  obtain ⟨other, otherListed, related⟩ := next last last.2.1
  exact isLast ⟨other, otherListed, last.2.2.tail related⟩ trivial (.single related)

end Circles

/-! ## What can be placed -/

section Placing

variable [LE α] {key : α → Nat} {dependencies : α → List α} {items placed ordered : List α}

/-- Nothing that leads to a circle is placed. -/
theorem Greedy.not_leadsToCircle (greedy : Greedy key dependencies items placed ordered)
    (free : ∀ item ∈ placed, ¬ LeadsToCircle dependencies items item) :
    ∀ item ∈ placed ++ ordered, ¬ LeadsToCircle dependencies items item := by
  induction greedy with
  | stuck noneReady =>
      rw [List.append_nil]
      exact free
  | take next onwards inductionHypothesis =>
      rw [List.append_cons]
      apply inductionHypothesis
      intro item member
      rcases List.mem_append.mp member with before | last
      · exact free item before
      · rw [List.mem_singleton.mp last]
        intro leads
        obtain ⟨dependency, depends, dependencyLeads⟩ := leads.exists_dependency
        exact free dependency (next.ready.dependenciesPlaced dependency depends) dependencyLeads

/-- Where nothing is ready, each item that is left depends on another. -/
theorem Greedy.exists_unplaced (greedy : Greedy key dependencies items [] ordered) {item : α}
    (listed : item ∈ items) (unplaced : item ∉ ordered) :
    ∃ dependency, DependsOn dependencies items item dependency ∧ dependency ∉ ordered := by
  by_contra allPlaced
  push Not at allPlaced
  exact greedy.noneReady item ⟨listed, unplaced, allPlaced⟩

/-- What is left over is what leads to a circle. -/
theorem Greedy.not_mem_iff (greedy : Greedy key dependencies items [] ordered) (item : α) :
    (item ∈ items ∧ item ∉ ordered) ↔ LeadsToCircle dependencies items item := by
  classical
  constructor
  · rintro ⟨listed, unplaced⟩
    have next : ∀ other ∈ items.filter (· ∉ ordered), ∃ dependency ∈ items.filter (· ∉ ordered),
        DependsOn dependencies items other dependency := by
      intro other member
      simp only [List.mem_filter, decide_eq_true_eq] at member ⊢
      obtain ⟨dependency, depends, isLeft⟩ := greedy.exists_unplaced member.1 member.2
      exact ⟨dependency, ⟨depends.2.1, isLeft⟩, depends⟩
    exact exists_circle next (by simp [listed, unplaced])
  · intro leads
    refine ⟨leads.listed, fun member => ?_⟩
    exact greedy.not_leadsToCircle (by simp) item member leads

end Placing

variable [LE α] [DecidableLE α] [DecidableEq α]

/-- An order is found exactly if there are no circles. -/
theorem exists_order_iff [Std.IsLinearOrder α] (key : α → Nat) (dependencies : α → List α)
    (items : List α) :
    (∃ ordered, order key dependencies items = .ok ordered) ↔ Acyclic dependencies items := by
  constructor
  · rintro ⟨ordered, inOrder⟩ item onCircle
    have leads : LeadsToCircle dependencies items item := ⟨item, onCircle, .refl⟩
    obtain ⟨listed, unplaced⟩ := ((greedy_of_order inOrder).not_mem_iff item).mpr leads
    rw [(order_perm inOrder).mem_iff, List.mem_eraseDups] at unplaced
    exact unplaced listed
  · intro acyclic
    obtain ⟨ordered, stalled, run, greedy, _⟩ := exists_greedy key dependencies items
    refine ⟨ordered, order_of_greedy greedy fun item listed => ?_⟩
    by_contra unplaced
    obtain ⟨circular, onCircle, _⟩ := (greedy.not_mem_iff item).mp ⟨listed, unplaced⟩
    exact acyclic circular onCircle

/-! ## What is dropped -/

section Dropping

variable {remaining kept : List (Pending α)}

omit [LE α] [DecidableLE α] in
theorem mem_awaited {waiting : Pending α} :
    waiting ∈ awaited remaining ↔
      waiting ∈ remaining ∧ ∃ other ∈ remaining, waiting.item ∈ other.waitsFor := by
  simp [awaited, List.mem_filter, List.mem_flatMap]

omit [LE α] [DecidableLE α] in
theorem awaited_sublist (remaining : List (Pending α)) :
    (awaited remaining).Sublist remaining := List.filter_sublist

omit [LE α] [DecidableLE α] in
theorem dropUnawaited_sublist (steps : Nat) (remaining : List (Pending α)) :
    (dropUnawaited steps remaining).Sublist remaining := by
  induction steps generalizing remaining with
  | zero => exact List.Sublist.refl remaining
  | succ steps inductionHypothesis =>
      rw [dropUnawaited]
      split
      · exact List.Sublist.refl remaining
      · exact (inductionHypothesis (awaited remaining)).trans (awaited_sublist remaining)

omit [LE α] [DecidableLE α] in
/-- As many steps as there are items drop all that can be dropped. -/
theorem awaited_dropUnawaited {steps : Nat} (enough : remaining.length ≤ steps) :
    awaited (dropUnawaited steps remaining) = dropUnawaited steps remaining := by
  induction steps generalizing remaining with
  | zero =>
      rw [List.length_eq_zero_iff.mp (Nat.le_zero.mp enough)]
      rfl
  | succ steps inductionHypothesis =>
      rw [dropUnawaited]
      split
      · rename_i sameLength
        exact (awaited_sublist remaining).eq_of_length sameLength
      · rename_i otherLength
        have atMost := (awaited_sublist remaining).length_le
        exact inductionHypothesis (by omega)

omit [LE α] [DecidableLE α] in
/-- What is awaited within itself is never dropped. -/
theorem subset_dropUnawaited (steps : Nat) (among : kept ⊆ remaining)
    (areAwaited : ∀ waiting ∈ kept, ∃ other ∈ kept, waiting.item ∈ other.waitsFor) :
    kept ⊆ dropUnawaited steps remaining := by
  induction steps generalizing remaining with
  | zero => exact among
  | succ steps inductionHypothesis =>
      rw [dropUnawaited]
      split
      · exact among
      · apply inductionHypothesis
        intro waiting member
        obtain ⟨other, otherMember, waits⟩ := areAwaited waiting member
        exact mem_awaited.mpr ⟨among member, other, among otherMember, waits⟩

end Dropping

/-! ## What is told -/

section Telling

variable {key : α → Nat} {dependencies : α → List α} {items placed : List α}
  {stalled : List (Pending α)}

omit [DecidableLE α] in
/-- What is left after dropping is what is between circles. -/
theorem Remains.mem_dropUnawaited_iff
    (remains : Remains key dependencies items placed stalled)
    (greedy : Greedy key dependencies items [] placed) (item : α) :
    item ∈ (dropUnawaited stalled.length stalled).map Pending.item ↔
      BetweenCircles dependencies items item := by
  classical
  have isStalled (item : α) : item ∈ stalled.map Pending.item ↔
      LeadsToCircle dependencies items item := by
    rw [remains.isRest, greedy.not_mem_iff]
  constructor
  · intro member
    have isKept := awaited_dropUnawaited (le_refl stalled.length)
    have among := (dropUnawaited_sublist stalled.length stalled).subset
    refine ⟨(isStalled item).mp (List.map_subset _ among member), ?_⟩
    have next : ∀ awaited ∈ (dropUnawaited stalled.length stalled).map Pending.item,
        ∃ other ∈ (dropUnawaited stalled.length stalled).map Pending.item,
          Function.swap (DependsOn dependencies items) awaited other := by
      intro awaited awaitedMember
      obtain ⟨waiting, waitingMember, rfl⟩ := List.mem_map.mp awaitedMember
      rw [← isKept, mem_awaited] at waitingMember
      obtain ⟨_, other, otherMember, waits⟩ := waitingMember
      exact ⟨other.item, List.mem_map_of_mem otherMember,
        ((remains.waits other (among otherMember) waiting.item).mp waits).1⟩
    obtain ⟨circular, onCircle, path⟩ := exists_circle next member
    exact ⟨circular, Relation.transGen_swap.mp onCircle, Relation.reflTransGen_swap.mp path⟩
  · intro between
    let kept := stalled.filter fun waiting => BetweenCircles dependencies items waiting.item
    have isKept (item : α) (itemBetween : BetweenCircles dependencies items item) :
        ∃ waiting ∈ kept, waiting.item = item := by
      obtain ⟨waiting, member, rfl⟩ := List.mem_map.mp ((isStalled item).mpr itemBetween.1)
      exact ⟨waiting, List.mem_filter.mpr ⟨member, decide_eq_true itemBetween⟩, rfl⟩
    have areAwaited : ∀ waiting ∈ kept, ∃ other ∈ kept, waiting.item ∈ other.waitsFor := by
      intro waiting member
      obtain ⟨listed, waitingBetween⟩ := List.mem_filter.mp member
      have waitingBetween := of_decide_eq_true waitingBetween
      obtain ⟨item, depends, itemBetween⟩ := waitingBetween.exists_awaiting
      obtain ⟨other, otherMember, rfl⟩ := isKept item itemBetween
      refine ⟨other, otherMember,
        (remains.waits other (List.mem_filter.mp otherMember).1 waiting.item).mpr ⟨depends, ?_⟩⟩
      exact ((remains.isRest waiting.item).mp (List.mem_map_of_mem listed)).2
    obtain ⟨waiting, member, rfl⟩ := isKept item between
    exact List.mem_map_of_mem
      (subset_dropUnawaited stalled.length List.filter_sublist.subset areAwaited member)

omit [DecidableEq α] in
/-- Sorting what is left by key sorts its items. -/
theorem Remains.map_item_mergeSort (remains : Remains key dependencies items placed stalled)
    {kept : List (Pending α)} (among : kept ⊆ stalled) :
    (kept.mergeSort comesFirst).map Pending.item =
      (kept.map Pending.item).mergeSort fun left right =>
        decide (key left < key right) || (key left == key right && decide (left ≤ right)) := by
  apply List.map_mergeSort
  intro left leftMember right rightMember
  rw [comesFirst, remains.keyed left (among leftMember),
    remains.keyed right (among rightMember)]

variable [Std.IsLinearOrder α]

/-- If no order is found, the items on circles and between circles are told, in
ascending order. -/
theorem reported_of_order {reported : List α}
    (stuck : order key dependencies items = .error reported) :
    reported.Nodup ∧ reported.Pairwise (Precedes key) ∧
      ∀ item, item ∈ reported ↔ BetweenCircles dependencies items item := by
  obtain ⟨placed, stalled, run, greedy, remains⟩ := exists_greedy key dependencies items
  simp only [order, run] at stuck
  split at stuck
  · cases stuck
  · have among := (dropUnawaited_sublist stalled.length stalled).subset
    rw [remains.map_item_mergeSort among, Except.error.injEq] at stuck
    have isPerm : reported.Perm
        ((dropUnawaited stalled.length stalled).map Pending.item) :=
      stuck ▸ List.mergeSort_perm _ _
    refine ⟨?_, ?_, ?_⟩
    · rw [isPerm.nodup_iff]
      exact remains.distinct.sublist
        ((dropUnawaited_sublist stalled.length stalled).map Pending.item)
    · rw [← stuck]
      refine (List.pairwise_mergeSort ?_ ?_ _).imp ?_
      · intro left middle right first second
        have precedes : Precedes key left middle := by simpa [Precedes] using first
        have follows : Precedes key middle right := by simpa [Precedes] using second
        simpa [Precedes] using precedes.trans follows
      · intro left right
        simpa [Precedes] using Precedes.total key left right
      · intro left right precedes
        simpa [Precedes] using precedes
    · intro item
      rw [isPerm.mem_iff]
      exact remains.mem_dropUnawaited_iff greedy item

end Telling

/-! ## Exactly the circles -/

/-- If no order is found, what is told is exactly what is on circles or between
circles, so it is exactly what is on circles if and only if everything between
circles is on one. -/
theorem order_reportsCircles_iff {α : Type u} [LinearOrder α] (key : α → Nat)
    (dependencies : α → List α) (items : List α) {reported : List α}
    (stuck : order key dependencies items = .error reported) :
    reported.Nodup ∧ reported.Pairwise (Precedes key) ∧
      (∀ item, item ∈ reported ↔ BetweenCircles dependencies items item) ∧
      ((∀ item, item ∈ reported ↔ OnCircle dependencies items item) ↔
        ∀ item, BetweenCircles dependencies items item → OnCircle dependencies items item) := by
  obtain ⟨distinct, ascending, isReported⟩ := reported_of_order stuck
  refine ⟨distinct, ascending, isReported, ?_⟩
  constructor
  · intro onlyCircles item between
    exact (onlyCircles item).mp ((isReported item).mpr between)
  · intro onCircle item
    rw [isReported]
    exact ⟨onCircle item, OnCircle.between⟩

/-- Two circles, and an item that leads to one of them and is awaited by the other. -/
def chainedCircles : Nat → List Nat
  | 1 => [2]
  | 2 => [1]
  | 3 => [1]
  | 4 => [3, 5]
  | 5 => [4]
  | _ => []

/-- The item between two circles is told, although it is on neither. -/
theorem chainedCircles_reportsBetween :
    order id chainedCircles [1, 2, 3, 4, 5] = .error [1, 2, 3, 4, 5] ∧
      ¬ OnCircle chainedCircles [1, 2, 3, 4, 5] 3 ∧
      ¬ ∀ item, BetweenCircles chainedCircles [1, 2, 3, 4, 5] item →
        OnCircle chainedCircles [1, 2, 3, 4, 5] item := by
  have stuck : order id chainedCircles [1, 2, 3, 4, 5] = .error [1, 2, 3, 4, 5] := by
    cbv
  have notOnCircle : ¬ OnCircle chainedCircles [1, 2, 3, 4, 5] 3 := by
    -- Whatever the item leads to is on the first circle.
    have leadsTo (item : Nat)
        (path : Relation.TransGen (DependsOn chainedCircles [1, 2, 3, 4, 5]) 3 item) :
        item = 1 ∨ item = 2 := by
      induction path with
      | single depends => exact .inl (by simpa [chainedCircles] using depends.2.2.1)
      | tail _ depends inductionHypothesis =>
          rcases inductionHypothesis with rfl | rfl
          · exact .inr (by simpa [chainedCircles] using depends.2.2.1)
          · exact .inl (by simpa [chainedCircles] using depends.2.2.1)
    intro circle
    have := leadsTo 3 circle
    omega
  obtain ⟨_, _, _, exact⟩ := order_reportsCircles_iff id chainedCircles [1, 2, 3, 4, 5] stuck
  refine ⟨stuck, notOnCircle, fun allOnCircle => notOnCircle ?_⟩
  exact (exact.mpr allOnCircle 3).mp (by simp)

end Registrar.TopologicalOrder
