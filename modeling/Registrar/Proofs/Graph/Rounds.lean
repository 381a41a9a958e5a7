import Mathlib

/-!
Contract: rounds of a relation in which whatever leads on leads to one item only.

Owns: that a closed way has no repetitions before its end, that a round is all
that its members lead to, and that rounds with a common member have the same
members.

Does not own: which relation it is, and how rounds are found.
-/

set_option autoImplicit false

namespace Registrar

variable {α : Type} {LeadsTo : α → α → Prop}

/-! ## Ways -/

theorem transGen_of_isChain {first last : α} {between : List α}
    (linked : (first :: between ++ [last]).IsChain LeadsTo) :
    Relation.TransGen LeadsTo first last := by
  induction between generalizing first with
  | nil => exact .single (List.isChain_pair.mp linked)
  | cons second rest inductionHypothesis =>
      obtain ⟨step, onwards⟩ := List.isChain_cons_cons.mp linked
      exact .head step (inductionHypothesis onwards)

/-- The first item of a way leads to every item of it. -/
theorem reflTransGen_of_isChain {first item : α} {rest : List α}
    (linked : (first :: rest).IsChain LeadsTo) (member : item ∈ first :: rest) :
    Relation.ReflTransGen LeadsTo first item := by
  induction rest generalizing first with
  | nil =>
      obtain rfl := List.mem_singleton.mp member
      exact .refl
  | cons second rest inductionHypothesis =>
      obtain ⟨step, onwards⟩ := List.isChain_cons_cons.mp linked
      rcases List.mem_cons.mp member with rfl | later
      · exact .refl
      · exact .head step (inductionHypothesis onwards later)

/-- Every item of a way but the last leads to the last. -/
theorem transGen_last_of_isChain {item last : α} {items : List α}
    (linked : (items ++ [last]).IsChain LeadsTo) (member : item ∈ items) :
    Relation.TransGen LeadsTo item last := by
  obtain ⟨before, after, rfl⟩ := List.append_of_mem member
  rw [List.append_assoc] at linked
  exact transGen_of_isChain linked.right_of_append

/-- Every item of a way but the last leads on to an item of it that is not the first. -/
theorem exists_next_of_isChain {first last item : α} {rest : List α}
    (linked : (first :: rest ++ [last]).IsChain LeadsTo) (member : item ∈ first :: rest) :
    ∃ next ∈ rest ++ [last], LeadsTo item next := by
  induction rest generalizing first with
  | nil =>
      obtain rfl := List.mem_singleton.mp member
      exact ⟨last, List.mem_cons_self, List.isChain_pair.mp linked⟩
  | cons second rest inductionHypothesis =>
      obtain ⟨step, onwards⟩ := List.isChain_cons_cons.mp linked
      rcases List.mem_cons.mp member with rfl | later
      · exact ⟨second, List.mem_cons_self, step⟩
      · obtain ⟨next, listed, leads⟩ := inductionHypothesis onwards later
        exact ⟨next, List.mem_cons_of_mem _ listed, leads⟩

/-! ## Rounds -/

/-- Every item of a round leads to the next, and the last to the first. None is there
twice. -/
structure IsRound (LeadsTo : α → α → Prop) (round : List α) : Prop where
  distinct : round.Nodup
  closed : ∃ first rest, round = first :: rest ∧ (first :: rest ++ [first]).IsChain LeadsTo

section Unique

variable (unique : Relator.RightUnique LeadsTo)

include unique

/-- A way back to its start leads nowhere else. -/
theorem mem_of_closed {first item top : α} {rest : List α}
    (linked : (first :: rest ++ [first]).IsChain LeadsTo) (member : item ∈ first :: rest)
    (way : Relation.ReflTransGen LeadsTo item top) : top ∈ first :: rest := by
  induction way with
  | refl => exact member
  | tail _ step inductionHypothesis =>
      obtain ⟨next, listed, leads⟩ := exists_next_of_isChain linked inductionHypothesis
      rw [unique step leads]
      rcases List.mem_append.mp listed with later | isFirst
      · exact List.mem_cons_of_mem _ later
      · rw [List.mem_singleton.mp isFirst]
        exact List.mem_cons_self

/-- A way to an item that is not met before has no repetitions. An item that is met again
would lead nowhere but to itself and what is between. -/
theorem nodup_of_isChain {last : α} {items : List α}
    (linked : (items ++ [last]).IsChain LeadsTo) (notBefore : last ∉ items) : items.Nodup := by
  induction items with
  | nil => exact List.nodup_nil
  | cons first rest inductionHypothesis =>
      have way := (transGen_last_of_isChain linked List.mem_cons_self).to_reflTransGen
      refine List.nodup_cons.mpr ⟨?_, ?_⟩
      · intro again
        obtain ⟨before, after, rfl⟩ := List.append_of_mem again
        have isSplit : first :: (before ++ first :: after) ++ [last] =
            (first :: before ++ [first]) ++ (after ++ [last]) := by simp
        rw [isSplit] at linked
        have closed : (first :: before ++ [first]).IsChain LeadsTo := linked.left_of_append
        refine notBefore ?_
        rcases List.mem_cons.mp (mem_of_closed unique closed List.mem_cons_self way) with
          isFirst | isBefore
        · rw [isFirst]
          exact List.mem_cons_self
        · exact List.mem_cons_of_mem _ (List.mem_append_left _ isBefore)
      · exact inductionHypothesis linked.tail fun later =>
          notBefore (List.mem_cons_of_mem _ later)

/-- A closed way on which the first item is met at its end only is a round. -/
theorem isRound_of_isChain {first : α} {rest : List α}
    (linked : (first :: rest ++ [first]).IsChain LeadsTo) (notBefore : first ∉ rest) :
    IsRound LeadsTo (first :: rest) where
  distinct := List.nodup_cons.mpr ⟨notBefore, nodup_of_isChain unique linked.tail notBefore⟩
  closed := ⟨first, rest, rfl, linked⟩

/-- What leads back to itself is led to by whatever it leads to. -/
theorem reflTransGen_back {item top : α} (returns : Relation.TransGen LeadsTo item item)
    (way : Relation.ReflTransGen LeadsTo item top) : Relation.ReflTransGen LeadsTo top item := by
  induction way with
  | refl => exact .refl
  | tail _ step inductionHypothesis =>
      rcases inductionHypothesis.cases_head with isItem | ⟨next, leads, onwards⟩
      · rw [isItem] at step
        obtain ⟨next, leads, onwards⟩ := Relation.TransGen.head'_iff.mp returns
        rwa [unique step leads]
      · rwa [unique step leads]

namespace IsRound

variable {round other : List α} (isRound : IsRound LeadsTo round)

include isRound

omit unique in
/-- Every member of a round leads back to itself. -/
theorem transGen_self {item : α} (member : item ∈ round) :
    Relation.TransGen LeadsTo item item := by
  obtain ⟨first, rest, rfl, linked⟩ := isRound.closed
  exact (transGen_last_of_isChain linked member).trans_left
    (reflTransGen_of_isChain linked (List.mem_append_left _ member))

/-- The members of a round are what any of them leads to. -/
theorem mem_iff {item top : α} (member : item ∈ round) :
    top ∈ round ↔ Relation.ReflTransGen LeadsTo item top := by
  obtain ⟨first, rest, rfl, linked⟩ := isRound.closed
  constructor
  · intro topMember
    exact (transGen_last_of_isChain linked member).to_reflTransGen.trans
      (reflTransGen_of_isChain linked (List.mem_append_left _ topMember))
  · exact mem_of_closed unique linked member

/-- Rounds with a common member have the same members. -/
theorem perm_of_mem (isOther : IsRound LeadsTo other) {item : α} (member : item ∈ round)
    (otherMember : item ∈ other) : round.Perm other := by
  rw [List.perm_ext_iff_of_nodup isRound.distinct isOther.distinct]
  intro top
  rw [isRound.mem_iff unique member, isOther.mem_iff unique otherMember]

end IsRound

end Unique

end Registrar
