import Mathlib
import Registrar.Identifier

/-!
Contract: what holds of every identifier that is handed out.

Owns: that a supply hands out nothing that was used, that it chooses the least
free counter, and that what it hands out for an identifier is one.

Does not own: for which names identifiers are asked.
-/

set_option autoImplicit false

namespace Registrar.Identifier

/-! ## Validity -/

/-- What can open an identifier can also stand further on. -/
theorem canContinue_of_canStart {character : Char} (starts : canStart character = true) :
    canContinue character = true := by
  simp only [canStart, canContinue, Char.isAlphanum, Bool.or_eq_true] at starts ⊢
  rcases starts with letter | underscore
  · exact .inl (.inl letter)
  · exact .inr underscore

/-- All that is kept of a spelling can stand inside an identifier. -/
theorem canContinue_of_mem_sanitizeFrom {keptAny runOpen : Bool} {characters : List Char}
    {character : Char} (member : character ∈ sanitizeFrom keptAny runOpen characters) :
    canContinue character = true := by
  have underscore : canContinue '_' = true := by decide
  induction characters generalizing keptAny runOpen with
  | nil =>
      rw [sanitizeFrom] at member
      split at member
      · rw [List.mem_singleton.mp member]
        exact underscore
      · simp at member
  | cons first rest inductionHypothesis =>
      rw [sanitizeFrom] at member
      by_cases stands : canStand keptAny first = true
      · have firstContinues : canContinue first = true := by
          rw [canStand] at stands
          split at stands
          · exact stands
          · exact canContinue_of_canStart stands
        simp only [stands, if_true] at member
        split at member
        · rcases List.mem_cons.mp member with rfl | later
          · exact underscore
          · rcases List.mem_cons.mp later with rfl | later
            · exact firstContinues
            · exact inductionHypothesis later
        · rcases List.mem_cons.mp member with rfl | later
          · exact firstContinues
          · exact inductionHypothesis later
      · simp only [stands] at member
        exact inductionHypothesis member

/-- An identifier may be followed by anything that can stand inside one. -/
theorem isValid_append {identifier suffix : String} (valid : isValid identifier = true)
    (continues : ∀ character ∈ suffix.toList, canContinue character = true) :
    isValid (identifier ++ suffix) = true := by
  rw [isValid] at valid ⊢
  rw [String.toList_append]
  cases characters : identifier.toList with
  | nil => simp [characters, isValidChars] at valid
  | cons first rest =>
      simp only [characters, isValidChars, Bool.and_eq_true, List.cons_append,
        List.all_append, List.all_eq_true] at valid ⊢
      exact ⟨valid.1, valid.2, continues⟩

/-- An identifier with a counter after it is an identifier. -/
theorem isValid_numbered {base : String} (valid : isValid base = true) (counter : Nat) :
    isValid (numbered base counter) = true := by
  rw [numbered, String.append_assoc]
  refine isValid_append valid ?_
  intro character member
  rw [String.toList_append, List.mem_append] at member
  rcases member with underscore | digit
  · have isUnderscore : character = '_' := by simpa using underscore
    rw [isUnderscore]
    decide
  · change character ∈ (Nat.repr counter).toList at digit
    rw [Nat.toList_repr] at digit
    have isDigit := Nat.isDigit_of_mem_toDigits (by decide) (by decide) digit
    simp [canContinue, Char.isAlphanum, isDigit]

/-! ## Fresh identifiers -/

theorem numbered_injective (base : String) : Function.Injective (numbered base) := by
  intro left right equal
  exact Nat.repr_injective ((String.append_right_inj (base ++ "_")).mp equal)

/-- Some counter among one more than there are used identifiers is free. -/
theorem exists_free_counter (supply : Supply) (base : String) :
    ∃ counter ∈ List.range' 2 (supply.used.length + 1),
      numbered base counter ∉ supply.used := by
  by_contra noneFree
  push Not at noneFree
  let candidates := (List.range' 2 (supply.used.length + 1)).map (numbered base)
  have allUsed : candidates ⊆ supply.used := by
    intro identifier member
    obtain ⟨counter, inRange, rfl⟩ := List.mem_map.mp member
    exact noneFree counter inRange
  have distinct : candidates.Nodup := (List.nodup_range' 1).map (numbered_injective base)
  have atMost := (distinct.subperm allUsed).length_le
  simp only [candidates, List.length_map, List.length_range'] at atMost
  omega

/-- The counter that a supply chooses for a base is the least free one from two on, and is found
among one more than there are used identifiers. -/
theorem freeCounter_isLeast (supply : Supply) (base : String) :
    IsLeast {counter | 2 ≤ counter ∧ numbered base counter ∉ supply.used}
        (supply.freeCounter base) ∧
      supply.freeCounter base < supply.used.length + 3 := by
  obtain ⟨counter, inRange, isFree⟩ := exists_free_counter supply base
  cases found : (List.range' 2 (supply.used.length + 1)).find? fun counter =>
      !supply.used.contains (numbered base counter) with
  | none =>
      have isUsed := List.find?_eq_none.mp found counter inRange
      simp [isFree] at isUsed
  | some least =>
      have chosen : supply.freeCounter base = least := by
        rw [Supply.freeCounter, found, Option.getD_some]
      obtain ⟨leastFree, leastInRange, usedBefore⟩ := List.find?_range'_eq_some.mp found
      rw [List.mem_range'_1] at leastInRange
      rw [chosen]
      refine ⟨⟨⟨leastInRange.1, by simpa using leastFree⟩, ?_⟩, by omega⟩
      rintro other ⟨fromTwo, otherFree⟩
      by_contra isBefore
      have otherUsed := usedBefore other fromTwo (Nat.not_le.mp isBefore)
      simp [otherFree] at otherUsed

theorem numbered_freeCounter_not_mem (supply : Supply) (base : String) :
    numbered base (supply.freeCounter base) ∉ supply.used :=
  (freeCounter_isLeast supply base).1.1.2

/-- What a supply hands out was not used before. -/
theorem take_not_mem_used (supply : Supply) (base : String) :
    (supply.take base).1 ∉ supply.used := by
  simp only [Supply.take]
  split
  · exact numbered_freeCounter_not_mem supply base
  · rename_i unused
    simpa using unused

/-- What a supply hands out is used from then on, and nothing else becomes so. -/
theorem take_used (supply : Supply) (base : String) :
    (supply.take base).2.used = (supply.take base).1 :: supply.used := rfl

/-- For an identifier a supply hands out an identifier. -/
theorem isValid_take (supply : Supply) {base : String} (valid : isValid base = true) :
    isValid (supply.take base).1 = true := by
  simp only [Supply.take]
  split
  · exact isValid_numbered valid _
  · exact valid

end Registrar.Identifier
