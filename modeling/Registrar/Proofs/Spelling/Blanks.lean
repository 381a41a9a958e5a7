import Mathlib
import Registrar.Spelling

/-!
Contract: which blanks of a spelling matter.

Owns: the form of a spelling without needless blanks, told by what stands between its other
characters, and that blanks that are not between two words make no difference to it.

Does not own: what is looked up by this form.

A text is told by its marks, the characters that are not blank, and by its gaps, the blanks before
the first mark, between any two and after the last. The form keeps all marks, and of each gap one
blank or none.
-/

set_option autoImplicit false

namespace Registrar.Spelling

open Text

/-! ## Marks and gaps -/

def isMark (character : Char) : Bool := !isBlank character

/-- The characters of a text that are not blank. -/
def marks (text : List Char) : List Char := text.filter isMark

/-- The blanks before the first mark, between any two marks, and after the last. -/
def gaps (text : List Char) : List (List Char) := text.splitOnP isMark

/-- A text is told by its gaps and its marks. -/
theorem eq_of_gaps_of_marks {left right : List Char} (sameGaps : gaps left = gaps right)
    (sameMarks : marks left = marks right) : left = right := by
  have leftIs := List.splitOnP_spec (p := isMark) left
  have rightIs := List.splitOnP_spec (p := isMark) right
  rw [gaps, gaps] at sameGaps
  rw [marks, marks] at sameMarks
  rw [← leftIs, sameGaps, sameMarks, rightIs]

section Reading

variable {character : Char}

theorem marks_cons_of_blank (blank : isBlank character = true) (rest : List Char) :
    marks (character :: rest) = marks rest := by
  simp [marks, isMark, blank]

theorem gaps_cons_of_blank (blank : isBlank character = true) (rest : List Char) :
    gaps (character :: rest) = (gaps rest).modifyHead (character :: ·) := by
  simp [gaps, isMark, List.splitOnP_cons_eq_if_modifyHead, blank]

theorem marks_cons_of_mark (notBlank : isBlank character = false) (rest : List Char) :
    marks (character :: rest) = character :: marks rest := by
  simp [marks, isMark, notBlank]

theorem gaps_cons_of_mark (notBlank : isBlank character = false) (rest : List Char) :
    gaps (character :: rest) = [] :: gaps rest := by
  simp [gaps, isMark, List.splitOnP_cons_eq_if_modifyHead, notBlank]

end Reading

/-! ## The normal form -/

/-- The mark before a gap, where `last` stood before the first one. -/
def markBefore (last : Option Char) (marks : List Char) : Nat → Option Char
  | 0 => last
  | position + 1 => marks[position]?

/-- Whether the marks on both sides of the gap are characters of words. -/
def isBetweenWords (last : Option Char) (marks : List Char) (position : Nat) : Bool :=
  (markBefore last marks position).any isWordCharacter && marks[position]?.any isWordCharacter

theorem isBetweenWords_succ (last : Option Char) (character : Char) (marks : List Char)
    (position : Nat) :
    isBetweenWords last (character :: marks) (position + 1) =
      isBetweenWords (some character) marks position := by
  cases position <;> rfl

/-- The normal form has the marks of the spelling, in their order. In a gap it has one blank if
the spelling has any there and the gap is between two characters of words, and nothing otherwise. -/
structure IsNormalFormOf (spelling normal : String) : Prop where
  sameMarks : marks normal.toList = marks spelling.toList
  gapsKept : ∀ position, (gaps normal.toList)[position]? =
    (gaps spelling.toList)[position]?.map fun gap =>
      if gap ≠ [] ∧ isBetweenWords none (marks spelling.toList) position then [' '] else []

/-- What is written for a gap. -/
def written (isKept : Bool) : List Char := if isKept then [' '] else []

theorem marks_written_append {character : Char} (notBlank : isBlank character = false)
    (isKept : Bool) (rest : List Char) :
    marks (written isKept ++ character :: rest) = character :: marks rest := by
  cases isKept with
  | false => exact marks_cons_of_mark notBlank rest
  | true => exact (marks_cons_of_blank (by decide) _).trans (marks_cons_of_mark notBlank rest)

theorem gaps_written_append {character : Char} (notBlank : isBlank character = false)
    (isKept : Bool) (rest : List Char) :
    gaps (written isKept ++ character :: rest) = written isKept :: gaps rest := by
  cases isKept with
  | false => exact gaps_cons_of_mark notBlank rest
  | true =>
      have afterBlank : gaps (' ' :: character :: rest) = _ := gaps_cons_of_blank (by decide) _
      rw [gaps_cons_of_mark notBlank] at afterBlank
      exact afterBlank

theorem normalizeFrom_cons_of_mark {character : Char} (notBlank : isBlank character = false)
    (last : Option Char) (gap : Bool) (rest : List Char) :
    normalizeFrom last gap (character :: rest) =
      written (gap && last.any isWordCharacter && isWordCharacter character) ++
        character :: normalizeFrom (some character) false rest := by
  rw [normalizeFrom, if_neg (by simp [notBlank]), written]
  dsimp only
  split_ifs <;> rfl

theorem marks_normalizeFrom (last : Option Char) (gap : Bool) (text : List Char) :
    marks (normalizeFrom last gap text) = marks text := by
  induction text generalizing last gap with
  | nil => rfl
  | cons character rest inductionHypothesis =>
      cases blank : isBlank character with
      | true => rw [normalizeFrom, if_pos blank, inductionHypothesis, marks_cons_of_blank blank]
      | false =>
          rw [normalizeFrom_cons_of_mark blank, marks_written_append blank, inductionHypothesis,
            marks_cons_of_mark blank]

/-- What is kept of each gap of a text. Before the text `last` was read, and after it blanks if
`gap` says so. -/
theorem gaps_normalizeFrom (last : Option Char) (gap : Bool) (text : List Char) (position : Nat) :
    (gaps (normalizeFrom last gap text))[position]? = (gaps text)[position]?.map fun blanks =>
      if (blanks ≠ [] ∨ position = 0 ∧ gap) ∧ isBetweenWords last (marks text) position then [' ']
      else [] := by
  induction text generalizing last gap position with
  | nil =>
      rw [normalizeFrom]
      cases position with
      | zero => simp [gaps, marks, isBetweenWords]
      | succ position => rfl
  | cons character rest inductionHypothesis =>
      cases blank : isBlank character with
      | true =>
          rw [normalizeFrom, if_pos blank, inductionHypothesis, gaps_cons_of_blank blank,
            marks_cons_of_blank blank]
          cases position with
          | zero => simp [List.getElem?_modifyHead_zero, Function.comp_def]
          | succ position => simp [List.getElem?_modifyHead_succ]
      | false =>
          rw [normalizeFrom_cons_of_mark blank, gaps_written_append blank, marks_cons_of_mark blank,
            gaps_cons_of_mark blank]
          cases position with
          | zero => simp [written, isBetweenWords, markBefore, and_assoc]
          | succ position => simp [inductionHypothesis, isBetweenWords_succ]

theorem isNormalFormOf_normalize (spelling : String) :
    IsNormalFormOf spelling (normalize spelling) := by
  constructor
  · rw [normalize, String.toList_ofList, marks_normalizeFrom]
  · intro position
    rw [normalize, String.toList_ofList, gaps_normalizeFrom]
    simp

/-- There is only one normal form. -/
theorem IsNormalFormOf.eq {spelling left right : String} (isLeft : IsNormalFormOf spelling left)
    (isRight : IsNormalFormOf spelling right) : left = right := by
  apply String.toList_inj.mp
  apply eq_of_gaps_of_marks
  · exact List.ext_getElem? fun position =>
      (isLeft.gapsKept position).trans (isRight.gapsKept position).symm
  · exact isLeft.sameMarks.trans isRight.sameMarks.symm

/-- The normal form is its own normal form. -/
theorem IsNormalFormOf.self {spelling normal : String}
    (isNormalForm : IsNormalFormOf spelling normal) : IsNormalFormOf normal normal := by
  refine ⟨rfl, fun position => ?_⟩
  rw [isNormalForm.sameMarks, isNormalForm.gapsKept position, Option.map_map]
  congr 1
  funext gap
  by_cases kept : gap ≠ [] ∧ isBetweenWords none (marks spelling.toList) position = true
  · simp [kept.1, kept.2]
  · simp [kept]

/-! ## Needless blanks -/

/-- Blanks that stand at a place of a text that is not between two characters of words. -/
structure AreNeedless (before blanks after : String) : Prop where
  blank : ∀ character ∈ blanks.toList, isBlank character = true
  notBetween : (before.toList.getLast?.any isWordCharacter &&
    after.toList.head?.any isWordCharacter) = false

/-- What is read is written, and of it nothing matters to the rest but the last mark and whether
blanks came after it. If none came, the mark is the last character. -/
theorem exists_normalizeFrom_append (last : Option Char) (gap : Bool) (before : List Char) :
    ∃ output reached pending,
      (∀ text, normalizeFrom last gap (before ++ text) =
        output ++ normalizeFrom reached pending text) ∧
      (pending = false →
        reached = before.getLast?.or last ∧ (before = [] → gap = false)) := by
  induction before generalizing last gap with
  | nil => exact ⟨[], last, gap, fun _ => rfl, fun notPending => ⟨rfl, fun _ => notPending⟩⟩
  | cons character rest inductionHypothesis =>
      cases blank : isBlank character with
      | true =>
          obtain ⟨output, reached, pending, reads, isLast⟩ := inductionHypothesis last true
          refine ⟨output, reached, pending, fun text => ?_, fun notPending => ⟨?_, nofun⟩⟩
          · rw [List.cons_append, normalizeFrom, if_pos blank, reads]
          · obtain ⟨isReached, notEmpty⟩ := isLast notPending
            cases rest with
            | nil => cases notEmpty rfl
            | cons second others => rw [isReached, List.getLast?_cons_cons]
      | false =>
          obtain ⟨output, reached, pending, reads, isLast⟩ :=
            inductionHypothesis (some character) false
          refine ⟨written (gap && last.any isWordCharacter && isWordCharacter character) ++
            character :: output, reached, pending, fun text => ?_, fun notPending => ⟨?_, nofun⟩⟩
          · rw [List.cons_append, normalizeFrom_cons_of_mark blank, reads, List.append_assoc,
              List.cons_append]
          · rw [(isLast notPending).1, List.getLast?_cons]
            cases rest.getLast? <;> rfl

/-- After blanks, further ones make no difference. -/
theorem normalizeFrom_true_append {blanks : List Char}
    (blank : ∀ character ∈ blanks, isBlank character = true) (last : Option Char)
    (text : List Char) :
    normalizeFrom last true (blanks ++ text) = normalizeFrom last true text := by
  induction blanks with
  | nil => rfl
  | cons character rest inductionHypothesis =>
      rw [List.forall_mem_cons] at blank
      rw [List.cons_append, normalizeFrom, if_pos blank.1, inductionHypothesis blank.2]

/-- Blanks make no difference if they are not between two characters of words. -/
theorem normalizeFrom_true {last : Option Char} {text : List Char}
    (notBetween : (last.any isWordCharacter && text.head?.any isWordCharacter) = false) :
    normalizeFrom last true text = normalizeFrom last false text := by
  cases text with
  | nil => rfl
  | cons character rest =>
      cases blank : isBlank character with
      | true => rw [normalizeFrom, normalizeFrom, if_pos blank, if_pos blank]
      | false =>
          have notKept : (last.any isWordCharacter && isWordCharacter character) = false :=
            notBetween
          rw [normalizeFrom_cons_of_mark blank, normalizeFrom_cons_of_mark blank,
            Bool.true_and, Bool.false_and, notKept, Bool.false_and]

theorem normalizeFrom_of_needless {before blanks after : List Char}
    (blank : ∀ character ∈ blanks, isBlank character = true)
    (notBetween : (before.getLast?.any isWordCharacter &&
      after.head?.any isWordCharacter) = false) :
    normalizeFrom none false (before ++ (blanks ++ after)) =
      normalizeFrom none false (before ++ after) := by
  obtain ⟨output, reached, pending, reads, isLast⟩ :=
    exists_normalizeFrom_append none false before
  rw [reads, reads]
  cases pending with
  | true => rw [normalizeFrom_true_append blank]
  | false =>
      obtain ⟨isReached, -⟩ := isLast rfl
      rw [Option.or_none] at isReached
      cases blanks with
      | nil => rfl
      | cons character rest =>
          rw [List.forall_mem_cons] at blank
          rw [List.cons_append, normalizeFrom, if_pos blank.1, normalizeFrom_true_append blank.2,
            normalizeFrom_true (isReached ▸ notBetween)]

theorem AreNeedless.normalize_eq {before blanks after : String}
    (needless : AreNeedless before blanks after) :
    normalize (before ++ blanks ++ after) = normalize (before ++ after) := by
  rw [normalize, normalize, String.toList_append, String.toList_append, String.toList_append,
    List.append_assoc, normalizeFrom_of_needless needless.blank needless.notBetween]

/-! ## Normalizing -/

/-- The spelling is brought to its normal form, and stays there. Blanks can be put in or taken out
wherever they are needless. -/
structure NormalizesExactly (spelling : String) : Prop where
  normalForm : ∀ normal, IsNormalFormOf spelling normal ↔ normal = normalize spelling
  idempotent : normalize (normalize spelling) = normalize spelling
  inserted : ∀ {before blanks after}, AreNeedless before blanks after →
    spelling = before ++ after → normalize (before ++ blanks ++ after) = normalize spelling
  deleted : ∀ {before blanks after}, AreNeedless before blanks after →
    spelling = before ++ blanks ++ after → normalize (before ++ after) = normalize spelling

theorem normalize_normalizesExactly (spelling : String) : NormalizesExactly spelling := by
  have isNormalForm := isNormalFormOf_normalize spelling
  refine ⟨fun normal => ⟨fun isOther => isOther.eq isNormalForm, ?_⟩, ?_, ?_, ?_⟩
  · rintro rfl
    exact isNormalForm
  · exact (isNormalFormOf_normalize (normalize spelling)).eq isNormalForm.self
  · rintro before blanks after needless rfl
    exact needless.normalize_eq
  · rintro before blanks after needless rfl
    exact needless.normalize_eq.symm

/-- A spelling with three blanks between two words, of which two are needless, and with others. -/
def spacedSpelling : String := " unsigned \t long< int >\n"

theorem spacedSpelling_normalizesExactly :
    IsNormalFormOf spacedSpelling "unsigned long<int>" ∧
      AreNeedless " unsigned " "\t " "long< int >\n" ∧
      normalize (" unsigned " ++ "long< int >\n") = normalize spacedSpelling ∧
      AreNeedless " unsigned \t long< int" "\u3000" " >\n" ∧
      normalize (" unsigned \t long< int" ++ "\u3000" ++ " >\n") = normalize spacedSpelling := by
  have normalizes := normalize_normalizesExactly spacedSpelling
  have extra : AreNeedless " unsigned " "\t " "long< int >\n" :=
    ⟨List.all_eq_true.mp (by cbv), by cbv⟩
  have further : AreNeedless " unsigned \t long< int" "\u3000" " >\n" :=
    ⟨List.all_eq_true.mp (by cbv), by cbv⟩
  exact ⟨(normalizes.normalForm _).mpr (by decide +kernel), extra,
    normalizes.deleted extra (by decide +kernel), further,
    normalizes.inserted further (by decide +kernel)⟩

end Registrar.Spelling
