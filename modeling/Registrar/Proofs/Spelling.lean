import Mathlib
import Registrar.Proofs.Spelling.Blanks

/-!
Contract: lists of arguments that are written in one text.

Owns: which spellings can stand in a list, and that a list of such spellings is split into just
these, whatever blanks stand around them.

Does not own: what lists are written for.

Brackets of all three families count alike, and need not be closed in the order in which they are
opened. Only how many more are opened than closed matters, and a comma separates where none is.
-/

set_option autoImplicit false

namespace Registrar.Spelling

open Text

/-! ## Arguments -/

def isOpening (character : Char) : Bool :=
  character == '<' || character == '(' || character == '['

def isClosing (character : Char) : Bool :=
  character == '>' || character == ')' || character == ']'

/-- The spelling can stand in a list: it is not blank, opens as many brackets as it closes, and
has no comma where it has opened as many as it has closed. -/
structure IsArgument (spelling : String) : Prop where
  nonblank : ∃ character ∈ spelling.toList, isBlank character = false
  balanced : spelling.toList.countP isOpening = spelling.toList.countP isClosing
  commasInside : ∀ before after, spelling.toList = before ++ ',' :: after →
    before.countP isOpening ≠ before.countP isClosing

/-- Every comma is found at its position. -/
theorem forall_comma_iff {text : List Char} {holds : List Char → Prop} :
    (∀ before after, text = before ++ ',' :: after → holds before) ↔
      ∀ position < text.length, text[position]? = some ',' → holds (text.take position) := by
  constructor
  · intro atCommas position inText isComma
    rw [List.getElem?_eq_getElem inText, Option.some.injEq] at isComma
    refine atCommas _ (text.drop (position + 1)) ?_
    rw [← isComma, List.getElem_cons_drop, List.take_append_drop]
  · rintro atPositions before after rfl
    have holdsBefore := atPositions before.length (by simp) (by simp)
    rwa [List.take_left] at holdsBefore

instance (spelling : String) : Decidable (IsArgument spelling) :=
  decidable_of_iff
    ((spelling.toList.any fun character => !isBlank character) = true ∧
      spelling.toList.countP isOpening = spelling.toList.countP isClosing ∧
      ∀ position < spelling.toList.length, spelling.toList[position]? = some ',' →
        (spelling.toList.take position).countP isOpening ≠
          (spelling.toList.take position).countP isClosing)
    ⟨fun holds => ⟨by simpa using holds.1, holds.2.1, forall_comma_iff.mpr holds.2.2⟩,
      fun holds => ⟨by simpa using holds.nonblank, holds.balanced,
        forall_comma_iff.mp holds.commasInside⟩⟩

/-- The text is the spelling with blanks on either side, if any. -/
def IsPadded (spelling written : String) : Prop :=
  ∃ before after : List Char, (∀ character ∈ before, isBlank character = true) ∧
    (∀ character ∈ after, isBlank character = true) ∧
    written.toList = before ++ spelling.toList ++ after

/-- The list is written as the spellings with commas between them, and any blanks around them. -/
def Lists (spellings : List String) (list : String) : Prop :=
  ∃ pieces, List.Forall₂ IsPadded spellings pieces ∧ list = ",".intercalate pieces

/-! ## Depth -/

/-- How many more brackets the text opens than it closes. -/
def depth (text : List Char) : Int := (text.map nesting).sum

@[simp]
theorem depth_nil : depth [] = 0 := rfl

@[simp]
theorem depth_cons (character : Char) (rest : List Char) :
    depth (character :: rest) = nesting character + depth rest := by
  rw [depth, List.map_cons, List.sum_cons]
  rfl

/-- No character both opens and closes. -/
theorem nesting_eq (character : Char) :
    nesting character =
      (if isOpening character = true then 1 else 0) -
        (if isClosing character = true then 1 else 0) := by
  by_cases opens : isOpening character = true
  · have notClosing : isClosing character = false := by
      simp only [isOpening, Bool.or_eq_true, beq_iff_eq] at opens
      rcases opens with (rfl | rfl) | rfl <;> decide
    rw [if_pos opens, notClosing]
    exact if_pos opens
  · rw [if_neg opens]
    refine (if_neg opens).trans ?_
    by_cases closes : isClosing character = true
    · rw [if_pos closes]
      exact if_pos closes
    · rw [if_neg closes]
      exact if_neg closes

theorem depth_eq (text : List Char) :
    depth text = text.countP isOpening - text.countP isClosing := by
  induction text with
  | nil => rfl
  | cons character rest inductionHypothesis =>
      rw [depth_cons, inductionHypothesis, nesting_eq, List.countP_cons, List.countP_cons]
      push_cast
      ring

theorem nesting_of_isBlank {character : Char} (blank : isBlank character = true) :
    nesting character = 0 ∧ character ≠ ',' := by
  have marks : ∀ mark ∈ ['<', '(', '[', '>', ')', ']', ','], isBlank mark = false := by
    simp [isBlank]
  have differs : ∀ mark ∈ ['<', '(', '[', '>', ')', ']', ','], character ≠ mark := by
    rintro mark listed rfl
    rw [marks character listed] at blank
    cases blank
  simp only [List.forall_mem_cons] at differs
  simp [nesting, differs]

/-! ## Pieces -/

/-- Outside all brackets, the text is read into the piece that it begins in. -/
def IsWhole (text : List Char) : Prop :=
  ∀ piece rest, piecesFrom 0 piece (text ++ rest) = piecesFrom 0 (text.reverse ++ piece) rest

theorem IsWhole.append {text others : List Char} (whole : IsWhole text)
    (othersWhole : IsWhole others) : IsWhole (text ++ others) := by
  intro piece rest
  rw [List.append_assoc, whole, othersWhole, List.reverse_append, List.append_assoc]

/-- A text is read into one piece if none of its commas is outside all brackets, counted from the
level at its start. -/
theorem piecesFrom_append {level : Int} {text : List Char}
    (inside : ∀ before after, text = before ++ ',' :: after → level + depth before ≠ 0)
    (piece rest : List Char) :
    piecesFrom level piece (text ++ rest) =
      piecesFrom (level + depth text) (text.reverse ++ piece) rest := by
  induction text generalizing level piece with
  | nil => simp
  | cons character text inductionHypothesis =>
      have notSplit : ¬ (character == ',' && level == 0) = true := by
        rw [Bool.and_eq_true, beq_iff_eq, beq_iff_eq]
        rintro ⟨rfl, rfl⟩
        exact inside [] text rfl rfl
      have insideRest : ∀ before after, text = before ++ ',' :: after →
          level + nesting character + depth before ≠ 0 := by
        intro before after isText
        rw [add_assoc, ← depth_cons]
        exact inside (character :: before) after (congrArg (character :: ·) isText)
      rw [List.cons_append, piecesFrom, if_neg notSplit, inductionHypothesis insideRest,
        depth_cons, add_assoc, List.reverse_cons, List.append_assoc, List.singleton_append]

theorem IsArgument.isWhole {spelling : String} (isArgument : IsArgument spelling) :
    IsWhole spelling.toList := by
  have outside : depth spelling.toList = 0 := by
    rw [depth_eq, isArgument.balanced, sub_self]
  intro piece rest
  rw [piecesFrom_append _ piece rest, outside, zero_add]
  intro before after isText
  rw [zero_add, depth_eq, sub_ne_zero, Nat.cast_injective.ne_iff]
  exact isArgument.commasInside before after isText

theorem isWhole_of_isBlank {text : List Char}
    (blank : ∀ character ∈ text, isBlank character = true) : IsWhole text := by
  have outside : depth text = 0 :=
    List.sum_eq_zero (List.forall_mem_map.mpr fun character listed =>
      (nesting_of_isBlank (blank character listed)).1)
  intro piece rest
  rw [piecesFrom_append _ piece rest, outside, zero_add]
  intro before after isText
  have isComma := blank ',' (isText ▸ List.mem_append_right _ List.mem_cons_self)
  exact absurd rfl (nesting_of_isBlank isComma).2

theorem IsPadded.isWhole {spelling written : String} (padded : IsPadded spelling written)
    (isArgument : IsArgument spelling) : IsWhole written.toList := by
  obtain ⟨before, after, blankBefore, blankAfter, isWritten⟩ := padded
  rw [isWritten]
  exact ((isWhole_of_isBlank blankBefore).append isArgument.isWhole).append
    (isWhole_of_isBlank blankAfter)

/-- Commas between whole pieces, and no others, separate. -/
theorem piecesFrom_intercalate {pieces : List (List Char)} (nonempty : pieces ≠ [])
    (whole : ∀ piece ∈ pieces, IsWhole piece) :
    piecesFrom 0 [] ([','].intercalate pieces) = pieces := by
  induction pieces with
  | nil => exact absurd rfl nonempty
  | cons piece rest inductionHypothesis =>
      rw [List.forall_mem_cons] at whole
      cases rest with
      | nil =>
          have isPiece := whole.1 [] []
          rw [List.append_nil, List.append_nil] at isPiece
          rw [List.intercalate_singleton, isPiece, piecesFrom, List.reverse_reverse]
      | cons second others =>
          have isRest := inductionHypothesis (List.cons_ne_nil _ _) whole.2
          rw [List.intercalate_cons_cons, List.append_assoc, whole.1, List.append_nil,
            List.singleton_append, piecesFrom, if_pos (by decide), isRest, List.reverse_reverse]

/-! ## Blanks -/

theorem IsPadded.normalize_eq {spelling written : String} (padded : IsPadded spelling written) :
    normalize written = normalize spelling := by
  obtain ⟨before, after, blankBefore, blankAfter, isWritten⟩ := padded
  have atStart : normalizeFrom none false ([] ++ (before ++ (spelling.toList ++ after))) = _ :=
    normalizeFrom_of_needless blankBefore rfl
  have atEnd : normalizeFrom none false (spelling.toList ++ (after ++ [])) = _ :=
    normalizeFrom_of_needless blankAfter (Bool.and_false _)
  rw [List.nil_append, List.nil_append] at atStart
  rw [List.append_nil, List.append_nil] at atEnd
  rw [normalize, normalize, isWritten, List.append_assoc, atStart, atEnd]

theorem IsArgument.normalize_ne {spelling : String} (isArgument : IsArgument spelling) :
    normalize spelling ≠ "" := by
  intro empty
  obtain ⟨character, listed, notBlank⟩ := isArgument.nonblank
  have sameMarks := (isNormalFormOf_normalize spelling).sameMarks
  rw [empty] at sameMarks
  have listedMark : character ∈ marks spelling.toList :=
    List.mem_filter.mpr ⟨listed, by simp [isMark, notBlank]⟩
  rw [← sameMarks] at listedMark
  cases listedMark

/-! ## Lists -/

theorem splitArguments_of_ne {list : String} {arguments : List String}
    (isSplit : (piecesFrom 0 [] list.toList).map (fun piece => normalize (String.ofList piece)) =
      arguments) (notBlank : arguments ≠ [""]) : splitArguments list = arguments := by
  rw [splitArguments, isSplit]
  split
  · exact absurd rfl notBlank
  · rfl

theorem map_normalize_eq {spellings pieces : List String}
    (padded : List.Forall₂ IsPadded spellings pieces) :
    pieces.map normalize = spellings.map normalize := by
  induction padded with
  | nil => rfl
  | cons first _ inductionHypothesis =>
      rw [List.map_cons, List.map_cons, first.normalize_eq, inductionHypothesis]

theorem isWhole_of_padded {spellings pieces : List String}
    (areArguments : ∀ spelling ∈ spellings, IsArgument spelling)
    (padded : List.Forall₂ IsPadded spellings pieces) :
    ∀ piece ∈ pieces, IsWhole piece.toList := by
  induction padded with
  | nil => nofun
  | cons first _ inductionHypothesis =>
      rw [List.forall_mem_cons] at areArguments ⊢
      exact ⟨first.isWhole areArguments.1, inductionHypothesis areArguments.2⟩

theorem splitArguments_of_lists {spellings : List String} {list : String}
    (nonempty : spellings ≠ []) (areArguments : ∀ spelling ∈ spellings, IsArgument spelling)
    (lists : Lists spellings list) : splitArguments list = spellings.map normalize := by
  obtain ⟨pieces, padded, rfl⟩ := lists
  have piecesNonempty : pieces.map String.toList ≠ [] := by
    rintro isNil
    rw [List.map_eq_nil_iff] at isNil
    rw [isNil] at padded
    exact nonempty (List.forall₂_nil_right_iff.mp padded)
  have arePieces : piecesFrom 0 [] (",".intercalate pieces).toList = pieces.map String.toList := by
    rw [String.toList_intercalate]
    exact piecesFrom_intercalate piecesNonempty
      (List.forall_mem_map.mpr (isWhole_of_padded areArguments padded))
  apply splitArguments_of_ne
  · rw [arePieces, List.map_map, ← map_normalize_eq padded]
    exact List.map_congr_left fun piece _ => congrArg normalize String.ofList_toList
  · intro isBlankOnly
    obtain ⟨spelling, rfl, isEmpty⟩ := List.map_eq_singleton_iff.mp isBlankOnly
    exact (areArguments spelling List.mem_cons_self).normalize_ne isEmpty

end Registrar.Spelling
