import Mathlib
import Registrar.Proofs.Identifier

/-!
Contract: the nearest identifier to a spelling, told by its runs.

Owns: that every spelling has runs of characters that can stand and of such that cannot, that one
underscore is written for each of the latter, and that this makes an identifier of any text.

Does not own: which spellings become identifiers.

Whether a character can stand depends on whether one was kept before it, and so on all runs before
its own. Within a run it does so for the first character only: after that of a kept run one was
kept, and in a run that is replaced nothing changes.
-/

set_option autoImplicit false

namespace Registrar.Identifier

/-! ## Runs -/

/-- A stretch of characters of which all are kept, or none. -/
structure Run where
  isKept : Bool
  first : Char
  others : List Char
  deriving DecidableEq

def Run.characters (run : Run) : List Char := run.first :: run.others

/-- What is written for the run. -/
def Run.written (run : Run) : List Char := if run.isKept then run.characters else ['_']

/-- The characters of the run can stand at their positions just if it is kept, where `keptAny` says
whether a character before the run was. -/
structure Run.Fits (keptAny : Bool) (run : Run) : Prop where
  first : canStand keptAny run.first = run.isKept
  others : ∀ character ∈ run.others, canStand (keptAny || run.isKept) character = run.isKept

instance (keptAny : Bool) (run : Run) : Decidable (run.Fits keptAny) :=
  decidable_of_iff
    (canStand keptAny run.first = run.isKept ∧
      (run.others.all fun character =>
        canStand (keptAny || run.isKept) character == run.isKept) = true)
    ⟨fun holds => ⟨holds.1, by simpa using holds.2⟩,
      fun fits => ⟨fits.first, by simpa using fits.others⟩⟩

/-- Each run fits, and keeps a character if it is kept. -/
def AllFit (keptAny : Bool) : List Run → Prop
  | [] => True
  | run :: rest => run.Fits keptAny ∧ AllFit (keptAny || run.isKept) rest

instance decidableAllFit : (keptAny : Bool) → (runs : List Run) → Decidable (AllFit keptAny runs)
  | _, [] => isTrue trivial
  | keptAny, run :: rest =>
      have := decidableAllFit (keptAny || run.isKept) rest
      inferInstanceAs (Decidable (run.Fits keptAny ∧ AllFit (keptAny || run.isKept) rest))

/-- The text is made of these runs, of which no two that are next to each other are alike. So each
is as long as can be. -/
structure AreRuns (keptAny : Bool) (text : List Char) (runs : List Run) : Prop where
  text_eq : text = runs.flatMap Run.characters
  alternate : runs.IsChain fun run next => run.isKept ≠ next.isKept
  fit : AllFit keptAny runs

instance (keptAny : Bool) (text : List Char) (runs : List Run) :
    Decidable (AreRuns keptAny text runs) :=
  decidable_of_iff
    (text = runs.flatMap Run.characters ∧
      (runs.IsChain fun run next => run.isKept ≠ next.isKept) ∧ AllFit keptAny runs)
    ⟨fun holds => ⟨holds.1, holds.2.1, holds.2.2⟩,
      fun areRuns => ⟨areRuns.text_eq, areRuns.alternate, areRuns.fit⟩⟩

/-- Every text has runs. -/
theorem exists_areRuns (keptAny : Bool) (text : List Char) : ∃ runs, AreRuns keptAny text runs := by
  induction text generalizing keptAny with
  | nil => exact ⟨[], rfl, .nil, trivial⟩
  | cons character rest inductionHypothesis =>
      let stands := canStand keptAny character
      have keptAfter : (keptAny || stands || stands) = (keptAny || stands) := by
        rw [Bool.or_assoc, Bool.or_self]
      obtain ⟨runs, rfl, alternate, fit⟩ := inductionHypothesis (keptAny || stands)
      cases runs with
      | nil => exact ⟨[⟨stands, character, []⟩], rfl, .singleton _, ⟨rfl, nofun⟩, trivial⟩
      | cons run later =>
          by_cases alike : run.isKept = stands
          · -- The character is the first of the run that comes next.
            refine ⟨⟨stands, character, run.characters⟩ :: later, rfl, ?_, ⟨rfl, ?_⟩, ?_⟩
            · rw [List.isChain_cons] at alternate ⊢
              exact ⟨fun next isNext => alike ▸ alternate.1 next isNext, alternate.2⟩
            · have others := fit.1.others
              rw [alike, keptAfter] at others
              exact List.forall_mem_cons.mpr ⟨fit.1.first.trans alike, others⟩
            · have laterFit := fit.2
              rwa [alike, keptAfter] at laterFit
          · refine ⟨⟨stands, character, []⟩ :: run :: later, rfl, ?_, ⟨rfl, nofun⟩, fit⟩
            exact .cons_cons (Ne.symm alike) alternate

/-! ## What is written -/

theorem sanitizeFrom_cons_of_stands {keptAny : Bool} {character : Char}
    (stands : canStand keptAny character = true) (runOpen : Bool) (rest : List Char) :
    sanitizeFrom keptAny runOpen (character :: rest) =
      (if runOpen then ['_'] else []) ++ character :: sanitizeFrom true false rest := by
  rw [sanitizeFrom, if_pos stands]
  cases runOpen <;> rfl

theorem sanitizeFrom_cons_of_cannot {keptAny : Bool} {character : Char}
    (cannot : canStand keptAny character = false) (runOpen : Bool) (rest : List Char) :
    sanitizeFrom keptAny runOpen (character :: rest) = sanitizeFrom keptAny true rest := by
  rw [sanitizeFrom, if_neg (by simp [cannot])]

theorem sanitizeFrom_append_of_continue {characters : List Char}
    (continues : ∀ character ∈ characters, canContinue character = true) (rest : List Char) :
    sanitizeFrom true false (characters ++ rest) = characters ++ sanitizeFrom true false rest := by
  induction characters with
  | nil => rfl
  | cons character characters inductionHypothesis =>
      rw [List.forall_mem_cons] at continues
      have stands : canStand true character = true := continues.1
      rw [List.cons_append, sanitizeFrom_cons_of_stands stands, inductionHypothesis continues.2]
      rfl

theorem sanitizeFrom_append_of_cannot {keptAny : Bool} {characters : List Char}
    (cannot : ∀ character ∈ characters, canStand keptAny character = false) (rest : List Char) :
    sanitizeFrom keptAny true (characters ++ rest) = sanitizeFrom keptAny true rest := by
  induction characters with
  | nil => rfl
  | cons character characters inductionHypothesis =>
      rw [List.forall_mem_cons] at cannot
      rw [List.cons_append, sanitizeFrom_cons_of_cannot cannot.1, inductionHypothesis cannot.2]

/-- A run that is kept is written as it is, after the underscore for an open run. -/
theorem Run.Fits.sanitizeFrom_of_kept {keptAny : Bool} {run : Run} (fits : run.Fits keptAny)
    (isKept : run.isKept = true) (runOpen : Bool) (rest : List Char) :
    sanitizeFrom keptAny runOpen (run.characters ++ rest) =
      (if runOpen then ['_'] else []) ++ run.characters ++ sanitizeFrom true false rest := by
  have continues := fits.others
  rw [isKept, Bool.or_true] at continues
  rw [Run.characters, List.cons_append, sanitizeFrom_cons_of_stands (fits.first.trans isKept),
    sanitizeFrom_append_of_continue continues, List.append_assoc, List.cons_append]

/-- A run that is replaced is open after it. -/
theorem Run.Fits.sanitizeFrom_of_replaced {keptAny : Bool} {run : Run} (fits : run.Fits keptAny)
    (isReplaced : run.isKept = false) (runOpen : Bool) (rest : List Char) :
    sanitizeFrom keptAny runOpen (run.characters ++ rest) = sanitizeFrom keptAny true rest := by
  have cannot := fits.others
  rw [isReplaced, Bool.or_false] at cannot
  rw [Run.characters, List.cons_append, sanitizeFrom_cons_of_cannot (fits.first.trans isReplaced),
    sanitizeFrom_append_of_cannot cannot]

/-- The runs are written one after the other. An open run ends before them, so the first of them
is kept. -/
theorem sanitizeFrom_of_runs {keptAny runOpen : Bool} {runs : List Run}
    (alternate : runs.IsChain fun run next => run.isKept ≠ next.isKept)
    (fit : AllFit keptAny runs)
    (endsOpen : runOpen = true → ∀ run ∈ runs.head?, run.isKept = true) :
    sanitizeFrom keptAny runOpen (runs.flatMap Run.characters) =
      (if runOpen then ['_'] else []) ++ runs.flatMap Run.written := by
  induction runs generalizing keptAny runOpen with
  | nil => exact (List.append_nil _).symm
  | cons run later inductionHypothesis =>
      obtain ⟨fits, laterFit⟩ := fit
      rw [List.isChain_cons] at alternate
      rw [List.flatMap_cons, List.flatMap_cons, Run.written]
      cases isKept : run.isKept with
      | true =>
          rw [isKept, Bool.or_true] at laterFit
          have isLater : sanitizeFrom true false _ = _ :=
            inductionHypothesis alternate.2 laterFit nofun
          rw [fits.sanitizeFrom_of_kept isKept, isLater, List.append_assoc]
          rfl
      | false =>
          rw [isKept, Bool.or_false] at laterFit
          have wasClosed : runOpen = false := by
            rw [← Bool.not_eq_true]
            intro isOpen
            have firstKept := endsOpen isOpen run rfl
            rw [isKept] at firstKept
            cases firstKept
          have isLater : sanitizeFrom keptAny true _ = _ :=
            inductionHypothesis alternate.2 laterFit
              fun _ next isNext => by simpa [isKept] using alternate.1 next isNext
          rw [fits.sanitizeFrom_of_replaced isKept, isLater, wasClosed]
          rfl

/-! ## Identifiers -/

/-- What is written opens with a character that can. -/
theorem exists_sanitizeFrom_eq_cons (runOpen : Bool) {text : List Char}
    (nonempty : runOpen = true ∨ text ≠ []) :
    ∃ first rest, sanitizeFrom false runOpen text = first :: rest ∧ canStart first = true := by
  have underscore : canStart '_' = true := by decide
  induction text generalizing runOpen with
  | nil =>
      rw [or_iff_left (absurd rfl)] at nonempty
      exact ⟨'_', [], by rw [sanitizeFrom, if_pos nonempty], underscore⟩
  | cons character rest inductionHypothesis =>
      cases stands : canStand false character with
      | true =>
          rw [sanitizeFrom_cons_of_stands stands]
          cases runOpen with
          | true => exact ⟨'_', _, rfl, underscore⟩
          | false => exact ⟨character, _, rfl, stands⟩
      | false =>
          rw [sanitizeFrom_cons_of_cannot stands]
          exact inductionHypothesis true (.inl rfl)

theorem isValid_sanitize {spelling : String} (nonempty : spelling ≠ "") :
    isValid (sanitize spelling) = true := by
  rw [ne_eq, ← String.toList_eq_nil_iff] at nonempty
  obtain ⟨first, rest, isWritten, starts⟩ := exists_sanitizeFrom_eq_cons false (.inr nonempty)
  rw [isValid, sanitize, String.toList_ofList, isWritten, isValidChars, starts, Bool.true_and,
    List.all_eq_true]
  intro character member
  have isOther : character ∈ sanitizeFrom false false spelling.toList := by
    rw [isWritten]
    exact List.mem_cons_of_mem first member
  exact canContinue_of_mem_sanitizeFrom isOther

theorem sanitize_of_isValid {spelling : String} (valid : isValid spelling = true) :
    sanitize spelling = spelling := by
  rw [isValid] at valid
  apply String.toList_inj.mp
  rw [sanitize, String.toList_ofList]
  cases characters : spelling.toList with
  | nil => simp [characters, isValidChars] at valid
  | cons first rest =>
      rw [characters, isValidChars, Bool.and_eq_true, List.all_eq_true] at valid
      have starts : canStand false first = true := valid.1
      have continues := sanitizeFrom_append_of_continue valid.2 []
      rw [List.append_nil] at continues
      rw [sanitizeFrom_cons_of_stands starts, continues]
      simp [sanitizeFrom]

/-- The spelling becomes an identifier and stays one, and is unchanged just if it is one. Of its
runs those that are kept are written, and one underscore for each other. -/
structure SanitizesExactly (spelling : String) : Prop where
  valid : isValid (sanitize spelling) = true
  unchanged_iff : sanitize spelling = spelling ↔ isValid spelling = true
  idempotent : sanitize (sanitize spelling) = sanitize spelling
  hasRuns : ∃ runs, AreRuns false spelling.toList runs
  ofRuns : ∀ {runs}, AreRuns false spelling.toList runs →
    sanitize spelling = String.ofList (runs.flatMap Run.written)

theorem sanitize_sanitizesExactly {spelling : String} (nonempty : spelling ≠ "") :
    SanitizesExactly spelling := by
  have valid := isValid_sanitize nonempty
  refine ⟨valid, ⟨fun unchanged => ?_, sanitize_of_isValid⟩, sanitize_of_isValid valid,
    exists_areRuns false _, fun areRuns => ?_⟩
  · rwa [unchanged] at valid
  · have isWritten : sanitizeFrom false false _ = _ :=
      sanitizeFrom_of_runs areRuns.alternate areRuns.fit nofun
    rw [sanitize, areRuns.text_eq, isWritten]
    rfl

/-- The runs of a spelling with digits before and after the first character that is kept. -/
def tupleRuns : List Run :=
  [⟨false, '1', ['2', '<']⟩, ⟨true, 'a', ['3']⟩, ⟨false, ',', [' ']⟩, ⟨true, '4', []⟩,
    ⟨false, '>', []⟩]

theorem tuple_sanitizesExactly :
    "12<a3, 4>" ≠ "" ∧ isValid (sanitize "12<a3, 4>") = true ∧
      AreRuns false "12<a3, 4>".toList tupleRuns ∧
      sanitize "12<a3, 4>" = String.ofList ['_', 'a', '3', '_', '4', '_'] := by
  have nonempty : "12<a3, 4>" ≠ "" := by decide
  have sanitizes := sanitize_sanitizesExactly nonempty
  have areRuns : AreRuns false "12<a3, 4>".toList tupleRuns := by decide +kernel
  exact ⟨nonempty, sanitizes.valid, areRuns, sanitizes.ofRuns areRuns⟩

end Registrar.Identifier
