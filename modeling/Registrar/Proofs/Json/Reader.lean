import Mathlib
import Registrar.Json.Reader
import Registrar.Proofs.Json.Printer
import Registrar.Proofs.Json.WellFormed

/-!
Contract: which values are read from the text that is printed for them.

Owns: that strings, integers, lists and objects are read back, whatever follows them in a text, and
with them every value whose numbers are.

Does not own: which decimals are read back, which is a question of how doubles are rounded.
-/

set_option autoImplicit false

namespace Registrar.Json

/-! ## Strings -/

theorem hexDigit?_digitChar {digit : Nat} (small : digit < 16) :
    hexDigit? digit.digitChar = some digit := by
  have all : ∀ digit < 16, hexDigit? (Nat.digitChar digit) = some digit := by decide
  exact all digit small

/-- An escape of four digits stands for the control character it was made for. -/
theorem readParts_unitEscape {character : Char} (isControl : character < ' ')
    (read : List StringPart) (rest : List Char) :
    readParts read (['\\', 'u', '0', '0', Nat.digitChar (character.toNat / 16),
        Nat.digitChar (character.toNat % 16)] ++ rest) =
      readParts (.character character :: read) rest := by
  have small : character.toNat < 32 := isControl
  have isUnit : ((0 * 16 + 0) * 16 + character.toNat / 16) * 16 + character.toNat % 16 =
      character.toNat := by
    omega
  have isPart : partOfUnit character.toNat = .character character := by
    rw [partOfUnit, if_neg (by omega), Char.ofNat_toNat]
  have isZero : hexDigit? '0' = some 0 := by decide
  simp only [List.cons_append, List.nil_append, readParts, isZero, Option.bind_eq_bind,
    Option.bind_some, hexDigit?_digitChar (show character.toNat / 16 < 16 by omega),
    hexDigit?_digitChar (Nat.mod_lt character.toNat (by decide)), isUnit, isPart]

/-- An escape of one letter stands for the character it was made for. -/
theorem readParts_simpleEscape {character meant escape : Char}
    (isMeant : (character == meant) = true) (notUnit : escape ≠ 'u')
    (isEscape : simpleEscape? escape = some meant) (read : List StringPart) (rest : List Char) :
    readParts read (['\\', escape] ++ rest) = readParts (.character character :: read) rest := by
  rw [beq_iff_eq.mp isMeant, List.cons_append, List.cons_append, List.nil_append, readParts,
    isEscape]
  · rfl
  · intro _ _ _ _ _ isUnit _
    exact notUnit isUnit

theorem readParts_controlEscape {character : Char} (isControl : character < ' ')
    (read : List StringPart) (rest : List Char) :
    readParts read (controlEscape character ++ rest) =
      readParts (.character character :: read) rest := by
  unfold controlEscape
  split_ifs with isBackspace isTab isNewline isFormFeed isReturn
  · exact readParts_simpleEscape isBackspace (by decide) rfl read rest
  · exact readParts_simpleEscape isTab (by decide) rfl read rest
  · exact readParts_simpleEscape isNewline (by decide) rfl read rest
  · exact readParts_simpleEscape isFormFeed (by decide) rfl read rest
  · exact readParts_simpleEscape isReturn (by decide) rfl read rest
  · exact readParts_unitEscape isControl read rest

theorem readParts_escapeCharacter (character : Char) (read : List StringPart) (rest : List Char) :
    readParts read (escapeCharacter character ++ rest) =
      readParts (.character character :: read) rest := by
  unfold escapeCharacter
  split_ifs with isQuote isBackslash isControl
  · exact readParts_simpleEscape isQuote (by decide) rfl read rest
  · exact readParts_simpleEscape isBackslash (by decide) rfl read rest
  · exact readParts_controlEscape isControl read rest
  · rw [beq_iff_eq] at isQuote isBackslash
    rw [List.singleton_append, readParts]
    · simp [isControl, isBackslash]
    · exact isQuote
    · intro _ _ _ _ _ isEscape _
      exact isBackslash isEscape
    · intro _ _ isEscape _
      exact isBackslash isEscape

theorem readParts_flatMap (text : List Char) (read : List StringPart) (rest : List Char) :
    readParts read (text.flatMap escapeCharacter ++ '"' :: rest) =
      some (read.reverse ++ text.map .character, rest) := by
  induction text generalizing read with
  | nil => simp [readParts]
  | cons character text inductionHypothesis =>
      rw [List.flatMap_cons, List.append_assoc, readParts_escapeCharacter, inductionHypothesis]
      simp

theorem joinParts_map (text : List Char) : joinParts (text.map .character) = some text := by
  induction text with
  | nil => rfl
  | cons character text inductionHypothesis =>
      rw [List.map_cons, joinParts, inductionHypothesis]
      rfl

theorem readString_stringCharacters (text : String) (rest : List Char) :
    readString (text.toList.flatMap escapeCharacter ++ '"' :: rest) = some (some text, rest) := by
  rw [readString, readParts_flatMap]
  simp [joinParts_map]

/-! ## Numbers -/

/-- What follows does not go on a number. -/
def EndsNumber (rest : List Char) : Prop :=
  ∀ first ∈ rest.head?, first.isDigit = false ∧ first ≠ '.' ∧ first ≠ 'e' ∧ first ≠ 'E'

theorem endsNumber_cons {mark : Char}
    (isMark : mark.isDigit = false ∧ mark ≠ '.' ∧ mark ≠ 'e' ∧ mark ≠ 'E') (rest : List Char) :
    EndsNumber (mark :: rest) := by
  intro first isFirst
  cases isFirst
  exact isMark

/-- The number is read from its text, whatever follows that does not go on with it. -/
def Number.ReadsBack (value : Number) : Prop :=
  ∀ rest, EndsNumber rest → readNumber (value.text.toList ++ rest) = some (.number value, rest)

theorem readFraction_of_endsNumber {rest : List Char} (ends : EndsNumber rest) :
    readFraction rest = some ([], rest) := by
  cases rest with
  | nil => rfl
  | cons first rest =>
      rw [readFraction]
      intro _ isPoint
      exact (ends first rfl).2.1 (List.cons.inj isPoint).1

theorem readExponent_of_endsNumber {rest : List Char} (ends : EndsNumber rest) :
    readExponent rest = some (none, rest) := by
  cases rest with
  | nil => rfl
  | cons first rest =>
      have notMark := (ends first rfl).2.2
      simp [readExponent, notMark]

theorem le_ofDigitChars (digits : List Char) (significand : Nat) :
    significand ≤ Nat.ofDigitChars 10 digits significand := by
  induction digits generalizing significand with
  | nil => exact Nat.le_refl _
  | cons digit rest inductionHypothesis =>
      rw [Nat.ofDigitChars_cons]
      have grows := inductionHypothesis (10 * significand + (digit.toNat - '0'.toNat))
      omega

/-- Digits are accumulated as long as their value fits 64 bits. -/
theorem accumulate_eq {digits : List Char} {significand : Nat}
    (fits : Nat.ofDigitChars 10 digits significand ≤ largestNatural) :
    accumulate significand digits = (Nat.ofDigitChars 10 digits significand, 0) := by
  induction digits generalizing significand with
  | nil => rfl
  | cons digit rest inductionHypothesis =>
      have isNext : significand * 10 + digitValue digit =
          10 * significand + (digit.toNat - '0'.toNat) := by
        rw [Nat.mul_comm]
        rfl
      rw [Nat.ofDigitChars_cons] at fits ⊢
      rw [accumulate, isNext, if_pos (Nat.le_trans (le_ofDigitChars rest _) fits)]
      exact inductionHypothesis fits

theorem head?_toDigits_ne {value : Nat} (positive : 0 < value) :
    (Nat.toDigits 10 value).head? ≠ some '0' := by
  induction value using Nat.strongRecOn with
  | ind value inductionHypothesis =>
      by_cases isDigit : value < 10
      · have all : ∀ digit < 10, 0 < digit → Nat.digitChar digit ≠ '0' := by decide
        rw [Nat.toDigits_of_lt_base isDigit, List.head?_cons, Ne, Option.some.injEq]
        exact all value isDigit positive
      · have inner := inductionHypothesis (value / 10) (by omega) (by omega)
        rw [Nat.toDigits_of_base_le (by decide) (by omega),
          List.head?_append_of_ne_nil _ Nat.toDigits_ne_nil]
        exact inner

/-- Only zero starts with a zero. -/
theorem toDigits_startsWell (value : Nat) :
    ((Nat.toDigits 10 value).head? == some '0' &&
      1 < (Nat.toDigits 10 value).length) = false := by
  by_cases positive : 0 < value
  · simp [head?_toDigits_ne positive]
  · have isZero : value = 0 := by omega
    rw [isZero]
    decide

theorem readNumeral_toDigits (negative : Bool) (value : Nat) {rest : List Char}
    (ends : EndsNumber rest) :
    readNumeral negative (Nat.toDigits 10 value ++ rest) =
      some (⟨negative, Nat.toDigits 10 value, [], none⟩, rest) := by
  have areDigits : ∀ character ∈ Nat.toDigits 10 value, character.isDigit = true :=
    fun character listed => Nat.isDigit_of_mem_toDigits (by decide) (by decide) listed
  have isWhole : (Nat.toDigits 10 value ++ rest).takeWhile Char.isDigit =
      Nat.toDigits 10 value := by
    rw [List.takeWhile_append_of_pos areDigits]
    cases rest with
    | nil => simp
    | cons first _ => simp [(ends first rfl).1]
  have isRest : (Nat.toDigits 10 value ++ rest).dropWhile Char.isDigit = rest := by
    rw [List.dropWhile_append_of_pos areDigits]
    cases rest with
    | nil => rfl
    | cons first _ => simp [(ends first rfl).1]
  have startsWell := toDigits_startsWell value
  have nonempty : (Nat.toDigits 10 value).isEmpty = false :=
    List.isEmpty_eq_false_iff.mpr Nat.toDigits_ne_nil
  unfold readNumeral
  dsimp only
  rw [isWhole, isRest, nonempty, startsWell, readFraction_of_endsNumber ends]
  simp [readExponent_of_endsNumber ends]

theorem accumulate_toDigits {value : Nat} (fits : value ≤ largestNatural) :
    accumulate 0 (Nat.toDigits 10 value) = (value, 0) := by
  have isValue : Nat.ofDigitChars 10 (Nat.toDigits 10 value) 0 = value :=
    Nat.ofDigitChars_ten_toDigits
  rw [accumulate_eq (by rw [isValue]; exact fits), isValue]

namespace Number

theorem readsBack_natural {value : Nat} (fits : value < 1 <<< 64) : (natural value).ReadsBack := by
  have isNumber : (Numeral.mk false (Nat.toDigits 10 value) [] none).number? =
      some (.natural value) := by
    have isWhole := accumulate_toDigits (Nat.le_sub_one_of_lt fits)
    simp [Numeral.number?, isWhole]
  intro rest ends
  have isNumeral := readNumeral_toDigits false value ends
  have notMinus (tail : List Char) : Nat.toDigits 10 value ++ rest ≠ '-' :: tail := by
    cases isDigits : Nat.toDigits 10 value with
    | nil => exact absurd isDigits Nat.toDigits_ne_nil
    | cons first others =>
        have isDigit : first.isDigit = true :=
          Nat.isDigit_of_mem_toDigits (by decide) (by decide) (isDigits ▸ List.mem_cons_self)
        intro isMinus
        rw [(List.cons.inj isMinus).1] at isDigit
        cases isDigit
  change readNumber (value.repr.toList ++ rest) = _
  rw [Nat.toList_repr]
  unfold readNumber
  split
  · rename_i tail isMinus
    exact absurd isMinus (notMinus tail)
  · rw [isNumeral]
    simp [isNumber]

theorem readsBack_negative {magnitude : Nat} (positive : 0 < magnitude)
    (fits : magnitude ≤ 1 <<< 63) : (negative magnitude).ReadsBack := by
  have isNumber : (Numeral.mk true (Nat.toDigits 10 magnitude) [] none).number? =
      some (.negative magnitude) := by
    have isWhole : accumulate 0 (Nat.toDigits 10 magnitude) = (magnitude, 0) :=
      accumulate_toDigits (Nat.le_trans fits (by decide))
    rw [Numeral.number?]
    simp only [isWhole, accumulate, fits]
    simp [positive.ne']
  intro rest ends
  have isText : (negative magnitude).text.toList = '-' :: Nat.toDigits 10 magnitude := by
    simp [text]
  rw [isText, List.cons_append, readNumber, readNumeral_toDigits true magnitude ends]
  simp [isNumber]

def isInteger : Number → Bool
  | decimal _ => false
  | _ => true

theorem readsBack_of_isInteger {value : Number} (wellFormed : value.isWellFormed = true)
    (isInteger : value.isInteger = true) : value.ReadsBack := by
  cases value with
  | natural value => exact readsBack_natural (of_decide_eq_true wellFormed)
  | negative magnitude =>
      rw [isWellFormed, Bool.and_eq_true, decide_eq_true_iff, decide_eq_true_iff] at wellFormed
      exact readsBack_negative wellFormed.1 wellFormed.2
  | decimal value => cases isInteger

end Number

/-! ## Values -/

mutual

/-- The numbers in a value, in order. -/
def numbers : Json → List Number
  | number value => [value]
  | array items => itemsNumbers items
  | object fields => fieldsNumbers fields
  | _ => []

def itemsNumbers : List Json → List Number
  | [] => []
  | item :: rest => numbers item ++ itemsNumbers rest

def fieldsNumbers : List (String × Json) → List Number
  | [] => []
  | (_, value) :: rest => numbers value ++ fieldsNumbers rest

end

/-! ### Blanks -/

theorem blank_newLine (level : Nat) :
    ∀ character ∈ newLineCharacters level, isSeparatorBlank character = true := by
  intro character listed
  rw [newLineCharacters, List.mem_cons] at listed
  cases listed with
  | inl isNewLine =>
      rw [isNewLine]
      rfl
  | inr isBlank =>
      rw [List.eq_of_mem_replicate isBlank]
      rfl

theorem skipBlanks_cons {first : Char} (notBlank : isSeparatorBlank first = false)
    (rest : List Char) : skipBlanks (first :: rest) = first :: rest := by
  rw [skipBlanks, List.dropWhile_cons_of_neg (by simp [notBlank])]

section Blanks

variable {blanks : List Char}
  (blank : ∀ character ∈ blanks, isSeparatorBlank character = true) (budget : Nat)
  (rest : List Char)

include blank

theorem skipBlanks_append : skipBlanks (blanks ++ rest) = skipBlanks rest :=
  List.dropWhile_append_of_pos blank

theorem readValue_append : readValue budget (blanks ++ rest) = readValue budget rest := by
  cases budget with
  | zero => rfl
  | succ budget => rw [readValue, readValue, skipBlanks_append blank]

theorem readItems_append : readItems budget (blanks ++ rest) = readItems budget rest := by
  cases budget with
  | zero => rfl
  | succ budget => rw [readItems, readItems, readValue_append blank]

theorem readFields_append : readFields budget (blanks ++ rest) = readFields budget rest := by
  cases budget with
  | zero => rfl
  | succ budget => rw [readFields, readFields, skipBlanks_append blank]

end Blanks

/-! ### Starts -/

/-- The character is a sign or a digit. -/
abbrev StartsNumber (first : Char) : Prop := first = '-' ∨ first.isDigit = true

namespace StartsNumber

variable {first : Char}

theorem ne {mark : Char} (starts : StartsNumber first) (notStart : ¬ StartsNumber mark) :
    first ≠ mark := by
  intro same
  rw [same] at starts
  exact notStart starts

theorem notBlank (starts : StartsNumber first) : isSeparatorBlank first = false := by
  have notSpace : first ≠ ' ' := starts.ne (by decide)
  have notNewLine : first ≠ '\n' := starts.ne (by decide)
  have notTab : first ≠ '\t' := starts.ne (by decide)
  have notReturn : first ≠ '\r' := starts.ne (by decide)
  simp [isSeparatorBlank, notSpace, notNewLine, notTab, notReturn]

/-- None of the marks that other values start with starts a number. -/
theorem readValue_eq (starts : StartsNumber first) (budget : Nat) (tail : List Char) :
    readValue (budget + 1) (first :: tail) = readNumber (first :: tail) := by
  rw [readValue, skipBlanks_cons starts.notBlank]
  split
  case h_7 => rfl
  all_goals
    rename_i same
    exact absurd (List.cons.inj same).1 (starts.ne (by decide))

end StartsNumber

theorem Number.ReadsBack.exists_start {value : Number} (readsBack : value.ReadsBack) :
    ∃ first tail, value.text.toList = first :: tail ∧ StartsNumber first := by
  have isNumber := readsBack [] nofun
  rw [List.append_nil] at isNumber
  cases isText : value.text.toList with
  | nil => simp [isText, readNumber, readNumeral] at isNumber
  | cons first tail =>
      refine ⟨first, tail, rfl, ?_⟩
      by_contra notStart
      rw [not_or, Bool.not_eq_true] at notStart
      rw [isText] at isNumber
      unfold readNumber at isNumber
      split at isNumber
      · rename_i isMinus
        exact notStart.1 (List.cons.inj isMinus).1
      · simp [readNumeral, notStart.2] at isNumber

/-- The characters are the value, whatever follows that does not go on with them. Two steps of the
budget are enough for a character. -/
structure ReadsAs (characters : List Char) (value : Json) : Prop where
  starts : ∃ first tail, characters = first :: tail ∧ isSeparatorBlank first = false ∧ first ≠ ']'
  reads : ∀ budget rest, 2 * characters.length ≤ budget + 1 → EndsNumber rest →
    readValue (budget + 1) (characters ++ rest) = some (value, rest)

theorem ReadsAs.length_pos {characters : List Char} {value : Json}
    (reads : ReadsAs characters value) : 0 < characters.length := by
  obtain ⟨first, tail, isSplit, _⟩ := reads.starts
  rw [isSplit]
  exact Nat.succ_pos _

theorem ReadsAs.number {value : Number} (readsBack : value.ReadsBack) :
    ReadsAs value.text.toList (.number value) := by
  obtain ⟨first, tail, isText, starts⟩ := readsBack.exists_start
  constructor
  · exact ⟨first, tail, isText, starts.notBlank, starts.ne (by decide)⟩
  · intro budget rest _ ends
    rw [isText, List.cons_append, starts.readValue_eq, ← List.cons_append, ← isText]
    exact readsBack rest ends

theorem ReadsAs.string (text : String) : ReadsAs (stringCharacters text) (.string text) := by
  constructor
  · exact ⟨'"', _, rfl, by decide, by decide⟩
  · intro budget rest _ _
    rw [stringCharacters, List.append_assoc, List.singleton_append, List.cons_append]
    show (readString (text.toList.flatMap escapeCharacter ++ '"' :: rest)).bind
      (fun read => some ((read.1.map Json.string).getD unreadable, read.2)) = _
    rw [readString_stringCharacters]
    rfl

/-! ### Series -/

theorem exists_intercalate (separator first : List Char) (more : List (List Char)) :
    ∃ rest, separator.intercalate (first :: more) = first ++ rest := by
  cases more with
  | nil => exact ⟨[], by simp⟩
  | cons second others => exact ⟨_, by rw [List.intercalate_cons_cons, List.append_assoc]⟩

/-- Reading the parts of a list or an object up to its end, where it is known which characters are
a part. -/
structure ReadsSeries {α : Type} (read : Nat → List Char → Option (List α × List Char))
    (closing : Char) (IsPart : List Char → α → Prop) : Prop where
  starts : ∀ {part value}, IsPart part value →
    ∃ first tail, part = first :: tail ∧ isSeparatorBlank first = false ∧ first ≠ closing
  blanks : ∀ {blanks}, (∀ character ∈ blanks, isSeparatorBlank character = true) →
    ∀ budget rest, read budget (blanks ++ rest) = read budget rest
  last : ∀ {part value}, IsPart part value → ∀ {budget}, 2 * part.length ≤ budget →
    ∀ level rest, read (budget + 1) (part ++ (newLineCharacters level ++ closing :: rest)) =
      some ([value], rest)
  cons : ∀ {part value}, IsPart part value → ∀ {budget}, 2 * part.length ≤ budget →
    ∀ {others values rest}, read budget others = some (values, rest) → ∀ level,
      read (budget + 1) (part ++ (',' :: (newLineCharacters level ++ others))) =
        some (value :: values, rest)

namespace ReadsSeries

variable {α : Type} {read : Nat → List Char → Option (List α × List Char)} {closing : Char}
  {IsPart : List Char → α → Prop}

theorem intercalate (series : ReadsSeries read closing IsPart) (level outer : Nat)
    {parts : List (List Char)} {values : List α} (areParts : List.Forall₂ IsPart parts values)
    (nonempty : parts ≠ []) {budget : Nat}
    (enough : 2 * ((',' :: newLineCharacters level).intercalate parts).length < budget)
    (rest : List Char) :
    read budget ((',' :: newLineCharacters level).intercalate parts ++
      (newLineCharacters outer ++ closing :: rest)) = some (values, rest) := by
  induction areParts generalizing budget with
  | nil => exact absurd rfl nonempty
  | @cons part value parts values first more inductionHypothesis =>
      obtain ⟨budget, rfl⟩ : ∃ less, budget = less + 1 := ⟨budget - 1, by omega⟩
      cases more with
      | nil =>
          rw [List.intercalate_singleton] at enough ⊢
          exact series.last first (by omega) outer rest
      | cons second others =>
          rw [List.intercalate_cons_cons, List.length_append, List.length_append,
            List.length_cons] at enough
          rw [List.intercalate_cons_cons, List.append_assoc, List.append_assoc]
          apply series.cons first (by omega)
          exact inductionHypothesis (List.cons_ne_nil _ _) (by omega)

/-- What stands between the brackets around a series. -/
def inside (level : Nat) (closing : Char) (parts : List (List Char)) (rest : List Char) :
    List Char :=
  newLineCharacters (level + 1) ++ ((',' :: newLineCharacters (level + 1)).intercalate parts ++
    (newLineCharacters level ++ closing :: rest))

theorem blockCharacters_append {parts : List (List Char)} (nonempty : parts ≠ []) (level : Nat)
    (opening closing : Char) (rest : List Char) :
    blockCharacters level opening closing parts ++ rest =
      opening :: inside level closing parts rest := by
  cases parts with
  | nil => exact absurd rfl nonempty
  | cons part parts => simp [blockCharacters, inside]

/-- The parts of a block are read, and they do not start with its end. -/
theorem read_inside (series : ReadsSeries read closing IsPart) (level : Nat) (opening : Char)
    {parts : List (List Char)} {values : List α} (areParts : List.Forall₂ IsPart parts values)
    (nonempty : parts ≠ []) {budget : Nat}
    (enough : 2 * (blockCharacters level opening closing parts).length ≤ budget + 1)
    (rest : List Char) :
    read budget (inside level closing parts rest) = some (values, rest) ∧
      ∀ tail, skipBlanks (inside level closing parts rest) ≠ closing :: tail := by
  have isBlock := congrArg List.length (blockCharacters_append nonempty level opening closing [])
  simp only [inside, List.append_nil, List.length_append, List.length_cons] at isBlock
  constructor
  · rw [inside, series.blanks (blank_newLine _)]
    exact series.intercalate (level + 1) level areParts nonempty (by omega) rest
  · intro tail
    cases areParts with
    | nil => exact absurd rfl nonempty
    | @cons part _ parts _ first _ =>
        obtain ⟨start, behind, rfl, notBlank, notEnd⟩ := series.starts first
        obtain ⟨others, isInside⟩ :=
          exists_intercalate (',' :: newLineCharacters (level + 1)) (start :: behind) parts
        rw [inside, skipBlanks_append (blank_newLine _), isInside, List.cons_append,
          List.cons_append, skipBlanks_cons notBlank]
        intro isEnd
        exact notEnd (List.cons.inj isEnd).1

end ReadsSeries

/-! ### Lists -/

theorem readsSeries_items : ReadsSeries readItems ']' ReadsAs where
  starts isItem := isItem.starts
  blanks blank budget rest := readItems_append blank budget rest
  last := by
    intro part item isItem budget enough level rest
    have positive := isItem.length_pos
    obtain ⟨budget, rfl⟩ : ∃ less, budget = less + 1 := ⟨budget - 1, by omega⟩
    have ends : EndsNumber (newLineCharacters level ++ ']' :: rest) :=
      endsNumber_cons (by decide) _
    rw [readItems, isItem.reads budget _ enough ends, Option.bind_eq_bind, Option.bind_some]
    dsimp only
    rw [skipBlanks_append (blank_newLine level), skipBlanks_cons (by decide)]
    rfl
  cons := by
    intro part item isItem budget enough others items rest areItems level
    have positive := isItem.length_pos
    obtain ⟨budget, rfl⟩ : ∃ less, budget = less + 1 := ⟨budget - 1, by omega⟩
    rw [readItems, isItem.reads budget _ enough (endsNumber_cons (by decide) _),
      Option.bind_eq_bind, Option.bind_some]
    dsimp only
    rw [skipBlanks_cons (by decide)]
    show (readItems (budget + 1) (newLineCharacters level ++ others)).bind
      (fun read => some (item :: read.1, read.2)) = _
    rw [readItems_append (blank_newLine level), areItems]
    rfl

theorem readValue_of_readItems {budget : Nat} {inside rest : List Char} {items : List Json}
    (areItems : readItems budget inside = some (items, rest))
    (notEnd : ∀ tail, skipBlanks inside ≠ ']' :: tail) :
    readValue (budget + 1) ('[' :: inside) = some (array items, rest) := by
  rw [readValue, skipBlanks_cons (by decide)]
  split
  case h_2 isOpening =>
    obtain ⟨_, rfl⟩ := List.cons.inj isOpening
    split
    · rename_i isEnd
      exact absurd isEnd (notEnd _)
    · rw [areItems]
      rfl
  case h_7 notOpening _ _ _ _ => exact absurd rfl (notOpening _)
  all_goals
    rename_i other
    exact absurd (List.cons.inj other).1 (by decide)

theorem ReadsAs.array (level : Nat) {parts : List (List Char)} {items : List Json}
    (areItems : List.Forall₂ ReadsAs parts items) :
    ReadsAs (blockCharacters level '[' ']' parts) (.array items) := by
  by_cases nonempty : parts = []
  · subst nonempty
    cases areItems
    exact ⟨⟨'[', _, rfl, by decide, by decide⟩, fun _ _ _ _ => rfl⟩
  · have isBlock := ReadsSeries.blockCharacters_append nonempty level '[' ']'
    constructor
    · have isStart := isBlock []
      rw [List.append_nil] at isStart
      exact ⟨_, _, isStart, by decide, by decide⟩
    · intro budget rest enough _
      have isRead := readsSeries_items.read_inside level '[' areItems nonempty enough rest
      rw [isBlock]
      exact readValue_of_readItems isRead.1 isRead.2

/-! ### Objects -/

/-- A key with the value behind it. -/
inductive ReadsField : List Char → Option String × Json → Prop where
  | field (key : String) {characters : List Char} {value : Json}
      (reads : ReadsAs characters value) :
      ReadsField (stringCharacters key ++ [':', ' '] ++ characters) (some key, value)

theorem readFields_key (budget : Nat) (key : String) (characters rest : List Char) :
    readFields (budget + 1) (stringCharacters key ++ [':', ' '] ++ characters ++ rest) =
      (readValue budget (characters ++ rest)).bind fun read =>
        match skipBlanks read.2 with
        | ',' :: rest =>
            (readFields budget rest).bind fun others =>
              some ((some key, read.1) :: others.1, others.2)
        | '\x7d' :: rest => some ([(some key, read.1)], rest)
        | _ => none := by
  have isText : stringCharacters key ++ [':', ' '] ++ characters ++ rest =
      '"' :: (key.toList.flatMap escapeCharacter ++ '"' :: ':' :: ' ' :: (characters ++ rest)) := by
    simp [stringCharacters]
  have blank : ∀ character ∈ [' '], isSeparatorBlank character = true :=
    List.forall_mem_singleton.mpr rfl
  rw [isText, readFields, skipBlanks_cons (by decide), ← readValue_append blank]
  show (readString _).bind _ = _
  rw [readString_stringCharacters, Option.bind_some]
  dsimp only
  rw [skipBlanks_cons (by decide)]
  rfl

theorem readsSeries_fields : ReadsSeries readFields '\x7d' ReadsField where
  starts := by
    rintro _ _ ⟨key, _⟩
    exact ⟨'"', _, rfl, by decide, by decide⟩
  blanks blank budget rest := readFields_append blank budget rest
  last := by
    rintro _ _ ⟨key, reads⟩ budget enough level rest
    simp only [stringCharacters, List.length_append, List.length_cons] at enough
    obtain ⟨budget, rfl⟩ : ∃ less, budget = less + 1 := ⟨budget - 1, by omega⟩
    have ends : EndsNumber (newLineCharacters level ++ '\x7d' :: rest) :=
      endsNumber_cons (by decide) _
    rw [readFields_key, reads.reads budget _ (by omega) ends, Option.bind_some]
    dsimp only
    rw [skipBlanks_append (blank_newLine level), skipBlanks_cons (by decide)]
    rfl
  cons := by
    rintro _ _ ⟨key, reads⟩ budget enough others fields rest areFields level
    simp only [stringCharacters, List.length_append, List.length_cons] at enough
    obtain ⟨budget, rfl⟩ : ∃ less, budget = less + 1 := ⟨budget - 1, by omega⟩
    rw [readFields_key, reads.reads budget _ (by omega) (endsNumber_cons (by decide) _),
      Option.bind_some]
    dsimp only
    rw [skipBlanks_cons (by decide)]
    show (readFields (budget + 1) (newLineCharacters level ++ others)).bind
      (fun read => some ((some key, _) :: read.1, read.2)) = _
    rw [readFields_append (blank_newLine level), areFields]
    rfl

theorem objectOf_map (fields : List (String × Json)) :
    objectOf (fields.map fun entry => (some entry.1, entry.2)) = object fields := by
  have isRead : (fields.map fun entry => (some entry.1, entry.2)).mapM
      (fun entry => entry.1.map fun key => (key, entry.2)) = some fields := by
    induction fields with
    | nil => rfl
    | cons entry rest inductionHypothesis => simp [inductionHypothesis]
  rw [objectOf, isRead]

theorem readValue_of_readFields {budget : Nat} {inside rest : List Char}
    {fields : List (Option String × Json)}
    (areFields : readFields budget inside = some (fields, rest))
    (notEnd : ∀ tail, skipBlanks inside ≠ '\x7d' :: tail) :
    readValue (budget + 1) ('\x7b' :: inside) = some (objectOf fields, rest) := by
  rw [readValue, skipBlanks_cons (by decide)]
  split
  case h_3 isOpening =>
    obtain ⟨_, rfl⟩ := List.cons.inj isOpening
    split
    · rename_i isEnd
      exact absurd isEnd (notEnd _)
    · rw [areFields]
      rfl
  case h_7 notOpening _ _ _ => exact absurd rfl (notOpening _)
  all_goals
    rename_i other
    exact absurd (List.cons.inj other).1 (by decide)

theorem ReadsAs.object (level : Nat) {parts : List (List Char)} {fields : List (String × Json)}
    (areFields : List.Forall₂ ReadsField parts (fields.map fun entry => (some entry.1, entry.2))) :
    ReadsAs (blockCharacters level '\x7b' '\x7d' parts) (.object fields) := by
  by_cases nonempty : parts = []
  · subst nonempty
    have empty : fields = [] := List.map_eq_nil_iff.mp (List.forall₂_nil_left_iff.mp areFields)
    subst empty
    exact ⟨⟨'\x7b', _, rfl, by decide, by decide⟩, fun _ _ _ _ => rfl⟩
  · have isBlock := ReadsSeries.blockCharacters_append nonempty level '\x7b' '\x7d'
    constructor
    · have isStart := isBlock []
      rw [List.append_nil] at isStart
      exact ⟨_, _, isStart, by decide, by decide⟩
    · intro budget rest enough _
      have isRead := readsSeries_fields.read_inside level '\x7b' areFields nonempty enough rest
      rw [isBlock, ← objectOf_map]
      exact readValue_of_readFields isRead.1 isRead.2

/-! ### Values -/

mutual

theorem readsAs_characters (level : Nat) : ∀ (value : Json) {depth : Nat},
    (∀ number ∈ value.numbers, number.ReadsBack) → value.readableTo depth = true →
    ReadsAs (value.characters level) value
  | null, _, _, _ => ⟨⟨'n', _, rfl, by decide, by decide⟩, fun _ _ _ _ => rfl⟩
  | bool true, _, _, _ => ⟨⟨'t', _, rfl, by decide, by decide⟩, fun _ _ _ _ => rfl⟩
  | bool false, _, _, _ => ⟨⟨'f', _, rfl, by decide, by decide⟩, fun _ _ _ _ => rfl⟩
  | number _, _, readBack, _ => .number (readBack _ List.mem_cons_self)
  | string value, _, _, _ => .string value
  | array items, depth, readBack, readable => by
      rw [readableTo, Bool.and_eq_true] at readable
      exact .array level (readsAs_itemsCharacters (level + 1) items readBack readable.2)
  | object fields, depth, readBack, readable => by
      rw [readableTo, Bool.and_eq_true] at readable
      exact .object level (readsField_fieldsCharacters (level + 1) fields readBack readable.2)
  | unreadable, _, _, readable => by cases readable

theorem readsAs_itemsCharacters (level : Nat) : ∀ (items : List Json) {depth : Nat},
    (∀ number ∈ itemsNumbers items, number.ReadsBack) → itemsReadableTo depth items = true →
    List.Forall₂ ReadsAs (itemsCharacters level items) items
  | [], _, _, _ => .nil
  | item :: rest, _, readBack, readable => by
      rw [itemsNumbers, List.forall_mem_append] at readBack
      rw [itemsReadableTo, Bool.and_eq_true] at readable
      exact .cons (readsAs_characters level item readBack.1 readable.1)
        (readsAs_itemsCharacters level rest readBack.2 readable.2)

theorem readsField_fieldsCharacters (level : Nat) :
    ∀ (fields : List (String × Json)) {depth : Nat},
    (∀ number ∈ fieldsNumbers fields, number.ReadsBack) → fieldsReadableTo depth fields = true →
    List.Forall₂ ReadsField (fieldsCharacters level fields)
      (fields.map fun entry => (some entry.1, entry.2))
  | [], _, _, _ => .nil
  | (key, value) :: rest, _, readBack, readable => by
      rw [fieldsNumbers, List.forall_mem_append] at readBack
      rw [fieldsReadableTo, Bool.and_eq_true] at readable
      exact .cons (.field key (readsAs_characters level value readBack.1 readable.1))
        (readsField_fieldsCharacters level rest readBack.2 readable.2)

end

/-- How deep a value may nest to be read from a text. -/
def textDepth : Nat := 127

/-- The value is read from the text that is printed for it, with nothing behind it. -/
structure ReadsBack (value : Json) : Prop where
  parsed : parseFirst? value.toPrettyText = some (value, [])
  readable : value.readableTo textDepth = true

theorem readsBack_of_numbers {value : Json} (readBack : ∀ number ∈ value.numbers, number.ReadsBack)
    (readable : value.readableTo textDepth = true) : value.ReadsBack := by
  have isValue := (readsAs_characters 0 value readBack readable).reads
    (2 * (value.characters 0).length + 1) [] (by omega) nofun
  rw [List.append_nil] at isValue
  refine ⟨?_, readable⟩
  rw [parseFirst?, toList_toPrettyText]
  dsimp only
  rw [isValue]
  rfl

/-- Without decimals there is no rounding, and every value that can be read at all reads back. -/
theorem readsBack_of_integers {value : Json}
    (wellFormed : ∀ number ∈ value.numbers, number.isWellFormed = true)
    (integers : ∀ number ∈ value.numbers, number.isInteger = true)
    (readable : value.readableTo textDepth = true) : value.ReadsBack := by
  refine readsBack_of_numbers (fun number listed => ?_) readable
  exact Number.readsBack_of_isInteger (wellFormed number listed) (integers number listed)

end Registrar.Json
