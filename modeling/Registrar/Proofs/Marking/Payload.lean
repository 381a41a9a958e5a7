import Mathlib
import Registrar.Proofs.Json.WellFormed
import Registrar.Proofs.Marking.Tokens
import Registrar.Marking.Payload

/-!
Contract: a map of directives and annotation text hold the same.

Owns: the entries of a map as annotation text, and that this text is parsed into the directives
of the map, with their arguments.

Does not own: whether directives exist, or take their arguments.

A value, a directive and the whole text are read in one way each: what is written for it splits
into the tokens of a phrase that means it, wherever it stands, if what follows does not go on with
its last word.
-/

set_option autoImplicit false

namespace Registrar.Marking

/-! ## Results -/

theorem bind_eq_ok_iff {ε α β : Type} {result : Except ε α} {next : α → Except ε β} {value : β} :
    result >>= next = .ok value ↔ ∃ first, result = .ok first ∧ next first = .ok value := by
  cases result <;> simp [bind, Except.bind]

theorem map_eq_ok_iff {ε α β : Type} {result : Except ε α} {meaning : α → β} {value : β} :
    result.map meaning = .ok value ↔ ∃ first, result = .ok first ∧ meaning first = value := by
  cases result <;> simp [Except.map]

/-! ## Entries as text -/

/-- A character inside a string. Only the quotation mark and the backslash are escaped. -/
def writtenCharacter (character : Char) : List Char :=
  if character = '"' ∨ character = '\\' then ['\\', character] else [character]

def writtenString (text : String) : String :=
  String.ofList ('"' :: text.toList.flatMap writtenCharacter ++ ['"'])

/-- A value that is one argument. Lists and maps are none. -/
def writtenValue : Json → String
  | .null => "default"
  | .bool value => if value then "true" else "false"
  | .number value => value.text
  | .string value => writtenString value
  | .array _ | .object _ | .unreadable => ""

def writtenValues : Json → List String
  | .array items => items.map writtenValue
  | value => [writtenValue value]

/-- The directive that an entry stands for. A flag that is false is not written. -/
def writtenDirective? (name : String) (value : Json) : Option String :=
  if (DirectiveKind.ofName? name).any DirectiveKind.isFlag then
    if value = .bool false then none else some name
  else some (name ++ "(" ++ ", ".intercalate (writtenValues value) ++ ")")

/-- The entries of a map as annotation text, in their order and separated by commas. -/
def writtenEntries (entries : List (String × Json)) : String :=
  ",".intercalate (entries.filterMap fun entry => writtenDirective? entry.1 entry.2)

/-! ## One token -/

/-- What follows does not go on a name or a number. -/
def Stops (rest : List Char) : Prop :=
  ∀ first ∈ rest.head?, isNameCharacter first = false

theorem stops_cons {mark : Char} (isMark : isNameCharacter mark = false) (rest : List Char) :
    Stops (mark :: rest) := by
  intro first isFirst
  cases isFirst
  exact isMark

/-- The characters are one token of the kind, where what follows does not go on with it. -/
def ReadsToken (characters : List Char) (kind : TokenKind) : Prop :=
  ∀ start column rest, Stops rest → ∃ next nextColumn,
    tokensFrom start column (characters ++ rest) =
      ⟨kind, start, column⟩ :: tokensFrom next nextColumn rest

/-- It is enough to know how one token is read. -/
theorem readsToken_of_readToken {first : Char} {tail : List Char} {kind : TokenKind}
    (notBlank : Text.isBlank first = false)
    (reads : ∀ rest, Stops rest → ∃ lexeme, readToken first (tail ++ rest) = ⟨kind, lexeme, rest⟩) :
    ReadsToken (first :: tail) kind := by
  intro start column rest stops
  obtain ⟨lexeme, isReading⟩ := reads rest stops
  rw [List.cons_append, tokensFrom_cons notBlank, isReading]
  exact ⟨_, _, rfl⟩

theorem isAscii_of_isNameCharacter {character : Char}
    (isName : isNameCharacter character = true) : character.toNat < 128 := by
  simp only [isNameCharacter, Char.isAlphanum, Char.isAlpha, Char.isUpper, Char.isLower,
    Char.isDigit, ge_iff_le, UInt32.le_iff_toNat_le, Char.toNat_val, Bool.or_eq_true,
    Bool.and_eq_true, decide_eq_true_eq, beq_iff_eq] at isName
  obtain ((⟨_, upper⟩ | ⟨_, upper⟩) | ⟨_, upper⟩) | rfl := isName
  · exact upper.trans_lt (by decide)
  · exact upper.trans_lt (by decide)
  · exact upper.trans_lt (by decide)
  · decide

theorem notBlank_of_isNameCharacter {character : Char} (isName : isNameCharacter character = true) :
    Text.isBlank character = false := by
  have allAscii : ∀ code < 128, isNameCharacter (Char.ofNat code) = true →
      Text.isBlank (Char.ofNat code) = false := by decide
  have notBlank := allAscii character.toNat (isAscii_of_isNameCharacter isName)
  rw [Char.ofNat_toNat] at notBlank
  exact notBlank isName

theorem readsToken_word {first : Char} {tail : List Char}
    (areNames : ∀ character ∈ first :: tail, isNameCharacter character = true) :
    ReadsToken (first :: tail)
      (if first.isDigit then numberKind (first :: tail) else nameKind (first :: tail)) := by
  have isName : isNameCharacter first = true := areNames first List.mem_cons_self
  have tailNames : ∀ character ∈ tail, isNameCharacter character = true := by
    intro character listed
    exact areNames character (List.mem_cons_of_mem first listed)
  apply readsToken_of_readToken (notBlank_of_isNameCharacter isName)
  intro rest stops
  have front : rest.takeWhile isNameCharacter = [] := by
    cases rest with
    | nil => rfl
    | cons other _ => simp [stops other rfl]
  have back : rest.dropWhile isNameCharacter = rest := by
    cases rest with
    | nil => rfl
    | cons other _ => simp [stops other rfl]
  rw [readToken_name isName, List.takeWhile_append_of_pos tailNames,
    List.dropWhile_append_of_pos tailNames, front, back, List.append_nil]
  exact ⟨_, rfl⟩

/-- The text is a word: it holds characters of names only, and starts with none of numbers. -/
def isWord (text : String) : Bool :=
  text.toList.all isNameCharacter && text.toList.head?.any fun first => !first.isDigit

theorem readsToken_of_isWord {text : String} {kind : TokenKind} (isText : isWord text = true)
    (isKind : nameKind text.toList = kind) : ReadsToken text.toList kind := by
  rw [isWord, Bool.and_eq_true, List.all_eq_true] at isText
  obtain ⟨areNames, noDigit⟩ := isText
  rw [← isKind]
  generalize text.toList = characters at areNames noDigit
  cases characters with
  | nil => cases noDigit
  | cons first tail =>
      have reads := readsToken_word areNames
      rw [if_neg (by simpa using noDigit)] at reads
      exact reads

/-- Every directive is spelled as an identifier. -/
theorem readsToken_of_ofName? {name : String} {kind : DirectiveKind}
    (isNamed : DirectiveKind.ofName? name = some kind) :
    ReadsToken name.toList (.identifier name) := by
  have allIdentifiers : ∀ other ∈ "name" :: DirectiveKind.all.map DirectiveKind.name,
      isWord other = true ∧ nameKind other.toList = .identifier other := by
    decide +kernel
  have listed : name ∈ "name" :: DirectiveKind.all.map DirectiveKind.name := by
    rw [DirectiveKind.ofName?] at isNamed
    by_cases isShort : name = "name"
    · rw [isShort]
      exact List.mem_cons_self
    · rw [if_neg (by simpa using isShort)] at isNamed
      have isSpelling : (kind.name == name) = true :=
        List.find?_some (p := fun other : DirectiveKind => other.name == name) isNamed
      rw [← beq_iff_eq.mp isSpelling]
      exact List.mem_cons_of_mem _ (List.mem_map_of_mem (List.mem_of_find?_eq_some isNamed))
  have isIdentifier := allIdentifiers name listed
  exact readsToken_of_isWord isIdentifier.1 isIdentifier.2

theorem decimalValue_toDigits (value : Nat) : decimalValue (Nat.toDigits 10 value) = value :=
  Nat.ofDigitChars_toDigits (by decide) (by decide)

theorem readsToken_number {value : Nat} (fits : value < 1 <<< 64) :
    ReadsToken (toString value).toList (.unsigned value) := by
  have areDigits : ∀ character ∈ Nat.toDigits 10 value, character.isDigit = true :=
    fun character listed => Nat.isDigit_of_mem_toDigits (by decide) (by decide) listed
  have isNumber : numberKind (Nat.toDigits 10 value) = .unsigned value := by
    rw [numberKind, List.all_eq_true.mpr areDigits, decimalValue_toDigits, Bool.true_and,
      if_pos (decide_eq_true fits)]
  have nonempty : Nat.toDigits 10 value ≠ [] := Nat.toDigits_ne_nil
  change ReadsToken value.repr.toList _
  rw [Nat.toList_repr, ← isNumber]
  generalize Nat.toDigits 10 value = digits at areDigits nonempty
  cases digits with
  | nil => exact absurd rfl nonempty
  | cons first tail =>
      have reads : ReadsToken (first :: tail) _ := readsToken_word (by
        intro character listed
        simp [isNameCharacter, Char.isAlphanum, areDigits character listed])
      rw [if_pos (areDigits first List.mem_cons_self)] at reads
      exact reads

/-! ### Strings -/

theorem readString_written (text value rest : List Char) :
    readString value (text.flatMap writtenCharacter ++ '"' :: rest) =
      ⟨.string (String.ofList (value.reverse ++ text)),
        text.flatMap writtenCharacter ++ ['"'], rest⟩ := by
  induction text generalizing value with
  | nil => simp [readString]
  | cons character text inductionHypothesis =>
      by_cases isEscaped : character = '"' ∨ character = '\\'
      · have meant : escaped? character = some character := by
          cases isEscaped with
          | inl isQuote => simp [isQuote, escaped?]
          | inr isEscape => simp [isEscape, escaped?]
        simp [writtenCharacter, if_pos isEscaped, readString, meant, inductionHypothesis,
          Reading.after]
      · rw [not_or] at isEscaped
        simp [writtenCharacter, isEscaped, readString_plain isEscaped.1 isEscaped.2,
          inductionHypothesis, Reading.after]

theorem readsToken_string (text : String) :
    ReadsToken (writtenString text).toList (.string text) := by
  rw [writtenString, String.toList_ofList, List.cons_append]
  apply readsToken_of_readToken (by decide)
  intro rest _
  have isReading := readString_written text.toList [] rest
  refine ⟨'"' :: (text.toList.flatMap writtenCharacter ++ ['"']), ?_⟩
  simp [readToken, isReading, Reading.after]

/-! ### Values -/

theorem exists_kind_of_literal {directive : String} {value : Json} {literal : Literal}
    (wellFormed : value.isWellFormed = true)
    (isLiteral : Payload.literal directive value = .ok literal) :
    ∃ kind, ReadsToken (writtenValue value).toList kind ∧ IsLiteral kind literal := by
  cases value with
  | null =>
      cases isLiteral
      exact ⟨.keywordDefault, readsToken_of_isWord (by decide +kernel) (by decide +kernel),
        .default⟩
  | bool value =>
      cases isLiteral
      cases value with
      | true =>
          exact ⟨.keywordTrue, readsToken_of_isWord (by decide +kernel) (by decide +kernel), .yes⟩
      | false =>
          exact ⟨.keywordFalse, readsToken_of_isWord (by decide +kernel) (by decide +kernel), .no⟩
  | number value =>
      cases value with
      | natural value =>
          cases isLiteral
          rw [Json.isWellFormed, Json.Number.isWellFormed, decide_eq_true_eq] at wellFormed
          exact ⟨.unsigned value, readsToken_number wellFormed, .unsigned value⟩
      | negative _ => cases isLiteral
      | decimal _ => cases isLiteral
  | string value =>
      cases isLiteral
      exact ⟨.string value, readsToken_string value, .string value⟩
  | array _ => cases isLiteral
  | object _ => cases isLiteral
  | unreadable => cases isLiteral

/-! ## Phrases -/

section Phrases

variable {item meaning : Type} {yield : item → List Token} {view : item → meaning}

/-- The characters are a phrase that means the value, where what follows does not go on with
them. -/
def ReadsPhrase (yield : item → List Token) (view : item → meaning) (characters : List Char)
    (value : meaning) : Prop :=
  ∀ start column rest, Stops rest → ∃ phrase next nextColumn, view phrase = value ∧
    tokensFrom start column (characters ++ rest) = yield phrase ++ tokensFrom next nextColumn rest

/-- The characters are a list of phrases that mean the values. -/
abbrev ReadsListing (yield : item → List Token) (view : item → meaning) (characters : List Char)
    (values : List meaning) : Prop :=
  ReadsPhrase (Listing.tokens yield) (fun listing => listing.items.map view) characters values

/-- A phrase with a comma behind it goes in front of a list. -/
theorem readsListing_cons {blanks : List Char}
    (blank : ∀ character ∈ blanks, Text.isBlank character = true) {text others : List Char}
    {value : meaning} {values : List meaning} (first : ReadsPhrase yield view text value)
    (more : ReadsListing yield view others values) :
    ReadsListing yield view (text ++ (',' :: blanks ++ others)) (value :: values) := by
  intro start column rest stops
  obtain ⟨phrase, place, placeColumn, isValue, isFirst⟩ :=
    first start column (',' :: (blanks ++ (others ++ rest))) (stops_cons rfl _)
  have isComma : tokensFrom place placeColumn (',' :: (blanks ++ (others ++ rest))) =
      ⟨.comma, place, placeColumn⟩ ::
        tokensFrom (place + 1) (placeColumn + 1) (blanks ++ (others ++ rest)) :=
    tokensFrom_cons (by decide) _ _ _
  obtain ⟨listing, next, nextColumn, areValues, isMore⟩ :=
    more (place + 1 + byteCount blanks) (placeColumn + 1 + blanks.length) rest stops
  refine ⟨.cons phrase ⟨⟨.comma, place, placeColumn⟩, rfl⟩ listing, next, nextColumn, ?_, ?_⟩
  · dsimp only at areValues ⊢
    rw [Listing.items_cons, List.map_cons, isValue, areValues]
  · rw [List.append_assoc, List.cons_append, List.cons_append, List.append_assoc, isFirst, isComma,
      tokensFrom_append_blanks blank, isMore, Listing.tokens_cons, List.append_assoc,
      List.cons_append]

/-- Phrases with commas between them, and blanks behind the commas, are a list. -/
theorem readsListing {blanks : List Char}
    (blank : ∀ character ∈ blanks, Text.isBlank character = true) {texts : List (List Char)}
    {values : List meaning} (reads : List.Forall₂ (ReadsPhrase yield view) texts values) :
    ReadsListing yield view ((',' :: blanks).intercalate texts) values := by
  induction reads with
  | nil =>
      intro start column rest _
      exact ⟨.empty, start, column, rfl, rfl⟩
  | cons first more inductionHypothesis =>
      cases more with
      | nil =>
          intro start column rest stops
          obtain ⟨phrase, next, nextColumn, isValue, isFirst⟩ := first start column rest stops
          refine ⟨.single phrase, next, nextColumn, ?_, ?_⟩
          · dsimp only
            rw [Listing.items_single, List.map_singleton, isValue]
          · rw [List.intercalate_singleton, Listing.tokens_single]
            exact isFirst
      | cons _ _ =>
          rw [List.intercalate_cons_cons, List.append_assoc]
          exact readsListing_cons blank first inductionHypothesis

end Phrases

theorem readsPhrase_literal {directive : String} {value : Json} {literal : Literal}
    (wellFormed : value.isWellFormed = true)
    (isLiteral : Payload.literal directive value = .ok literal) :
    ReadsPhrase LiteralPhrase.tokens LiteralPhrase.literal (writtenValue value).toList literal := by
  intro start column rest stops
  obtain ⟨kind, reads, isKind⟩ := exists_kind_of_literal wellFormed isLiteral
  obtain ⟨next, nextColumn, isToken⟩ := reads start column rest stops
  exact ⟨⟨⟨kind, start, column⟩, literal, isKind⟩, next, nextColumn, rfl, isToken⟩

theorem readsPhrase_literals {directive : String} {items : List Json} {literals : List Literal}
    (wellFormed : ∀ item ∈ items, item.isWellFormed = true)
    (areLiterals : Payload.literals directive items = .ok literals) :
    List.Forall₂ (ReadsPhrase LiteralPhrase.tokens LiteralPhrase.literal)
      ((items.map writtenValue).map String.toList) literals := by
  induction items generalizing literals with
  | nil =>
      cases areLiterals
      exact .nil
  | cons item rest inductionHypothesis =>
      obtain ⟨itemWellFormed, restWellFormed⟩ := List.forall_mem_cons.mp wellFormed
      obtain ⟨first, isFirst, areLiterals⟩ := bind_eq_ok_iff.mp areLiterals
      obtain ⟨others, areOthers, isList⟩ := bind_eq_ok_iff.mp areLiterals
      cases isList
      exact .cons (readsPhrase_literal itemWellFormed isFirst)
        (inductionHypothesis restWellFormed areOthers)

/-! ## Entries -/

/-- What a directive says, wherever it is written. -/
def Call.content (call : Call) : String × List Literal := (call.name, call.arguments)

theorem literals_of_arguments {name : String} {value : Json} {arguments : List Literal}
    (wellFormed : value.isWellFormed = true)
    (areArguments : Payload.arguments name value = .ok arguments) :
    List.Forall₂ (ReadsPhrase LiteralPhrase.tokens LiteralPhrase.literal)
      ((writtenValues value).map String.toList) arguments := by
  by_cases isList : ∃ items, value = .array items
  · obtain ⟨items, rfl⟩ := isList
    rw [Json.isWellFormed, Json.itemsWellFormed_iff] at wellFormed
    exact readsPhrase_literals wellFormed areArguments
  · have isOne : Payload.arguments name value =
        (Payload.literal name value).map fun argument => [argument] := by
      cases value with
      | array items => exact absurd ⟨items, rfl⟩ isList
      | _ => rfl
    have isWritten : writtenValues value = [writtenValue value] := by
      cases value with
      | array items => exact absurd ⟨items, rfl⟩ isList
      | _ => rfl
    rw [isOne] at areArguments
    obtain ⟨argument, isLiteral, rfl⟩ := map_eq_ok_iff.mp areArguments
    rw [isWritten]
    exact .cons (readsPhrase_literal wellFormed isLiteral) .nil

/-- The characters are a directive that says the same. -/
abbrev ReadsCall (characters : List Char) (content : String × List Literal) : Prop :=
  ReadsPhrase CallPhrase.tokens (fun phrase => phrase.call.content) characters content

theorem readsCall_bare {name : String} (isName : ReadsToken name.toList (.identifier name)) :
    ReadsCall name.toList (name, []) := by
  intro start column rest stops
  obtain ⟨next, nextColumn, isToken⟩ := isName start column rest stops
  exact ⟨⟨name, ⟨⟨.identifier name, start, column⟩, rfl⟩, none⟩, next, nextColumn, rfl, isToken⟩

theorem readsCall_applied {name : String} (isName : ReadsToken name.toList (.identifier name))
    {texts : List String} {arguments : List Literal}
    (areArguments : List.Forall₂ (ReadsPhrase LiteralPhrase.tokens LiteralPhrase.literal)
      (texts.map String.toList) arguments) :
    ReadsCall (name ++ "(" ++ ", ".intercalate texts ++ ")").toList (name, arguments) := by
  intro start column rest stops
  have blank : ∀ character ∈ [' '], Text.isBlank character = true :=
    List.forall_mem_singleton.mpr rfl
  let inside := [',', ' '].intercalate (texts.map String.toList)
  have isWritten : (name ++ "(" ++ ", ".intercalate texts ++ ")").toList =
      name.toList ++ '(' :: (inside ++ [')']) := by
    simp [inside, String.toList_intercalate]
  obtain ⟨place, placeColumn, isIdentifier⟩ :=
    isName start column ('(' :: (inside ++ ')' :: rest)) (stops_cons rfl _)
  have isOpening : tokensFrom place placeColumn ('(' :: (inside ++ ')' :: rest)) =
      ⟨.opening, place, placeColumn⟩ ::
        tokensFrom (place + 1) (placeColumn + 1) (inside ++ ')' :: rest) :=
    tokensFrom_cons (by decide) _ _ _
  obtain ⟨listing, next, nextColumn, areLiterals, isListing⟩ :=
    readsListing blank areArguments (place + 1) (placeColumn + 1) (')' :: rest)
      (stops_cons rfl _)
  have isClosing : tokensFrom next nextColumn (')' :: rest) =
      ⟨.closing, next, nextColumn⟩ :: tokensFrom (next + 1) (nextColumn + 1) rest :=
    tokensFrom_cons (by decide) _ _ _
  let phrase : CallPhrase :=
    ⟨name, ⟨⟨.identifier name, start, column⟩, rfl⟩,
      some ⟨⟨⟨.opening, place, placeColumn⟩, rfl⟩, listing, ⟨⟨.closing, next, nextColumn⟩, rfl⟩⟩⟩
  refine ⟨phrase, next + 1, nextColumn + 1, congrArg (Prod.mk name) areLiterals, ?_⟩
  rw [isWritten, List.append_assoc, List.cons_append, List.append_assoc, List.singleton_append,
    isIdentifier, isOpening, isListing, isClosing]
  simp [phrase, CallPhrase.tokens, Arguments.tokens]

theorem readsCall_entry {name : String} {value : Json} {call : Option Call}
    (wellFormed : value.isWellFormed = true)
    (isCall : Payload.entryCall? name value = .ok call) :
    List.Forall₂ ReadsCall ((writtenDirective? name value).toList.map String.toList)
      (call.toList.map Call.content) := by
  unfold Payload.entryCall? at isCall
  cases isNamed : DirectiveKind.ofName? name with
  | none => simp [isNamed] at isCall
  | some kind =>
      have isName := readsToken_of_ofName? isNamed
      simp only [isNamed] at isCall
      rw [writtenDirective?, isNamed, Option.any_some]
      by_cases isFlag : kind.isFlag = true
      · rw [if_pos isFlag] at isCall ⊢
        split at isCall
        · cases isCall
          exact .cons (readsCall_bare isName) .nil
        · cases isCall
          exact .cons (readsCall_bare isName) .nil
        · cases isCall
          exact .nil
        · cases isCall
      · rw [if_neg isFlag] at isCall ⊢
        obtain ⟨arguments, areArguments, rfl⟩ := map_eq_ok_iff.mp isCall
        exact .cons (readsCall_applied isName (literals_of_arguments wellFormed areArguments)) .nil

theorem readsCalls_entries {entries : List (String × Json)} {calls : List Call}
    (wellFormed : Json.fieldsWellFormed entries = true)
    (areCalls : Payload.entryCalls entries = .ok calls) :
    List.Forall₂ ReadsCall
      ((entries.filterMap fun entry => writtenDirective? entry.1 entry.2).map String.toList)
      (calls.map Call.content) := by
  induction entries generalizing calls with
  | nil =>
      cases areCalls
      exact .nil
  | cons entry rest inductionHypothesis =>
      obtain ⟨name, value⟩ := entry
      simp only [Json.fieldsWellFormed, Bool.and_eq_true] at wellFormed
      obtain ⟨first, isFirst, areCalls⟩ := bind_eq_ok_iff.mp areCalls
      obtain ⟨others, areOthers, isList⟩ := bind_eq_ok_iff.mp areCalls
      cases isList
      have firstReads := readsCall_entry wellFormed.1.2 isFirst
      have othersRead := inductionHypothesis wellFormed.2 areOthers
      rw [List.filterMap_eq_flatMap_toList] at othersRead ⊢
      rw [List.flatMap_cons, List.map_append, List.map_append]
      exact List.rel_append firstReads othersRead

/-- A map of directives and its entries as text hold the same directives. -/
theorem parse_writtenEntries {entries : List (String × Json)} {calls : List Call}
    (wellFormed : Json.fieldsWellFormed entries = true)
    (areCalls : (Payload.map entries).calls = .ok calls) :
    ∃ parsed, parse (writtenEntries entries) = .ok parsed ∧
      parsed.map Call.content = calls.map Call.content := by
  have reads := readsListing (List.forall_mem_nil _) (readsCalls_entries wellFormed areCalls)
  have noneFollows : Stops [] := by
    intro first isFirst
    cases isFirst
  obtain ⟨derivation, next, nextColumn, areSame, isSplit⟩ := reads 0 1 [] noneFollows
  refine ⟨Derivation.calls derivation, ?_, ?_⟩
  · rw [parse, tokens, writtenEntries, String.toList_intercalate]
    rw [List.append_nil, tokensFrom_blanks (List.forall_mem_nil _)] at isSplit
    change parseCalls (tokensFrom 0 1 ([','].intercalate _)) = _
    rw [isSplit]
    exact parseCalls_complete derivation rfl
  · rw [← areSame, Derivation.calls, List.map_map]
    rfl

/-- Every form of an entry, with flags that are left out at either end and in between. -/
def mixedEntries : List (String × Json) :=
  [("early", .bool false), ("encourage", .null), ("expose_instantiations", .array []),
    ("getter_for", .array [.string "a\"\\", .string "größe,\n"]), ("hidden", .bool false),
    ("manual", .bool true), ("name", .string "x"),
    ("noconvert", .array [.number (.natural (1 <<< 64 - 1)), .bool true, .null]),
    ("postamble", .bool false)]

example : writtenEntries (mixedEntries.drop 4) =
    "manual,name(\"x\"),noconvert(18446744073709551615, true, default)" := by
  decide +kernel

theorem parse_mixedEntries :
    ∃ parsed, parse (writtenEntries mixedEntries) = .ok parsed ∧
      parsed.map Call.content =
        [("encourage", []), ("expose_instantiations", []),
          ("getter_for", [.string "a\"\\", .string "größe,\n"]), ("manual", []),
          ("name", [.string "x"]),
          ("noconvert", [.unsigned (1 <<< 64 - 1), .boolean true, .default])] := by
  have wellFormed : Json.fieldsWellFormed mixedEntries = true := by decide +kernel
  exact parse_writtenEntries wellFormed rfl

end Registrar.Marking
