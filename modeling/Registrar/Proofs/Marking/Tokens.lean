import Mathlib
import Registrar.Proofs.Marking.Parsing

/-!
Contract: the tokens of a text cover it.

Owns: where the tokens of a text stand, how the text splits into their lexemes with blanks
between them, and that a lexeme is read the same when it stands alone.

Does not own: what the sequence of tokens is derived from.

The scanners count bytes and characters apart from the characters they consume. `Splits` keeps
all three together: it holds the characters before each token, from which its place is computed.
-/

set_option autoImplicit false

namespace Registrar.Marking

/-! ## Bytes -/

theorem byteCount_eq_utf8Len (characters : List Char) :
    byteCount characters = String.utf8Len characters := by
  have onwards (count : Nat) (characters : List Char) :
      characters.foldl (fun count character => count + character.utf8Size) count =
        count + String.utf8Len characters := by
    induction characters generalizing count with
    | nil => rfl
    | cons character rest inductionHypothesis =>
        rw [List.foldl_cons, inductionHypothesis, String.utf8Len_cons]
        omega
  unfold byteCount
  rw [onwards, Nat.zero_add]

@[simp]
theorem byteCount_append (front back : List Char) :
    byteCount (front ++ back) = byteCount front + byteCount back := by
  simp [byteCount_eq_utf8Len]

theorem byteCount_toList (text : String) : byteCount text.toList = text.utf8ByteSize := by
  rw [byteCount_eq_utf8Len, String.utf8Len_toList]

theorem byteCount_pos {characters : List Char} (nonempty : characters ≠ []) :
    0 < byteCount characters := by
  rw [byteCount_eq_utf8Len, Nat.pos_iff_ne_zero, Ne, String.utf8Len_eq_zero]
  exact nonempty

/-! ## A lexeme by itself -/

/-- Inside a string a character stands for itself, unless it is a quotation mark or a backslash. -/
theorem readString_plain {character : Char} (notQuote : character ≠ '"')
    (notEscape : character ≠ '\\') (value rest : List Char) :
    readString value (character :: rest) =
      (readString (character :: value) rest).after [character] := by
  rw [readString]
  · exact notQuote
  · intro isEscape _
    exact notEscape isEscape
  · intro _ _ isEscape _
    exact notEscape isEscape

/-- A string that breaks off in an escape does so without the text behind it, too. -/
theorem readString_alone (value characters : List Char) :
    readString value (readString value characters).lexeme =
      { readString value characters with rest := [] } := by
  fun_induction readString value characters with
  | case1 => rfl
  | case2 => rfl
  | case3 => rfl
  | case4 value character rest meant isEscape inductionHypothesis =>
      simp [Reading.after, readString, isEscape, inductionHypothesis]
  | case5 value character rest isNone => simp [readString, isNone]
  | case6 value character rest notQuote notLast notEscape inductionHypothesis =>
      have plain : character ≠ '\\' := by
        intro isEscape
        cases rest with
        | nil => exact notLast isEscape rfl
        | cons _ _ => exact notEscape _ _ isEscape rfl
      simp only [Reading.after, List.singleton_append]
      rw [readString_plain notQuote plain, inductionHypothesis]
      rfl

/-- Names and numbers go as far as the characters of names. -/
theorem readToken_name {first : Char} (isName : isNameCharacter first = true)
    (rest : List Char) :
    readToken first rest =
      ⟨if first.isDigit then numberKind (first :: rest.takeWhile isNameCharacter)
        else nameKind (first :: rest.takeWhile isNameCharacter),
        first :: rest.takeWhile isNameCharacter, rest.dropWhile isNameCharacter⟩ := by
  have other (mark : Char) (isMark : isNameCharacter mark = false) : (first == mark) = false := by
    rw [beq_eq_false_iff_ne]
    intro same
    rw [same, isMark] at isName
    cases isName
  unfold readToken
  simp [other '(' rfl, other ')' rfl, other ',' rfl, other '"' rfl, isName]

/-- The marks, and the characters of no token, are read by themselves. -/
theorem readToken_mark {first : Char} (notName : isNameCharacter first = false)
    (notQuote : first ≠ '"') :
    ∃ kind, ∀ rest, readToken first rest = ⟨kind, [first], rest⟩ := by
  have isOther : (first == '"') = false := beq_eq_false_iff_ne.mpr notQuote
  unfold readToken
  simp only [isOther, notName, Bool.false_eq_true, if_false]
  split_ifs
  · exact ⟨_, fun _ => rfl⟩
  · exact ⟨_, fun _ => rfl⟩
  · exact ⟨_, fun _ => rfl⟩
  · exact ⟨_, fun _ => rfl⟩

/-- A token is read the same where its lexeme stands alone. -/
theorem readToken_alone (first : Char) (rest : List Char) :
    ∃ tail, (readToken first rest).lexeme = first :: tail ∧
      readToken first tail = { readToken first rest with rest := [] } := by
  by_cases isName : isNameCharacter first = true
  · have all : ∀ character ∈ rest.takeWhile isNameCharacter, isNameCharacter character = true :=
      fun character => List.mem_takeWhile_imp
    refine ⟨rest.takeWhile isNameCharacter, ?_, ?_⟩
    · rw [readToken_name isName]
    · rw [readToken_name isName, readToken_name isName, List.takeWhile_eq_self_iff.mpr all,
        List.dropWhile_eq_nil_iff.mpr all]
  by_cases isQuote : first = '"'
  · subst first
    refine ⟨(readString [] rest).lexeme, rfl, ?_⟩
    simp [readToken, readString_alone, Reading.after]
  · rw [Bool.not_eq_true] at isName
    obtain ⟨kind, isRead⟩ := readToken_mark isName isQuote
    exact ⟨[], by rw [isRead], by rw [isRead, isRead]⟩

/-! ## One token after the other -/

theorem blank_of_mem_takeWhile (characters : List Char) :
    ∀ character ∈ characters.takeWhile Text.isBlank, Text.isBlank character = true :=
  fun _ => List.mem_takeWhile_imp

theorem notBlank_of_dropWhile {characters rest : List Char} {first : Char}
    (remaining : characters.dropWhile Text.isBlank = first :: rest) :
    Text.isBlank first = false := by
  have notBlank := List.head?_dropWhile_not Text.isBlank characters
  rw [remaining, List.head?_cons] at notBlank
  simpa using notBlank

section Steps

variable {blanks : List Char} (blank : ∀ character ∈ blanks, Text.isBlank character = true)

include blank

theorem tokensFrom_blanks (start column : Nat) :
    tokensFrom start column blanks =
      [⟨.endOfInput, start + byteCount blanks, column + blanks.length⟩] := by
  have all : blanks.takeWhile Text.isBlank = blanks := List.takeWhile_eq_self_iff.mpr blank
  have none : blanks.dropWhile Text.isBlank = [] := List.dropWhile_eq_nil_iff.mpr blank
  rw [tokensFrom, all]
  split
  · rfl
  · rename_i remaining
    cases none.symm.trans remaining

theorem tokensFrom_blanks_append {first : Char} (notBlank : Text.isBlank first = false)
    (rest : List Char) (start column : Nat) :
    tokensFrom start column (blanks ++ first :: rest) =
      ⟨(readToken first rest).kind, start + byteCount blanks, column + blanks.length⟩ ::
        tokensFrom (start + byteCount blanks + byteCount (readToken first rest).lexeme)
          (column + blanks.length + (readToken first rest).lexeme.length)
          (readToken first rest).rest := by
  have front : (blanks ++ first :: rest).takeWhile Text.isBlank = blanks := by
    rw [List.takeWhile_append_of_pos blank, List.takeWhile_cons_of_neg (by simp [notBlank]),
      List.append_nil]
  have back : (blanks ++ first :: rest).dropWhile Text.isBlank = first :: rest := by
    rw [List.dropWhile_append_of_pos blank, List.dropWhile_cons_of_neg (by simp [notBlank])]
  rw [tokensFrom, front]
  split
  · rename_i remaining
    cases back.symm.trans remaining
  · rename_i remaining
    cases back.symm.trans remaining
    rfl

/-- Blanks in front only move what is behind them. -/
theorem tokensFrom_append_blanks (start column : Nat) (rest : List Char) :
    tokensFrom start column (blanks ++ rest) =
      tokensFrom (start + byteCount blanks) (column + blanks.length) rest := by
  have isSplit : rest.takeWhile Text.isBlank ++ rest.dropWhile Text.isBlank = rest :=
    List.takeWhile_append_dropWhile
  have allBlank : ∀ character ∈ blanks ++ rest.takeWhile Text.isBlank,
      Text.isBlank character = true := by
    rw [List.forall_mem_append]
    exact ⟨blank, blank_of_mem_takeWhile rest⟩
  rw [← isSplit, ← List.append_assoc]
  cases remaining : rest.dropWhile Text.isBlank with
  | nil =>
      rw [List.append_nil, List.append_nil, tokensFrom_blanks allBlank,
        tokensFrom_blanks (blank_of_mem_takeWhile rest)]
      simp only [byteCount_append, List.length_append, Nat.add_assoc]
  | cons first tail =>
      have notBlank := notBlank_of_dropWhile remaining
      rw [tokensFrom_blanks_append allBlank notBlank,
        tokensFrom_blanks_append (blank_of_mem_takeWhile rest) notBlank]
      simp only [byteCount_append, List.length_append, Nat.add_assoc]

end Steps

theorem tokensFrom_cons {first : Char} (notBlank : Text.isBlank first = false)
    (rest : List Char) (start column : Nat) :
    tokensFrom start column (first :: rest) =
      ⟨(readToken first rest).kind, start, column⟩ ::
        tokensFrom (start + byteCount (readToken first rest).lexeme)
          (column + (readToken first rest).lexeme.length) (readToken first rest).rest :=
  tokensFrom_blanks_append (List.forall_mem_nil _) notBlank rest start column

theorem tokens_lexeme {first : Char} (notBlank : Text.isBlank first = false) (rest : List Char) :
    (tokens (String.ofList (readToken first rest).lexeme)).map Token.kind =
      [(readToken first rest).kind, .endOfInput] := by
  obtain ⟨tail, isLexeme, alone⟩ := readToken_alone first rest
  rw [tokens, String.toList_ofList, isLexeme, tokensFrom_cons notBlank, alone,
    tokensFrom_blanks (List.forall_mem_nil _)]
  rfl

/-! ## Pieces -/

/-- Blank characters, and the lexeme behind them. -/
structure Piece where
  blanks : List Char
  lexeme : List Char

namespace Piece

def characters (piece : Piece) : List Char := piece.blanks ++ piece.lexeme

/-- The blanks are blank, and the lexeme by itself is one token of the kind. -/
structure ReadsAs (piece : Piece) (kind : TokenKind) : Prop where
  blank : ∀ character ∈ piece.blanks, Text.isBlank character = true
  nonempty : piece.lexeme ≠ []
  alone : (tokens (String.ofList piece.lexeme)).map Token.kind = [kind, .endOfInput]

theorem ReadsAs.ne_endOfInput {piece : Piece} {kind : TokenKind} (reads : piece.ReadsAs kind) :
    kind ≠ .endOfInput := by
  have ended := tokens_ended (String.ofList piece.lexeme)
  have alone := reads.alone
  generalize tokens (String.ofList piece.lexeme) = found at ended alone
  cases ended with
  | last isEnd => simp at alone
  | cons notEnd ended =>
      rw [List.map_cons, List.cons.injEq] at alone
      rw [← alone.1]
      exact notEnd

end Piece

/-- The token of the kind that starts behind the characters. -/
def Token.behind (before : List Char) (kind : TokenKind) : Token :=
  ⟨kind, byteCount before, before.length + 1⟩

/-- Behind the characters before it, the rest splits into a piece for each token and blanks in
front of the end of input. -/
inductive Splits : List Char → List Char → List Token → Prop where
  | last {before blanks : List Char} (blank : ∀ character ∈ blanks, Text.isBlank character = true) :
      Splits before blanks [.behind (before ++ blanks) .endOfInput]
  | piece {before rest : List Char} {others : List Token} {piece : Piece} {kind : TokenKind}
      (reads : piece.ReadsAs kind) (onwards : Splits (before ++ piece.characters) rest others) :
      Splits before (piece.characters ++ rest) (.behind (before ++ piece.blanks) kind :: others)

theorem Token.behind_append {start column : Nat} {before : List Char}
    (isStart : start = byteCount before) (isColumn : column = before.length + 1)
    (characters : List Char) (kind : TokenKind) :
    behind (before ++ characters) kind =
      ⟨kind, start + byteCount characters, column + characters.length⟩ := by
  rw [behind, byteCount_append, List.length_append, isStart, isColumn, Nat.add_right_comm]

theorem tokensFrom_splits {start column : Nat} {before : List Char}
    (isStart : start = byteCount before) (isColumn : column = before.length + 1)
    (characters : List Char) : Splits before characters (tokensFrom start column characters) := by
  fun_induction tokensFrom start column characters generalizing before with
  | case1 start column characters blanks =>
      rename_i remaining
      have isBlanks : blanks = characters := by
        rw [← List.append_nil blanks, ← remaining]
        exact List.takeWhile_append_dropWhile
      rw [← Token.behind_append isStart isColumn, isBlanks]
      refine .last ?_
      rw [← isBlanks]
      exact blank_of_mem_takeWhile characters
  | case2 start column characters blanks _ _ first rest remaining reading =>
      rename_i inductionHypothesis
      let piece : Piece := ⟨blanks, reading.lexeme⟩
      have reads : piece.ReadsAs reading.kind :=
        ⟨blank_of_mem_takeWhile characters, readToken_lexeme_ne_nil first rest,
          tokens_lexeme (notBlank_of_dropWhile remaining) rest⟩
      have isSplit : piece.characters ++ reading.rest = characters := by
        rw [Piece.characters, List.append_assoc, readToken_covers, ← remaining]
        exact List.takeWhile_append_dropWhile
      rw [← isSplit, ← Token.behind_append isStart isColumn]
      refine .piece reads (inductionHypothesis ?_ ?_)
      · change start + byteCount blanks + byteCount reading.lexeme =
          byteCount (before ++ (blanks ++ reading.lexeme))
        rw [byteCount_append, byteCount_append, isStart, Nat.add_assoc]
      · change column + blanks.length + reading.lexeme.length =
          (before ++ (blanks ++ reading.lexeme)).length + 1
        rw [List.length_append, List.length_append, isColumn]
        omega

namespace Splits

variable {before characters : List Char} {tokens : List Token}

/-- Every token stands where it says. -/
theorem placed (splits : Splits before characters tokens) :
    ∀ token ∈ tokens, ∃ front back, characters = front ++ back ∧
      token = .behind (before ++ front) token.kind := by
  induction splits with
  | @last before blanks _ =>
      rw [List.forall_mem_singleton]
      exact ⟨blanks, [], (List.append_nil blanks).symm, rfl⟩
  | @piece before rest others piece kind _ _ inductionHypothesis =>
      rw [List.forall_mem_cons]
      refine ⟨⟨piece.blanks, piece.lexeme ++ rest, ?_, rfl⟩, ?_⟩
      · rw [Piece.characters, List.append_assoc]
      · intro token listed
        obtain ⟨front, back, rfl, isPlace⟩ := inductionHypothesis token listed
        refine ⟨piece.characters ++ front, back, (List.append_assoc ..).symm, ?_⟩
        rw [← List.append_assoc]
        exact isPlace

/-- No lexeme is empty, so that every token starts behind the one before it. -/
theorem ascending (splits : Splits before characters tokens) :
    tokens.Pairwise fun earlier later => earlier.start < later.start := by
  induction splits with
  | last _ => exact List.pairwise_singleton _ _
  | @piece before rest others piece kind reads onwards inductionHypothesis =>
      rw [List.pairwise_cons]
      refine ⟨fun later listed => ?_, inductionHypothesis⟩
      obtain ⟨front, _, _, isPlace⟩ := onwards.placed later listed
      have longer := byteCount_pos reads.nonempty
      rw [isPlace]
      simp only [Token.behind, Piece.characters, byteCount_append]
      omega

theorem ended (splits : Splits before characters tokens) :
    ∃ front, tokens = front ++ [.behind (before ++ characters) .endOfInput] ∧
      ∀ token ∈ front, token.kind ≠ .endOfInput := by
  induction splits with
  | last _ => exact ⟨[], rfl, List.forall_mem_nil _⟩
  | @piece before rest others piece kind reads _ inductionHypothesis =>
      obtain ⟨front, rfl, noEnd⟩ := inductionHypothesis
      refine ⟨.behind (before ++ piece.blanks) kind :: front, ?_, ?_⟩
      · rw [List.append_assoc, List.cons_append]
      · rw [List.forall_mem_cons]
        exact ⟨reads.ne_endOfInput, noEnd⟩

/-- The text is the pieces and the blanks behind them, with a piece for every token but the end. -/
theorem exists_pieces (splits : Splits before characters tokens) :
    ∃ (pieces : List Piece) (trailing : List Char),
      characters = pieces.flatMap Piece.characters ++ trailing ∧
        (∀ character ∈ trailing, Text.isBlank character = true) ∧
        tokens.length = pieces.length + 1 ∧
        ∀ index piece token, pieces[index]? = some piece → tokens[index]? = some token →
          piece.ReadsAs token.kind ∧
            token.start = byteCount
              (before ++ (pieces.take index).flatMap Piece.characters ++ piece.blanks) := by
  induction splits with
  | @last before blanks blank =>
      refine ⟨[], blanks, rfl, blank, rfl, ?_⟩
      intro index piece token isPiece
      cases isPiece
  | @piece before rest others piece kind reads _ inductionHypothesis =>
      obtain ⟨pieces, trailing, rfl, blank, sameLength, eachReads⟩ := inductionHypothesis
      refine ⟨piece :: pieces, trailing, ?_, blank, ?_, ?_⟩
      · rw [List.flatMap_cons, List.append_assoc]
      · rw [List.length_cons, List.length_cons, sameLength]
      · intro index other token isPiece isToken
        cases index with
        | zero =>
            cases isPiece
            cases isToken
            exact ⟨reads, by simp [Token.behind]⟩
        | succ index =>
            obtain ⟨otherReads, isStart⟩ := eachReads index other token isPiece isToken
            refine ⟨otherReads, ?_⟩
            rw [isStart, List.take_succ_cons, List.flatMap_cons, List.append_assoc before]

end Splits

/-- The tokens end with the only end of input, behind all bytes; they start at ascending
boundaries of characters, and count their columns up to there, which are words in a text that is
not too long; and the text splits into blanks and lexemes, each of which is its token alone. -/
structure CoversText (text : String) (tokens : List Token) : Prop where
  ended : ∃ front last, tokens = front ++ [last] ∧ last.kind = .endOfInput ∧
    last.start = text.utf8ByteSize ∧ ∀ token ∈ front, token.kind ≠ .endOfInput
  ascending : tokens.Pairwise fun earlier later => earlier.start < later.start
  placed : ∀ token ∈ tokens, ∃ before after : String, text = before ++ after ∧
    token.start = before.utf8ByteSize ∧ token.column = before.length + 1
  narrow : text.length < 2 ^ 32 - 1 → ∀ token ∈ tokens, token.column < 2 ^ 32
  split : ∃ (pieces : List Piece) (trailing : List Char),
    text.toList = pieces.flatMap Piece.characters ++ trailing ∧
      (∀ character ∈ trailing, Text.isBlank character = true) ∧
      tokens.length = pieces.length + 1 ∧
      ∀ index piece token, pieces[index]? = some piece → tokens[index]? = some token →
        piece.ReadsAs token.kind ∧
          token.start = byteCount ((pieces.take index).flatMap Piece.characters ++ piece.blanks)

theorem tokens_coverText (text : String) : CoversText text (tokens text) := by
  have splits : Splits [] text.toList (tokens text) := tokensFrom_splits rfl rfl text.toList
  have placed (token : Token) (listed : token ∈ tokens text) :
      ∃ before after : String, text = before ++ after ∧
        token.start = before.utf8ByteSize ∧ token.column = before.length + 1 := by
    obtain ⟨front, back, isSplit, isPlace⟩ := splits.placed token listed
    refine ⟨String.ofList front, String.ofList back, ?_, ?_, ?_⟩
    · rw [← String.ofList_append, ← isSplit, String.ofList_toList]
    · rw [isPlace]
      simp [Token.behind, byteCount_eq_utf8Len, String.utf8ByteSize_ofList]
    · rw [isPlace, String.length_ofList]
      rfl
  constructor
  · obtain ⟨front, isSplit, noEnd⟩ := splits.ended
    refine ⟨front, _, isSplit, rfl, ?_, noEnd⟩
    exact byteCount_toList text
  · exact splits.ascending
  · exact placed
  · intro short token listed
    obtain ⟨before, after, rfl, _, isColumn⟩ := placed token listed
    rw [String.length_append] at short
    omega
  · exact splits.exists_pieces

end Registrar.Marking
