import Registrar.Text.Blank

/-!
Contract: the tokens of annotation text.

Owns: the tokens, and how a text splits into them. Splitting never fails: what
is no token becomes an invalid one, which says why.

Does not own: which sequences of tokens are annotations.
-/

set_option autoImplicit false

namespace Registrar.Marking

/-- The kinds of tokens, with their values. -/
inductive TokenKind where
  | opening
  | closing
  | comma
  | keywordTrue
  | keywordFalse
  | keywordDefault
  | unsigned (value : Nat)
  | string (value : String)
  | identifier (name : String)
  | endOfInput
  | invalid (message : String)
  deriving DecidableEq

/-- What a reader calls the kind. -/
def TokenKind.name : TokenKind → String
  | opening => "'('"
  | closing => "')'"
  | comma => "','"
  | keywordTrue => "true"
  | keywordFalse => "false"
  | keywordDefault => "default"
  | unsigned _ => "unsigned integer"
  | string _ => "string"
  | identifier _ => "identifier"
  | endOfInput => "end of input"
  | invalid _ => "error"

/-- A token, the byte at which it starts, and the column of its first
character, counted from one. -/
structure Token where
  kind : TokenKind
  start : Nat
  column : Nat
  deriving DecidableEq

/-! ## One token -/

/-- A token that was read: its kind, its characters, and those after it. -/
structure Reading where
  kind : TokenKind
  lexeme : List Char
  rest : List Char

/-- The reading with further characters in front of its lexeme. -/
def Reading.after (characters : List Char) (reading : Reading) : Reading :=
  { reading with lexeme := characters ++ reading.lexeme }

/-- What a backslash and the character stand for inside a string. -/
def escaped? : Char → Option Char
  | '"' => some '"'
  | '\\' => some '\\'
  | 'n' => some '\n'
  | 't' => some '\t'
  | _ => none

/-- Reads the rest of a string, given its value so far in reverse. An escape
that does not exist ends it. -/
def readString (value : List Char) : List Char → Reading
  | [] => ⟨.invalid "unterminated string", [], []⟩
  | '"' :: rest => ⟨.string (String.ofList value.reverse), ['"'], rest⟩
  | ['\\'] => ⟨.invalid "unterminated string", ['\\'], []⟩
  | '\\' :: character :: rest =>
      match escaped? character with
      | some meant => (readString (meant :: value) rest).after ['\\', character]
      | none =>
          ⟨.invalid ("invalid escape: \\" ++ character.toString), ['\\', character], rest⟩
  | character :: rest => (readString (character :: value) rest).after [character]

def isNameCharacter (character : Char) : Bool :=
  character.isAlphanum || character == '_'

def decimalValue (digits : List Char) : Nat :=
  digits.foldl (fun value digit => 10 * value + (digit.toNat - '0'.toNat)) 0

/-- A number is digits only and fits 64 bits. -/
def numberKind (characters : List Char) : TokenKind :=
  if characters.all Char.isDigit && decimalValue characters < 1 <<< 64 then
    .unsigned (decimalValue characters)
  else .invalid ("invalid number: " ++ String.ofList characters)

/-- A name is an identifier, with three exceptions. -/
def nameKind (characters : List Char) : TokenKind :=
  match String.ofList characters with
  | "true" => .keywordTrue
  | "false" => .keywordFalse
  | "default" => .keywordDefault
  | name => .identifier name

/-- Reads the token that starts with a character that is not blank. -/
def readToken (first : Char) (rest : List Char) : Reading :=
  if first == '(' then ⟨.opening, [first], rest⟩
  else if first == ')' then ⟨.closing, [first], rest⟩
  else if first == ',' then ⟨.comma, [first], rest⟩
  else if first == '"' then (readString [] rest).after [first]
  else if isNameCharacter first then
    let characters := first :: rest.takeWhile isNameCharacter
    let kind := if first.isDigit then numberKind characters else nameKind characters
    ⟨kind, characters, rest.dropWhile isNameCharacter⟩
  else ⟨.invalid ("unexpected character: " ++ first.toString), [first], rest⟩

theorem readString_covers (value characters : List Char) :
    (readString value characters).lexeme ++ (readString value characters).rest
      = characters := by
  fun_induction readString value characters with
  | case1 => rfl
  | case2 => rfl
  | case3 => rfl
  | case4 value character rest meant _ inductionHypothesis =>
      simpa [Reading.after] using inductionHypothesis
  | case5 => rfl
  | case6 value character rest _ _ _ inductionHypothesis =>
      simpa [Reading.after] using inductionHypothesis

theorem readToken_covers (first : Char) (rest : List Char) :
    (readToken first rest).lexeme ++ (readToken first rest).rest = first :: rest := by
  unfold readToken
  split
  · rfl
  split
  · rfl
  split
  · rfl
  split
  · simp [Reading.after, readString_covers]
  split
  · simp [List.takeWhile_append_dropWhile]
  · rfl

theorem readToken_lexeme_ne_nil (first : Char) (rest : List Char) :
    (readToken first rest).lexeme ≠ [] := by
  unfold readToken
  repeat' split
  all_goals simp [Reading.after]

theorem readToken_rest_length (first : Char) (rest : List Char) :
    (readToken first rest).rest.length < (first :: rest).length := by
  have covers := congrArg List.length (readToken_covers first rest)
  have nonempty := List.length_pos_iff.mpr (readToken_lexeme_ne_nil first rest)
  rw [List.length_append] at covers
  omega

/-! ## All tokens -/

/-- The number of bytes that the characters take. -/
def byteCount (characters : List Char) : Nat :=
  characters.foldl (fun count character => count + character.utf8Size) 0

/-- The tokens of the characters, which start at the given byte and column. -/
def tokensFrom (start column : Nat) (characters : List Char) : List Token :=
  let blanks := characters.takeWhile Text.isBlank
  let tokenStart := start + byteCount blanks
  let tokenColumn := column + blanks.length
  match _remaining : characters.dropWhile Text.isBlank with
  | [] => [⟨.endOfInput, tokenStart, tokenColumn⟩]
  | first :: rest =>
      let reading := readToken first rest
      ⟨reading.kind, tokenStart, tokenColumn⟩
        :: tokensFrom (tokenStart + byteCount reading.lexeme)
            (tokenColumn + reading.lexeme.length) reading.rest
termination_by characters.length
decreasing_by
  have shorter := readToken_rest_length first rest
  have suffix := (List.dropWhile_sublist Text.isBlank (l := characters)).length_le
  rw [_remaining] at suffix
  omega

/-- The tokens of the text. The last one is the end of input. -/
def tokens (text : String) : List Token :=
  tokensFrom 0 1 text.toList

end Registrar.Marking
