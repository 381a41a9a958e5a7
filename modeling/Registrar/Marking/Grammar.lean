import Registrar.Marking.Token
import Registrar.Fault
import Registrar.Text.Quoted

/-!
Contract: annotation text as directives.

Owns: literals, directives as written, and the grammar by which a text holds
directives:

    annotation := (directive ("," directive)* ","?)?
    directive  := IDENTIFIER ("(" (literal ("," literal)* ","?)? ")")?
    literal    := STRING | UNSIGNED | "true" | "false" | "default" | IDENTIFIER

Does not own: which directives exist and which literals they take.
-/

set_option autoImplicit false

namespace Registrar.Marking

/-- One argument of a directive, as written. -/
inductive Literal where
  | string (value : String)
  | unsigned (value : Nat)
  | boolean (value : Bool)
  /-- The word that resets to what is inherited. -/
  | default
  | identifier (name : String)
  deriving DecidableEq

namespace Literal

def typeName : Literal → String
  | string _ => "string"
  | unsigned _ => "unsigned integer"
  | boolean _ => "boolean"
  | default => "default"
  | identifier _ => "identifier"

def text? : Literal → Option String
  | string value => some value
  | identifier name => some name
  | _ => none

/-- The literal as a reader sees it. -/
def text : Literal → String
  | string value => Text.quoted value
  | unsigned value => toString value
  | boolean value => if value then "true" else "false"
  | default => "default"
  | identifier name => name

end Literal

/-- A directive as written: its name, its arguments, and the column of its name. -/
structure Call where
  name : String
  arguments : List Literal := []
  column : Nat := 1
  deriving DecidableEq

/-! ## Parsing -/

def TokenKind.literal? : TokenKind → Option Literal
  | .string value => some (.string value)
  | .unsigned value => some (.unsigned value)
  | .keywordTrue => some (.boolean true)
  | .keywordFalse => some (.boolean false)
  | .keywordDefault => some .default
  | .identifier name => some (.identifier name)
  | _ => none

/-- A token stands where it cannot. An invalid one brings its own message. -/
def unexpected (token : Token) : Cause :=
  match token.kind with
  | .invalid message => .invalidToken message token.column
  | kind => .invalidToken ("unexpected " ++ kind.name) token.column

/-- The arguments of a directive after its opening parenthesis, and the tokens
after the closing one. -/
def parseArguments (directive : String) : List Token → Except Cause (List Literal × List Token)
  | [] => .error (.missingClosingParenthesis directive)
  | token :: rest =>
      match token.kind with
      | .closing => .ok ([], rest)
      | .endOfInput => .error (.missingClosingParenthesis directive)
      | kind =>
          match kind.literal?, rest with
          | none, _ => .error (unexpected token)
          | some _, [] => .error (.missingClosingParenthesis directive)
          | some literal, following :: others =>
              match following.kind with
              | .comma =>
                  match parseArguments directive others with
                  | .ok (literals, remaining) => .ok (literal :: literals, remaining)
                  | .error cause => .error cause
              | .closing => .ok ([literal], others)
              | .endOfInput => .error (.missingClosingParenthesis directive)
              | _ => .error (unexpected following)

/-- One directive whose first token is given, and the tokens after it. -/
def parseCall (first : Token) (rest : List Token) : Except Cause (Call × List Token) :=
  match first.kind with
  | .identifier name =>
      match rest with
      | ⟨.opening, _, _⟩ :: others =>
          match parseArguments name others with
          | .ok (literals, remaining) => .ok (⟨name, literals, first.column⟩, remaining)
          | .error cause => .error cause
      | _ => .ok (⟨name, [], first.column⟩, rest)
  | _ => .error (unexpected first)

theorem parseArguments_length (directive : String) (input : List Token)
    (literals : List Literal) (remaining : List Token)
    (parsed : parseArguments directive input = .ok (literals, remaining)) :
    remaining.length < input.length := by
  fun_induction parseArguments directive input generalizing literals remaining with
  | case1 => cases parsed
  | case2 => cases parsed; simp
  | case3 => cases parsed
  | case4 => cases parsed
  | case5 => cases parsed
  | case6 =>
      rename_i inner _ _ _ inductionHypothesis
      cases parsed
      have shorter := inductionHypothesis _ _ inner
      simp only [List.length_cons]
      omega
  | case7 => cases parsed
  | case8 => cases parsed; simp only [List.length_cons]; omega
  | case9 => cases parsed
  | case10 => cases parsed

theorem parseCall_length (first : Token) (rest : List Token) (call : Call)
    (remaining : List Token) (parsed : parseCall first rest = .ok (call, remaining)) :
    remaining.length ≤ rest.length := by
  unfold parseCall at parsed
  split at parsed
  · split at parsed
    · split at parsed
      · next others _ _ literals remaining' inner =>
          cases parsed
          have shorter := parseArguments_length _ _ _ _ inner
          simp only [List.length_cons]
          omega
      · cases parsed
    · cases parsed; exact Nat.le_refl _
  · cases parsed

/-- The directives of all tokens, separated by commas. -/
def parseCalls (input : List Token) : Except Cause (List Call) :=
  match input with
  | [] => .ok []
  | first :: rest =>
      match first.kind with
      | .endOfInput => .ok []
      | _ =>
          match _parsed : parseCall first rest with
          | .error cause => .error cause
          | .ok (call, remaining) =>
              match remaining with
              | [] => .ok [call]
              | following :: others =>
                  match following.kind with
                  | .comma =>
                      match parseCalls others with
                      | .ok calls => .ok (call :: calls)
                      | .error cause => .error cause
                  | .endOfInput => .ok [call]
                  | _ => .error (unexpected following)
termination_by input.length
decreasing_by
  have bound := parseCall_length first rest call (following :: others) _parsed
  simp only [List.length_cons] at bound ⊢
  omega

/-- The directives that the text holds. -/
def parse (text : String) : Except Cause (List Call) :=
  parseCalls (tokens text)

end Registrar.Marking
