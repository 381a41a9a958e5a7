import Registrar.Marking.Directive
import Registrar.Json.Printer

/-!
Contract: annotation payloads, as text or as a map.

Owns: the two forms in which a declaration carries directives, and the
directives that either holds.

Does not own: the meaning of the directives.
-/

set_option autoImplicit false

namespace Registrar.Marking

/-- What a declaration carries: annotation text, or a map from the names of
directives to their arguments, in ascending order of the names. -/
inductive Payload where
  | text (source : String)
  | map (entries : List (String × Json))
  deriving DecidableEq

namespace Payload

/-- The literal that a value in a map stands for. -/
def literal (directive : String) : Json → Except Cause Literal
  | .null => .ok .default
  | .bool value => .ok (.boolean value)
  | .string value => .ok (.string value)
  | .number (.natural value) => .ok (.unsigned value)
  | .number other =>
      .error (.badValue directive (other.text ++ " is not an unsigned integer"))
  | .array _ | .object _ | .unreadable =>
      .error (.badValue directive "nested lists and maps are not allowed")

/-- The literals that the values of a list stand for. -/
def literals (directive : String) : List Json → Except Cause (List Literal)
  | [] => .ok []
  | item :: rest => do
      let first ← literal directive item
      let others ← literals directive rest
      return first :: others

/-- The arguments that the value of an entry holds: those in a list, or one. -/
def arguments (directive : String) : Json → Except Cause (List Literal)
  | .array items => literals directive items
  | value => (literal directive value).map fun argument => [argument]

/-- The directive of an entry. A flag that is false is no directive. -/
def entryCall? (name : String) (value : Json) : Except Cause (Option Call) :=
  match DirectiveKind.ofName? name with
  | none => .error (.unknownDirective name)
  | some kind =>
      if kind.isFlag then
        match value with
        | .bool true | .null => .ok (some ⟨name, [], 1⟩)
        | .bool false => .ok none
        | _ => .error (.badValue name "expected a boolean")
      else (arguments name value).map fun arguments => some ⟨name, arguments, 1⟩

/-- The directives of all entries in order. -/
def entryCalls : List (String × Json) → Except Cause (List Call)
  | [] => .ok []
  | (name, value) :: rest => do
      let first ← entryCall? name value
      let others ← entryCalls rest
      return first.toList ++ others

/-- The directives as written that the payload holds. -/
def calls : Payload → Except Cause (List Call)
  | text source => parse source
  | map entries => entryCalls entries

/-! ## Encoding -/

/-- The payload that a value holds, if it is text or a map. -/
def ofJson? : Json → Option Payload
  | .string source => some (.text source)
  | .object fields => some (.map (Json.sortedFields fields))
  | _ => none

/-- The value that holds the payload. -/
def toJson : Payload → Json
  | text source => .string source
  | map entries => .object entries

end Payload

end Registrar.Marking
