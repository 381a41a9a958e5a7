import Registrar.Declaration.Encoding
import Registrar.Json.Reader
import Registrar.TranslationUnit.Basic

/-!
Contract: translation units as JSON.

Owns: reading a unit from JSON, with what can go wrong, and writing it.

Does not own: the fields of declarations.
-/

set_option autoImplicit false

namespace Registrar

inductive ReadFailure where
  /-- The text is no JSON, or the JSON is no list of declarations. -/
  | unreadable
  /-- The declarations are no unit. -/
  | invalid (violation : UnitViolation)
  deriving DecidableEq

/-- The cause that a reader is told. A violation found while reading is itself a
message about malformed input. -/
def ReadFailure.cause : ReadFailure → Cause
  | unreadable => .malformedInput "not a list of declarations"
  | invalid violation => .malformedInput violation.cause.message

namespace TranslationUnit

def declarationsOfJson? (value : Json) : Option (List Declaration) := do
  let fields ← Decode.part? ["declarations"] value
  Decode.required? fields "declarations" (Decode.list? Declaration.ofJson?)

def ofJson (value : Json) : Except ReadFailure TranslationUnit :=
  match declarationsOfJson? value with
  | none => .error .unreadable
  | some declarations => (ofDeclarations declarations).mapError .invalid

/-- The unit that a JSON text holds. Nothing may follow it, but what is wrong
with the unit itself comes first. -/
def ofText (text : String) : Except ReadFailure TranslationUnit := do
  match Json.parseFirst? text with
  | none => .error .unreadable
  | some (value, rest) =>
      let unit ← ofJson value
      if rest.isEmpty then .ok unit else .error .unreadable

def toJson (unit : TranslationUnit) : Json :=
  .object [("declarations", .array (unit.declarations.map Declaration.toJson))]

/-- The unit as JSON text, one field a line. -/
def toText (unit : TranslationUnit) : String :=
  unit.toJson.toPrettyText

end TranslationUnit

end Registrar
