import Registrar.Json.Basic

/-!
Contract: parts of JSON values.

Owns: reading texts, truth values, numbers, names, lists and fields out of a
value, which of them may be left out, and writing numbers and values that may be
missing.

Does not own: which fields a value has.
-/

set_option autoImplicit false

namespace Registrar

/-! ## Reading -/

namespace Decode

variable {α : Type}

def text? : Json → Option String
  | .string value => some value
  | _ => none

def bool? : Json → Option Bool
  | .bool value => some value
  | _ => none

def word? : Json → Option Nat
  | .number (.natural value) => if value < 1 <<< 32 then some value else none
  | _ => none

/-- A value or nothing. -/
def optional? (read : Json → Option α) : Json → Option (Option α)
  | .null => some none
  | value => (read value).map some

def items? (read : Json → Option α) : List Json → Option (List α)
  | [] => some []
  | item :: rest => do
      let first ← read item
      let others ← items? read rest
      return first :: others

def list? (read : Json → Option α) : Json → Option (List α)
  | .array items => items? read items
  | _ => none

/-- One of the values that have names. It is written as its name, or as an
object whose only field has this name and holds nothing. -/
def named? (values : List α) (name : α → String) : Json → Option α
  | .string written => values.find? fun value => name value == written
  | .object [(written, .null)] => values.find? fun value => name value == written
  | _ => none

/-- One of the values that have names, where an object without fields holds
nothing as well. What is known of a kind of declaration is read so. -/
def looselyNamed? (values : List α) (name : α → String) : Json → Option α
  | .object [(written, .object [])] => values.find? fun value => name value == written
  | value => named? values name value

/-- One of the values that have names, written as its name or its number. -/
def tag? (values : List α) (name : α → String) : Json → Option α
  | .string written => values.find? fun value => name value == written
  | .number (.natural number) => values[number]?
  | _ => none

def occurrences (fields : List (String × Json)) (key : String) : Nat :=
  (fields.filter fun entry => entry.1 == key).length

def noneRepeated (keys : List String) (fields : List (String × Json)) : Bool :=
  keys.all fun key => occurrences fields key ≤ 1

/-- The fields of a part with the given keys. A part is written as an object,
in which no such field is there twice, or as the list of its fields in order. -/
def part? (keys : List String) : Json → Option (List (String × Json))
  | .object fields => if noneRepeated keys fields then some fields else none
  | .array items => if items.length ≤ keys.length then some (keys.zip items) else none
  | _ => none

/-- The fields of a part whose list names them all. What an object may leave out
stands in the list all the same. -/
def wholePart? (keys : List String) : Json → Option (List (String × Json))
  | .array items => if items.length = keys.length then some (keys.zip items) else none
  | value => part? keys value

/-- A part without fields, which may be an object with any fields or the empty list. -/
def emptyPart? : Json → Option Unit
  | .object _ => some ()
  | .array [] => some ()
  | _ => none

def required? (fields : List (String × Json)) (key : String) (read : Json → Option α) :
    Option α :=
  (Json.field? fields key).bind read

/-- A field that has a value when it is not there. -/
def defaulted? (fields : List (String × Json)) (key : String) (read : Json → Option α)
    (absent : α) : Option α :=
  match Json.field? fields key with
  | none => some absent
  | some value => read value

end Decode

/-! ## Writing -/

namespace Json

/-- A natural number. -/
def nat (value : Nat) : Json := .number (.natural value)

def ofOption {α : Type} (write : α → Json) : Option α → Json
  | some value => write value
  | none => .null

def textOrNull : Option String → Json := ofOption .string

end Json

end Registrar
