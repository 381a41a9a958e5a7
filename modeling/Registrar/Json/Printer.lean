import Registrar.Json.Basic

/-!
Contract: writing JSON text.

Owns: the text of a value, on one line or with one field or item a line.

Does not own: the order of fields, which is that of the value.
-/

set_option autoImplicit false

namespace Registrar.Json

/-! ## Strings -/

/-- The escape of a control character: a letter where there is one, and four
hexadecimal digits otherwise. -/
def controlEscape (character : Char) : List Char :=
  if character == '\x08' then ['\\', 'b']
  else if character == '\t' then ['\\', 't']
  else if character == '\n' then ['\\', 'n']
  else if character == '\x0c' then ['\\', 'f']
  else if character == '\r' then ['\\', 'r']
  else
    ['\\', 'u', '0', '0', Nat.digitChar (character.toNat / 16),
      Nat.digitChar (character.toNat % 16)]

/-- One character inside a string. -/
def escapeCharacter (character : Char) : List Char :=
  if character == '"' then ['\\', '"']
  else if character == '\\' then ['\\', '\\']
  else if character < ' ' then controlEscape character
  else [character]

/-- The text between quotation marks. -/
def stringText (text : String) : String :=
  String.ofList ('"' :: text.toList.flatMap escapeCharacter ++ ['"'])

/-! ## Numbers -/

def zeros (count : Nat) : String :=
  String.ofList (List.replicate count '0')

/-- A power of ten after the digits. It always has its sign. -/
def exponentText (power : Int) : String :=
  (if power < 0 then "e-" else "e+") ++ toString power.natAbs

/-- The digits of a decimal with its point. A point stands among the first
sixteen digits or up to five places before them, and otherwise after the first
digit with an exponent. -/
def Decimal.digitsText (decimal : Decimal) : String :=
  if decimal.significand = 0 then "0.0"
  else
    let digits := toString decimal.significand
    let characters := digits.toList
    let count := characters.length
    let point : Int := count + decimal.exponent
    if 0 ≤ decimal.exponent ∧ point ≤ 16 then
      digits ++ zeros decimal.exponent.toNat ++ ".0"
    else if 0 < point ∧ point ≤ 16 then
      String.ofList (characters.take point.toNat ++ '.' :: characters.drop point.toNat)
    else if -5 < point ∧ point ≤ 0 then
      "0." ++ zeros (-point).toNat ++ digits
    else
      let leading := String.ofList (characters.take 1)
      let others := String.ofList (characters.drop 1)
      leading ++ (if count = 1 then "" else "." ++ others) ++ exponentText (point - 1)

def Number.text : Number → String
  | natural value => toString value
  | negative magnitude => "-" ++ toString magnitude
  | decimal value => (if value.negative then "-" else "") ++ value.digitsText

/-! ## Values on one line -/

mutual

/-- The text of a value on one line, without blanks. -/
def compact : Json → String
  | null => "null"
  | bool value => if value then "true" else "false"
  | number value => value.text
  | string value => stringText value
  | array items => "[" ++ ",".intercalate (compactItems items) ++ "]"
  | object fields => "\x7b" ++ ",".intercalate (compactFields fields) ++ "\x7d"
  | unreadable => "null"

/-- The items of an array, each on one line. -/
def compactItems : List Json → List String
  | [] => []
  | item :: rest => compact item :: compactItems rest

/-- The fields of an object, each on one line. -/
def compactFields : List (String × Json) → List String
  | [] => []
  | (key, value) :: rest => (stringText key ++ ":" ++ compact value) :: compactFields rest

end

/-! ## Values on many lines -/

def newLine (level : Nat) : String :=
  String.ofList ('\n' :: List.replicate (2 * level) ' ')

/-- Texts on a line each, one level deeper than the brackets around them. Without
texts the brackets stay together. -/
def block (level : Nat) (opening closing : String) : List String → String
  | [] => opening ++ closing
  | texts =>
      let separator := newLine (level + 1)
      opening ++ separator ++ ("," ++ separator).intercalate texts ++ newLine level ++ closing

mutual

/-- The text of a value with each item and field on a line of its own, where
the value stands at the given level. Empty arrays and objects stay on one line. -/
def pretty (level : Nat) : Json → String
  | null => "null"
  | bool value => if value then "true" else "false"
  | number value => value.text
  | string value => stringText value
  | array items => block level "[" "]" (prettyItems (level + 1) items)
  | object fields => block level "\x7b" "\x7d" (prettyFields (level + 1) fields)
  | unreadable => "null"

/-- The items of an array, which stand at the given level. -/
def prettyItems (level : Nat) : List Json → List String
  | [] => []
  | item :: rest => pretty level item :: prettyItems level rest

/-- The fields of an object, whose values stand at the given level. -/
def prettyFields (level : Nat) : List (String × Json) → List String
  | [] => []
  | (key, value) :: rest =>
      (stringText key ++ ": " ++ pretty level value) :: prettyFields level rest

end

/-- The text of a value on many lines, two blanks a level. -/
def toPrettyText (value : Json) : String := pretty 0 value

end Registrar.Json
