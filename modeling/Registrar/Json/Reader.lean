import Registrar.Json.Basic
import Registrar.Json.Binary64

/-!
Contract: reading JSON text.

Owns: the grammar of JSON, with its blanks, escapes and numbers, and which
number a numeral stands for.

Does not own: what the values mean.
-/

set_option autoImplicit false

namespace Registrar.Json

/-! ## Blanks and keywords -/

/-- The blank characters between the parts of a text. -/
def isSeparatorBlank (character : Char) : Bool :=
  character == ' ' || character == '\n' || character == '\t' || character == '\r'

/-- The characters from the first one that is not blank. -/
def skipBlanks (characters : List Char) : List Char :=
  characters.dropWhile isSeparatorBlank

/-- What follows the expected characters. -/
def afterText? : List Char → List Char → Option (List Char)
  | [], characters => some characters
  | _ :: _, [] => none
  | expected :: others, character :: rest =>
      if expected == character then afterText? others rest else none

/-! ## Strings -/

/-- The value of a hexadecimal digit. -/
def hexDigit? (character : Char) : Option Nat :=
  if '0' ≤ character ∧ character ≤ '9' then some (character.toNat - 48)
  else if 'a' ≤ character ∧ character ≤ 'f' then some (character.toNat - 87)
  else if 'A' ≤ character ∧ character ≤ 'F' then some (character.toNat - 55)
  else none

/-- A part of a string: a character, or half of a surrogate pair. -/
inductive StringPart where
  | character (value : Char)
  | surrogate (unit : Nat)

/-- The part that an escape of four hexadecimal digits stands for. -/
def partOfUnit (unit : Nat) : StringPart :=
  if 0xD800 ≤ unit ∧ unit < 0xE000 then .surrogate unit else .character (Char.ofNat unit)

/-- The part that an escape of one letter stands for. -/
def simpleEscape? : Char → Option Char
  | '"' => some '"'
  | '\\' => some '\\'
  | '/' => some '/'
  | 'b' => some '\x08'
  | 'f' => some '\x0c'
  | 'n' => some '\n'
  | 'r' => some '\r'
  | 't' => some '\t'
  | _ => none

/-- The parts of a string up to its closing quotation mark, and what follows. -/
def readParts (read : List StringPart) : List Char → Option (List StringPart × List Char)
  | '"' :: rest => some (read.reverse, rest)
  | '\\' :: 'u' :: first :: second :: third :: fourth :: rest => do
      let unit := (((← hexDigit? first) * 16 + (← hexDigit? second)) * 16
        + (← hexDigit? third)) * 16 + (← hexDigit? fourth)
      readParts (partOfUnit unit :: read) rest
  | '\\' :: escape :: rest => do
      readParts (.character (← simpleEscape? escape) :: read) rest
  | character :: rest =>
      if character < ' ' || character == '\\' then none
      else readParts (.character character :: read) rest
  | [] => none

/-- The characters of the parts. Two halves of a surrogate pair are one
character, and a half alone is none. -/
def joinParts : List StringPart → Option (List Char)
  | [] => some []
  | .character value :: rest => (joinParts rest).map (value :: ·)
  | .surrogate high :: .surrogate low :: rest =>
      if high < 0xDC00 ∧ 0xDC00 ≤ low then
        (joinParts rest).map
          (Char.ofNat (0x10000 + (high - 0xD800) * 0x400 + (low - 0xDC00)) :: ·)
      else none
  | .surrogate _ :: _ => none

/-- A string whose opening quotation mark has been read: its text, if it has
one, and what follows. -/
def readString (characters : List Char) : Option (Option String × List Char) := do
  let (parts, rest) ← readParts [] characters
  return ((joinParts parts).map String.ofList, rest)

/-! ## Numbers -/

/-- The greatest natural number of 64 bits. -/
def largestNatural : Nat := (1 <<< 64) - 1

def digitValue (character : Char) : Nat := character.toNat - 48

/-- Adds digits to a significand as long as it fits 64 bits, and counts the
digits that were left out. Once one is left out, so are those after it. -/
def accumulate (significand : Nat) : List Char → Nat × Nat
  | [] => (significand, 0)
  | digit :: rest =>
      let next := significand * 10 + digitValue digit
      if next ≤ largestNatural then accumulate next rest
      else (significand, rest.length + 1)

/-- The decimal nearest to a significand times a power of ten, as a double. -/
def decimalOf? (negative : Bool) (significand : Nat) (power : Int) : Option Decimal :=
  (Binary64.ofScaled? significand power).map fun value =>
    let digits := value.shortest
    ⟨negative, digits.1, digits.2⟩

structure Numeral where
  negative : Bool
  whole : List Char
  fraction : List Char
  exponent : Option (Bool × List Char)

/-- The number that a numeral stands for, if a double can hold it. An exponent
beyond 32 bits makes a number zero, or too large. -/
def Numeral.number? (numeral : Numeral) : Option Number :=
  let (whole, wholeLeftOut) := accumulate 0 numeral.whole
  let (significand, fractionLeftOut) := accumulate whole numeral.fraction
  let power : Int := wholeLeftOut - (numeral.fraction.length - fractionLeftOut : Nat)
  match numeral.exponent with
  | none =>
      if numeral.fraction.isEmpty && wholeLeftOut == 0
          && (!numeral.negative || (whole != 0 && whole ≤ 1 <<< 63)) then
        some (if numeral.negative then .negative whole else .natural whole)
      else
        (decimalOf? numeral.negative significand power).map .decimal
  | some (exponentNegative, digits) =>
      let exponent := digits.foldl (fun value digit => value * 10 + digitValue digit) 0
      if 1 <<< 31 ≤ exponent then
        if significand != 0 && !exponentNegative then none
        else some (.decimal ⟨numeral.negative, 0, 0⟩)
      else
        let shifted : Int := if exponentNegative then power - exponent else power + exponent
        (decimalOf? numeral.negative significand shifted).map .decimal

/-- The fraction of a numeral, and what follows. A point needs a digit. -/
def readFraction : List Char → Option (List Char × List Char)
  | '.' :: rest =>
      let digits := rest.takeWhile Char.isDigit
      if digits.isEmpty then none else some (digits, rest.dropWhile Char.isDigit)
  | characters => some ([], characters)

def readExponentSign : List Char → Bool × List Char
  | '+' :: rest => (false, rest)
  | '-' :: rest => (true, rest)
  | characters => (false, characters)

/-- The exponent of a numeral, and what follows. An exponent needs a digit. -/
def readExponent (characters : List Char) : Option (Option (Bool × List Char) × List Char) :=
  match characters with
  | [] => some (none, [])
  | mark :: rest =>
      if mark == 'e' || mark == 'E' then
        let (negative, unsigned) := readExponentSign rest
        let digits := unsigned.takeWhile Char.isDigit
        if digits.isEmpty then none
        else some (some (negative, digits), unsigned.dropWhile Char.isDigit)
      else some (none, characters)

/-- A numeral after its sign, and what follows. A zero is the only digit before
the point if it is the first one. -/
def readNumeral (negative : Bool) (characters : List Char) : Option (Numeral × List Char) := do
  let whole := characters.takeWhile Char.isDigit
  if whole.isEmpty || (whole.head? == some '0' && 1 < whole.length) then none
  else
    let (fraction, afterFraction) ← readFraction (characters.dropWhile Char.isDigit)
    let (exponent, rest) ← readExponent afterFraction
    return (⟨negative, whole, fraction, exponent⟩, rest)

def readNumber (characters : List Char) : Option (Json × List Char) := do
  let (numeral, rest) ← match characters with
    | '-' :: unsigned => readNumeral true unsigned
    | _ => readNumeral false characters
  return ((numeral.number?.map number).getD unreadable, rest)

/-! ## Values -/

/-- The fields of an object, unless one of the keys has no text. -/
def objectOf (fields : List (Option String × Json)) : Json :=
  match fields.mapM fun entry => entry.1.map fun key => (key, entry.2) with
  | some readable => object readable
  | none => unreadable

mutual

/-- A value, and what follows. Each step of the budget reads a character. -/
def readValue : Nat → List Char → Option (Json × List Char)
  | 0, _ => none
  | budget + 1, characters =>
      match skipBlanks characters with
      | '"' :: rest => do
          let (text, rest) ← readString rest
          return ((text.map string).getD unreadable, rest)
      | '[' :: rest =>
          match skipBlanks rest with
          | ']' :: rest => some (array [], rest)
          | _ => do
              let (items, rest) ← readItems budget rest
              return (array items, rest)
      | '\x7b' :: rest =>
          match skipBlanks rest with
          | '\x7d' :: rest => some (object [], rest)
          | _ => do
              let (fields, rest) ← readFields budget rest
              return (objectOf fields, rest)
      | 't' :: rest => do return (bool true, ← afterText? ['r', 'u', 'e'] rest)
      | 'f' :: rest => do return (bool false, ← afterText? ['a', 'l', 's', 'e'] rest)
      | 'n' :: rest => do return (null, ← afterText? ['u', 'l', 'l'] rest)
      | other => readNumber other

/-- The items of an array up to its end, and what follows. -/
def readItems : Nat → List Char → Option (List Json × List Char)
  | 0, _ => none
  | budget + 1, characters => do
      let (item, rest) ← readValue budget characters
      match skipBlanks rest with
      | ',' :: rest =>
          let (items, rest) ← readItems budget rest
          return (item :: items, rest)
      | ']' :: rest => return ([item], rest)
      | _ => none

/-- The fields of an object up to its end, and what follows. -/
def readFields : Nat → List Char → Option (List (Option String × Json) × List Char)
  | 0, _ => none
  | budget + 1, characters =>
      match skipBlanks characters with
      | '"' :: rest => do
          let (key, rest) ← readString rest
          match skipBlanks rest with
          | ':' :: rest =>
              let (value, rest) ← readValue budget rest
              match skipBlanks rest with
              | ',' :: rest =>
                  let (fields, rest) ← readFields budget rest
                  return ((key, value) :: fields, rest)
              | '\x7d' :: rest => return ([(key, value)], rest)
              | _ => none
          | _ => none
      | _ => none

end

/-- The value that the text starts with, and what follows after blanks. -/
def parseFirst? (text : String) : Option (Json × List Char) := do
  let characters := text.toList
  let (value, rest) ← readValue (2 * characters.length + 2) characters
  return (value, skipBlanks rest)

/-- The value that the text holds, if it is one JSON value and nothing else. -/
def parse? (text : String) : Option Json := do
  let (value, rest) ← parseFirst? text
  if rest.isEmpty then some value else none

end Registrar.Json
