import Registrar.Json.Basic

/-!
Contract: values as MessagePack.

Owns: the bytes of a value, always the fewest that the format has for it.

Does not own: which values are written.
-/

set_option autoImplicit false

namespace Registrar.MessagePack

/-- The last so many bytes of a number, the most significant first. -/
def bytesOf (count number : Nat) : List UInt8 :=
  (List.range count).map fun index => (number >>> (8 * (count - 1 - index))).toUInt8

/-- A natural number of 64 bits. -/
def natural (value : Nat) : List UInt8 :=
  if value < 0x80 then [value.toUInt8]
  else if value < 1 <<< 8 then 0xcc :: bytesOf 1 value
  else if value < 1 <<< 16 then 0xcd :: bytesOf 2 value
  else if value < 1 <<< 32 then 0xce :: bytesOf 4 value
  else 0xcf :: bytesOf 8 value

/-- The negative integer with the magnitude, as a complement of two. -/
def negative (magnitude : Nat) : List UInt8 :=
  if magnitude ≤ 32 then bytesOf 1 ((1 <<< 8) - magnitude)
  else if magnitude ≤ 1 <<< 7 then 0xd0 :: bytesOf 1 ((1 <<< 8) - magnitude)
  else if magnitude ≤ 1 <<< 15 then 0xd1 :: bytesOf 2 ((1 <<< 16) - magnitude)
  else if magnitude ≤ 1 <<< 31 then 0xd2 :: bytesOf 4 ((1 <<< 32) - magnitude)
  else 0xd3 :: bytesOf 8 ((1 <<< 64) - magnitude)

/-- What comes before so many bytes of text. -/
def textHeader (size : Nat) : List UInt8 :=
  if size < 32 then [(0xa0 + size).toUInt8]
  else if size < 1 <<< 8 then 0xd9 :: bytesOf 1 size
  else if size < 1 <<< 16 then 0xda :: bytesOf 2 size
  else 0xdb :: bytesOf 4 size

/-- A text in UTF-8. -/
def text (value : String) : List UInt8 :=
  let bytes := value.toUTF8.toList
  textHeader bytes.length ++ bytes

/-- What comes before so many items. -/
def arrayHeader (size : Nat) : List UInt8 :=
  if size < 16 then [(0x90 + size).toUInt8]
  else if size < 1 <<< 16 then 0xdc :: bytesOf 2 size
  else 0xdd :: bytesOf 4 size

/-- What comes before so many fields. -/
def mapHeader (size : Nat) : List UInt8 :=
  if size < 16 then [(0x80 + size).toUInt8]
  else if size < 1 <<< 16 then 0xde :: bytesOf 2 size
  else 0xdf :: bytesOf 4 size

/-- A number. A decimal has no form of its own and is written as its text. -/
def number : Json.Number → List UInt8
  | .natural value => natural value
  | .negative magnitude => negative magnitude
  | .decimal value => text (toString value.significand ++ "e" ++ toString value.exponent)

mutual

/-- The bytes of a value. -/
def encode : Json → List UInt8
  | .null => [0xc0]
  | .bool false => [0xc2]
  | .bool true => [0xc3]
  | .number value => number value
  | .string value => text value
  | .array items => arrayHeader items.length ++ encodeItems items
  | .object fields => mapHeader fields.length ++ encodeFields fields
  | .unreadable => [0xc0]

/-- The bytes of the items of an array. -/
def encodeItems : List Json → List UInt8
  | [] => []
  | item :: rest => encode item ++ encodeItems rest

/-- The bytes of the fields of an object. -/
def encodeFields : List (String × Json) → List UInt8
  | [] => []
  | (key, value) :: rest => text key ++ encode value ++ encodeFields rest

end

end Registrar.MessagePack
