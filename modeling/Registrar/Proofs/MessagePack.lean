import Mathlib
import Registrar.MessagePack
import Registrar.Proofs.Json.Reader

/-!
Contract: values that their bytes tell apart.

Owns: which values the format has a form for, and that of two such values neither has the bytes of
the other, whatever follows.

Does not own: reading whole values.

The first bytes of a value are its heading: what sort of value it is, the number that it is, or how
many bytes, items or fields follow. A heading can be read without a look at what follows it.
-/

set_option autoImplicit false

namespace Registrar.MessagePack

/-! ## Numbers of several bytes -/

def valueOf (bytes : List UInt8) : Nat :=
  bytes.foldl (fun value byte => value * 256 + byte.toNat) 0

theorem length_bytesOf (count number : Nat) : (bytesOf count number).length = count := by
  rw [bytesOf, List.length_map, List.length_range]

theorem bytesOf_succ (count number : Nat) :
    bytesOf (count + 1) number = (number >>> (8 * count)).toUInt8 :: bytesOf count number := by
  rw [bytesOf, List.range_succ_eq_map, List.map_cons, List.map_map, bytesOf]
  congr 1
  refine List.map_congr_left fun index _ => ?_
  rw [Function.comp_apply, show count + 1 - 1 - (index + 1) = count - 1 - index by omega]

theorem foldl_bytesOf (count number value : Nat) :
    (bytesOf count number).foldl (fun value byte => value * 256 + byte.toNat) value =
      value * 256 ^ count + number % 256 ^ count := by
  induction count generalizing value with
  | zero => simp [bytesOf, Nat.mod_one]
  | succ count inductionHypothesis =>
      have isByte : (number >>> (8 * count)).toUInt8.toNat = number / 256 ^ count % 256 := by
        rw [UInt8.toNat_ofNat', Nat.shiftRight_eq_div_pow, Nat.pow_mul]
      rw [bytesOf_succ, List.foldl_cons, inductionHypothesis, isByte, Nat.mod_pow_succ]
      ring

theorem valueOf_bytesOf {count number : Nat} (fits : number < 256 ^ count) :
    valueOf (bytesOf count number) = number := by
  rw [valueOf, foldl_bytesOf, zero_mul, zero_add, Nat.mod_eq_of_lt fits]

/-! ## Headings -/

/-- What the first bytes of a value say. -/
inductive Heading where
  | null
  | bool (value : Bool)
  | natural (value : Nat)
  | negative (magnitude : Nat)
  | text (size : Nat)
  | array (size : Nat)
  | map (size : Nat)
  deriving DecidableEq

namespace Heading

def bytes : Heading → List UInt8
  | null => [0xc0]
  | bool false => [0xc2]
  | bool true => [0xc3]
  | natural value => MessagePack.natural value
  | negative magnitude => MessagePack.negative magnitude
  | text size => textHeader size
  | array size => arrayHeader size
  | map size => mapHeader size

/-- Integers have 64 bits with their sign, and sizes have 32. -/
def Fits : Heading → Prop
  | null | bool _ => True
  | natural value => value < 1 <<< 64
  | negative magnitude => 0 < magnitude ∧ magnitude ≤ 1 <<< 63
  | text size | array size | map size => size < 1 <<< 32

/-- Reads a number of several bytes. -/
def readSeveral (count : Nat) (make : Nat → Heading) (bytes : List UInt8) :
    Option (Heading × List UInt8) :=
  some (make (valueOf (bytes.take count)), bytes.drop count)

/-- Reads a heading, which its first byte tells the length of. -/
def read : List UInt8 → Option (Heading × List UInt8)
  | [] => none
  | lead :: rest =>
      if lead.toNat < 0x80 then some (natural lead.toNat, rest)
      else if lead.toNat < 0x90 then some (map (lead.toNat - 0x80), rest)
      else if lead.toNat < 0xa0 then some (array (lead.toNat - 0x90), rest)
      else if lead.toNat < 0xc0 then some (text (lead.toNat - 0xa0), rest)
      else if 0xe0 ≤ lead.toNat then some (negative (256 - lead.toNat), rest)
      else
        match lead.toNat with
        | 0xc0 => some (null, rest)
        | 0xc2 => some (bool false, rest)
        | 0xc3 => some (bool true, rest)
        | 0xcc => readSeveral 1 natural rest
        | 0xcd => readSeveral 2 natural rest
        | 0xce => readSeveral 4 natural rest
        | 0xcf => readSeveral 8 natural rest
        | 0xd0 => readSeveral 1 (fun value => negative ((1 <<< 8) - value)) rest
        | 0xd1 => readSeveral 2 (fun value => negative ((1 <<< 16) - value)) rest
        | 0xd2 => readSeveral 4 (fun value => negative ((1 <<< 32) - value)) rest
        | 0xd3 => readSeveral 8 (fun value => negative ((1 <<< 64) - value)) rest
        | 0xd9 => readSeveral 1 text rest
        | 0xda => readSeveral 2 text rest
        | 0xdb => readSeveral 4 text rest
        | 0xdc => readSeveral 2 array rest
        | 0xdd => readSeveral 4 array rest
        | 0xde => readSeveral 2 map rest
        | 0xdf => readSeveral 4 map rest
        | _ => none

theorem readSeveral_bytesOf {count number : Nat} (fits : number < 256 ^ count)
    (make : Nat → Heading) (rest : List UInt8) :
    readSeveral count make (bytesOf count number ++ rest) = some (make number, rest) := by
  rw [readSeveral, List.take_left' (length_bytesOf count number),
    List.drop_left' (length_bytesOf count number), valueOf_bytesOf fits]

theorem toNat_toUInt8 {number : Nat} (fits : number < 256) : number.toUInt8.toNat = number := by
  rw [UInt8.toNat_ofNat', Nat.mod_eq_of_lt fits]

theorem read_natural {value : Nat} (fits : value < 1 <<< 64) (rest : List UInt8) :
    read (MessagePack.natural value ++ rest) = some (natural value, rest) := by
  unfold MessagePack.natural
  split_ifs with one two three four
  · rw [List.singleton_append, read, toNat_toUInt8 (by omega), if_pos one]
  · exact readSeveral_bytesOf (by omega) natural rest
  · exact readSeveral_bytesOf (by omega) natural rest
  · exact readSeveral_bytesOf (by omega) natural rest
  · exact readSeveral_bytesOf (by omega) natural rest

theorem read_negative {magnitude : Nat} (positive : 0 < magnitude) (fits : magnitude ≤ 1 <<< 63)
    (rest : List UInt8) :
    read (MessagePack.negative magnitude ++ rest) = some (negative magnitude, rest) := by
  have several {count bound : Nat} (isBound : 256 ^ count = bound) (within : magnitude ≤ bound) :
      readSeveral count (fun value => negative (bound - value))
        (bytesOf count (bound - magnitude) ++ rest) = some (negative magnitude, rest) := by
    rw [readSeveral_bytesOf (by omega), Nat.sub_sub_self within]
  unfold MessagePack.negative
  split_ifs with one two three four
  · have isByte : bytesOf 1 ((1 <<< 8) - magnitude) = [((1 <<< 8) - magnitude).toUInt8] := rfl
    have isLead := toNat_toUInt8 (show (1 <<< 8) - magnitude < 256 by omega)
    rw [isByte, List.singleton_append, read, isLead, if_neg (by omega), if_neg (by omega),
      if_neg (by omega), if_neg (by omega), if_pos (by omega),
      show 256 - ((1 <<< 8) - magnitude) = magnitude by omega]
  · exact several (by decide) (by omega)
  · exact several (by decide) (by omega)
  · exact several (by decide) (by omega)
  · exact several (by decide) (by omega)

theorem read_text {size : Nat} (fits : size < 1 <<< 32) (rest : List UInt8) :
    read (textHeader size ++ rest) = some (text size, rest) := by
  unfold textHeader
  split_ifs with one two three
  · have isLead := toNat_toUInt8 (show 0xa0 + size < 256 by omega)
    rw [List.singleton_append, read, isLead, if_neg (by omega), if_neg (by omega),
      if_neg (by omega), if_pos (by omega), Nat.add_sub_cancel_left]
  · exact readSeveral_bytesOf (by omega) text rest
  · exact readSeveral_bytesOf (by omega) text rest
  · exact readSeveral_bytesOf (by omega) text rest

theorem read_array {size : Nat} (fits : size < 1 <<< 32) (rest : List UInt8) :
    read (arrayHeader size ++ rest) = some (array size, rest) := by
  unfold arrayHeader
  split_ifs with one two
  · have isLead := toNat_toUInt8 (show 0x90 + size < 256 by omega)
    rw [List.singleton_append, read, isLead, if_neg (by omega), if_neg (by omega),
      if_pos (by omega), Nat.add_sub_cancel_left]
  · exact readSeveral_bytesOf (by omega) array rest
  · exact readSeveral_bytesOf (by omega) array rest

theorem read_map {size : Nat} (fits : size < 1 <<< 32) (rest : List UInt8) :
    read (mapHeader size ++ rest) = some (map size, rest) := by
  unfold mapHeader
  split_ifs with one two
  · have isLead := toNat_toUInt8 (show 0x80 + size < 256 by omega)
    rw [List.singleton_append, read, isLead, if_neg (by omega), if_pos (by omega),
      Nat.add_sub_cancel_left]
  · exact readSeveral_bytesOf (by omega) map rest
  · exact readSeveral_bytesOf (by omega) map rest

/-- A heading is read from its bytes, whatever follows them. -/
theorem read_bytes {heading : Heading} (fits : heading.Fits) (rest : List UInt8) :
    read (heading.bytes ++ rest) = some (heading, rest) := by
  cases heading with
  | null => rfl
  | bool value => cases value <;> rfl
  | natural value => exact read_natural fits rest
  | negative magnitude => exact read_negative fits.1 fits.2 rest
  | text size => exact read_text fits rest
  | array size => exact read_array fits rest
  | map size => exact read_map fits rest

/-- No heading is the start of another. -/
theorem bytes_inj {left right : Heading} (leftFits : left.Fits) (rightFits : right.Fits)
    {rest others : List UInt8} (same : left.bytes ++ rest = right.bytes ++ others) :
    left = right ∧ rest = others := by
  have isRead := read_bytes leftFits rest
  rw [same, read_bytes rightFits, Option.some.injEq, Prod.mk.injEq] at isRead
  exact ⟨isRead.1.symm, isRead.2.symm⟩

end Heading

/-! ## Texts -/

/-- The bytes are read one by one from the index on. -/
theorem loop_toList (bytes : ByteArray) (index : Nat) (read : List UInt8) :
    ByteArray.toList.loop bytes index read = read.reverse ++ bytes.data.toList.drop index := by
  induction index, read using ByteArray.toList.loop.induct bytes with
  | case1 index read inside inductionHypothesis =>
      have inList : index < bytes.data.toList.length := inside
      have isByte : bytes.get! index = bytes.data.toList[index] := getElem!_pos bytes.data index inside
      rw [ByteArray.toList.loop, if_pos inside, inductionHypothesis, List.reverse_cons, isByte,
        List.append_assoc, List.singleton_append, List.getElem_cons_drop]
  | case2 index read outside =>
      have outsideList : bytes.data.toList.length ≤ index := Nat.le_of_not_lt outside
      rw [ByteArray.toList.loop, if_neg outside, List.drop_of_length_le outsideList,
        List.append_nil]

theorem toList_eq (bytes : ByteArray) : bytes.toList = bytes.data.toList :=
  loop_toList bytes 0 []

theorem length_toUTF8 (value : String) : value.toUTF8.toList.length = value.utf8ByteSize := by
  rw [toList_eq, String.toUTF8_eq_toByteArray]
  exact String.size_toByteArray

theorem toUTF8_inj {left right : String} (same : left.toUTF8.toList = right.toUTF8.toList) :
    left = right := by
  rw [toList_eq, toList_eq, Array.toList_inj] at same
  exact String.toByteArray_inj.mp (ByteArray.ext same)

/-- The size of a text, and its bytes. -/
theorem text_eq (value : String) :
    text value = (Heading.text value.utf8ByteSize).bytes ++ value.toUTF8.toList := by
  rw [text, length_toUTF8]
  rfl

theorem text_inj {left right : String} (leftFits : left.utf8ByteSize < 1 <<< 32)
    (rightFits : right.utf8ByteSize < 1 <<< 32) {rest others : List UInt8}
    (same : text left ++ rest = text right ++ others) : left = right ∧ rest = others := by
  rw [text_eq, text_eq, List.append_assoc, List.append_assoc] at same
  obtain ⟨sameHeading, sameBytes⟩ :=
    @Heading.bytes_inj (.text left.utf8ByteSize) (.text right.utf8ByteSize) leftFits rightFits _ _
      same
  have sameLength : left.toUTF8.toList.length = right.toUTF8.toList.length := by
    rw [length_toUTF8, length_toUTF8, Heading.text.inj sameHeading]
  obtain ⟨sameText, sameRest⟩ := List.append_inj sameBytes sameLength
  exact ⟨toUTF8_inj sameText, sameRest⟩

/-! ## Values -/

mutual

/-- The value has a form: its numbers are integers, and texts, lists and objects have sizes of
32 bits. -/
def fits : Json → Bool
  | .number value => value.isWellFormed && value.isInteger
  | .string value => value.utf8ByteSize < 1 <<< 32
  | .array items => items.length < 1 <<< 32 && itemsFit items
  | .object fields => fields.length < 1 <<< 32 && fieldsFit fields
  | .unreadable => false
  | _ => true

def itemsFit : List Json → Bool
  | [] => true
  | item :: rest => fits item && itemsFit rest

def fieldsFit : List (String × Json) → Bool
  | [] => true
  | (key, value) :: rest => key.utf8ByteSize < 1 <<< 32 && fits value && fieldsFit rest

end

/-- The heading of a value. -/
def headingOf : Json → Heading
  | .null | .unreadable => .null
  | .bool value => .bool value
  | .number (.natural value) => .natural value
  | .number (.negative magnitude) => .negative magnitude
  | .number (.decimal _) => .null
  | .string value => .text value.utf8ByteSize
  | .array items => .array items.length
  | .object fields => .map fields.length

/-- What follows the heading of a value. -/
def bodyOf : Json → List UInt8
  | .string value => value.toUTF8.toList
  | .array items => encodeItems items
  | .object fields => encodeFields fields
  | _ => []

theorem encode_eq {value : Json} (isFit : fits value = true) :
    encode value = (headingOf value).bytes ++ bodyOf value := by
  cases value with
  | null => rfl
  | bool value => cases value <;> rfl
  | number value =>
      rw [bodyOf, List.append_nil]
      cases value with
      | natural value => rfl
      | negative magnitude => rfl
      | decimal value => simp [fits, Json.Number.isInteger] at isFit
      all_goals nofun
  | string value => exact text_eq value
  | array items => rfl
  | object fields => rfl
  | unreadable => cases isFit

theorem headingOf_fits {value : Json} (isFit : fits value = true) : (headingOf value).Fits := by
  cases value with
  | null | bool _ | unreadable => trivial
  | number value =>
      cases value with
      | natural value =>
          rw [fits, Bool.and_eq_true, Json.Number.isWellFormed, decide_eq_true_iff] at isFit
          exact isFit.1
      | negative magnitude =>
          rw [fits, Bool.and_eq_true, Json.Number.isWellFormed, Bool.and_eq_true,
            decide_eq_true_iff, decide_eq_true_iff] at isFit
          exact isFit.1
      | decimal value => trivial
  | string value =>
      rw [fits, decide_eq_true_iff] at isFit
      exact isFit
  | array items =>
      rw [fits, Bool.and_eq_true, decide_eq_true_iff] at isFit
      exact isFit.1
  | object fields =>
      rw [fits, Bool.and_eq_true, decide_eq_true_iff] at isFit
      exact isFit.1

/-- Values with equal bytes have one heading, and equal bytes behind it. -/
theorem heading_and_body {left right : Json} (leftFits : fits left = true)
    (rightFits : fits right = true) {rest others : List UInt8}
    (same : encode left ++ rest = encode right ++ others) :
    headingOf left = headingOf right ∧ bodyOf left ++ rest = bodyOf right ++ others := by
  rw [encode_eq leftFits, encode_eq rightFits, List.append_assoc, List.append_assoc] at same
  exact Heading.bytes_inj (headingOf_fits leftFits) (headingOf_fits rightFits) same

/-- The value that a heading is the whole of. -/
def Heading.value? : Heading → Option Json
  | null => some .null
  | bool value => some (.bool value)
  | natural value => some (.number (.natural value))
  | negative magnitude => some (.number (.negative magnitude))
  | text _ | array _ | map _ => none

/-- Whether the value is told by its heading alone. -/
def isScalar : Json → Bool
  | .string _ | .array _ | .object _ => false
  | _ => true

theorem value?_headingOf {value : Json} (isFit : fits value = true) :
    (headingOf value).value? = if isScalar value = true then some value else none := by
  cases value with
  | number value =>
      cases value with
      | decimal value => simp [fits, Json.Number.isInteger] at isFit
      | _ => rfl
  | unreadable => cases isFit
  | _ => rfl

theorem encode_inj_of_isScalar {left right : Json} (scalar : isScalar left = true)
    (leftFits : fits left = true) (rightFits : fits right = true) {rest others : List UInt8}
    (same : encode left ++ rest = encode right ++ others) : left = right ∧ rest = others := by
  obtain ⟨sameHeading, sameBody⟩ := heading_and_body leftFits rightFits same
  have isValue := value?_headingOf rightFits
  rw [← sameHeading, value?_headingOf leftFits, if_pos scalar] at isValue
  split_ifs at isValue
  · rw [Option.some.injEq] at isValue
    rw [← isValue] at sameBody
    exact ⟨isValue, List.append_cancel_left sameBody⟩

mutual

/-- The bytes of a value are the start of those of no other. -/
theorem encode_inj : ∀ {left right : Json} {rest others : List UInt8}, fits left = true →
    fits right = true → encode left ++ rest = encode right ++ others →
    left = right ∧ rest = others
  | .null, _, _, _, leftFits, rightFits, same =>
      encode_inj_of_isScalar rfl leftFits rightFits same
  | .bool _, _, _, _, leftFits, rightFits, same =>
      encode_inj_of_isScalar rfl leftFits rightFits same
  | .number _, _, _, _, leftFits, rightFits, same =>
      encode_inj_of_isScalar rfl leftFits rightFits same
  | .unreadable, _, _, _, leftFits, _, _ => by cases leftFits
  | .string left, right, rest, others, leftFits, rightFits, same => by
      obtain ⟨sameHeading, _⟩ := heading_and_body leftFits rightFits same
      cases right with
      | string right =>
          rw [fits, decide_eq_true_iff] at leftFits rightFits
          exact (text_inj leftFits rightFits same).imp_left (congrArg Json.string)
      | number value => cases value <;> cases sameHeading
      | _ => cases sameHeading
  | .array lefts, right, rest, others, leftFits, rightFits, same => by
      obtain ⟨sameHeading, sameBody⟩ := heading_and_body leftFits rightFits same
      cases right with
      | array rights =>
          rw [fits, Bool.and_eq_true] at leftFits rightFits
          have sameItems := encodeItems_inj (Heading.array.inj sameHeading) leftFits.2 rightFits.2
            sameBody
          exact sameItems.imp_left (congrArg Json.array)
      | number value => cases value <;> cases sameHeading
      | _ => cases sameHeading
  | .object lefts, right, rest, others, leftFits, rightFits, same => by
      obtain ⟨sameHeading, sameBody⟩ := heading_and_body leftFits rightFits same
      cases right with
      | object rights =>
          rw [fits, Bool.and_eq_true] at leftFits rightFits
          have sameFields := encodeFields_inj (Heading.map.inj sameHeading) leftFits.2 rightFits.2
            sameBody
          exact sameFields.imp_left (congrArg Json.object)
      | number value => cases value <;> cases sameHeading
      | _ => cases sameHeading

theorem encodeItems_inj : ∀ {lefts rights : List Json} {rest others : List UInt8},
    lefts.length = rights.length → itemsFit lefts = true → itemsFit rights = true →
    encodeItems lefts ++ rest = encodeItems rights ++ others → lefts = rights ∧ rest = others
  | [], [], _, _, _, _, _, same => ⟨rfl, same⟩
  | left :: lefts, right :: rights, rest, others, sameLength, leftsFit, rightsFit, same => by
      rw [itemsFit, Bool.and_eq_true] at leftsFit rightsFit
      rw [encodeItems, encodeItems, List.append_assoc, List.append_assoc] at same
      obtain ⟨rfl, sameRest⟩ := encode_inj leftsFit.1 rightsFit.1 same
      obtain ⟨rfl, rfl⟩ :=
        encodeItems_inj (Nat.succ.inj sameLength) leftsFit.2 rightsFit.2 sameRest
      exact ⟨rfl, rfl⟩

theorem encodeFields_inj : ∀ {lefts rights : List (String × Json)} {rest others : List UInt8},
    lefts.length = rights.length → fieldsFit lefts = true → fieldsFit rights = true →
    encodeFields lefts ++ rest = encodeFields rights ++ others → lefts = rights ∧ rest = others
  | [], [], _, _, _, _, _, same => ⟨rfl, same⟩
  | (leftKey, left) :: lefts, (rightKey, right) :: rights, rest, others, sameLength, leftsFit,
      rightsFit, same => by
      simp only [fieldsFit, Bool.and_eq_true, decide_eq_true_iff] at leftsFit rightsFit
      simp only [encodeFields, List.append_assoc] at same
      obtain ⟨rfl, sameValue⟩ := text_inj leftsFit.1.1 rightsFit.1.1 same
      obtain ⟨rfl, sameRest⟩ := encode_inj leftsFit.1.2 rightsFit.1.2 sameValue
      obtain ⟨rfl, rfl⟩ :=
        encodeFields_inj (Nat.succ.inj sameLength) leftsFit.2 rightsFit.2 sameRest
      exact ⟨rfl, rfl⟩

end

/-- No two values that have a form have the same one. -/
theorem eq_of_encode_eq {left right : Json} (leftFits : fits left = true)
    (rightFits : fits right = true) (same : encode left = encode right) : left = right :=
  (encode_inj leftFits rightFits (congrArg (· ++ []) same)).1

end Registrar.MessagePack
