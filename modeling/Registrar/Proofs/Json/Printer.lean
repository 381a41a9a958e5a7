import Mathlib
import Registrar.Json.Printer

/-!
Contract: the characters of JSON text.

Owns: the characters that are printed for a value on many lines.

Does not own: which value they are read as.
-/

set_option autoImplicit false

namespace Registrar.Json

def newLineCharacters (level : Nat) : List Char := '\n' :: List.replicate (2 * level) ' '

def stringCharacters (text : String) : List Char :=
  '"' :: text.toList.flatMap escapeCharacter ++ ['"']

/-- Parts on a line each between brackets, which stay together without parts. -/
def blockCharacters (level : Nat) (opening closing : Char) : List (List Char) → List Char
  | [] => [opening, closing]
  | parts =>
      opening :: newLineCharacters (level + 1)
        ++ (',' :: newLineCharacters (level + 1)).intercalate parts
        ++ newLineCharacters level ++ [closing]

mutual

def characters (level : Nat) : Json → List Char
  | null => ['n', 'u', 'l', 'l']
  | bool value => if value then ['t', 'r', 'u', 'e'] else ['f', 'a', 'l', 's', 'e']
  | number value => value.text.toList
  | string value => stringCharacters value
  | array items => blockCharacters level '[' ']' (itemsCharacters (level + 1) items)
  | object fields => blockCharacters level '\x7b' '\x7d' (fieldsCharacters (level + 1) fields)
  | unreadable => ['n', 'u', 'l', 'l']

def itemsCharacters (level : Nat) : List Json → List (List Char)
  | [] => []
  | item :: rest => characters level item :: itemsCharacters level rest

def fieldsCharacters (level : Nat) : List (String × Json) → List (List Char)
  | [] => []
  | (key, value) :: rest =>
      (stringCharacters key ++ [':', ' '] ++ characters level value)
        :: fieldsCharacters level rest

end

theorem toList_newLine (level : Nat) : (newLine level).toList = newLineCharacters level :=
  String.toList_ofList

theorem toList_stringText (text : String) : (stringText text).toList = stringCharacters text :=
  String.toList_ofList

theorem toList_block (level : Nat) (opening closing : Char) (texts : List String) :
    (block level opening.toString closing.toString texts).toList =
      blockCharacters level opening closing (texts.map String.toList) := by
  cases texts with
  | nil => simp [block, blockCharacters]
  | cons first rest => simp [block, blockCharacters, String.toList_intercalate, toList_newLine]

mutual

theorem toList_pretty (level : Nat) :
    ∀ value : Json, (pretty level value).toList = characters level value
  | null => by simp [pretty, characters]
  | bool value => by cases value <;> simp [pretty, characters]
  | number value => rfl
  | string value => toList_stringText value
  | array items => by
      rw [pretty, characters, ← toList_prettyItems]
      exact toList_block level '[' ']' _
  | object fields => by
      rw [pretty, characters, ← toList_prettyFields]
      exact toList_block level '\x7b' '\x7d' _
  | unreadable => by simp [pretty, characters]

theorem toList_prettyItems (level : Nat) :
    ∀ items : List Json, (prettyItems level items).map String.toList = itemsCharacters level items
  | [] => rfl
  | item :: rest => by
      rw [prettyItems, List.map_cons, itemsCharacters, toList_pretty level item,
        toList_prettyItems level rest]

theorem toList_prettyFields (level : Nat) :
    ∀ fields : List (String × Json),
      (prettyFields level fields).map String.toList = fieldsCharacters level fields
  | [] => rfl
  | (key, value) :: rest => by
      rw [prettyFields, List.map_cons, fieldsCharacters, ← toList_pretty level value,
        toList_prettyFields level rest]
      simp [toList_stringText]

end

/-- The characters of the text of a value. -/
theorem toList_toPrettyText (value : Json) : value.toPrettyText.toList = value.characters 0 :=
  toList_pretty 0 value

end Registrar.Json
