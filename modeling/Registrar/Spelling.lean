import Registrar.Text.Blank
import Registrar.Text.Letters

/-!
Contract: spellings of types and names.

Owns: the form of a spelling that does not depend on blanks, the argument
lists that are written in one text, and the type that is left without
qualifiers, references and pointers.

Does not own: what a spelling refers to.

The depth of brackets is a whole number without bounds. A count of 32 bits gives
the same pieces for every text in which no bracket stands deeper than 2^31 - 1,
or as far outside.
-/

set_option autoImplicit false

namespace Registrar.Spelling

open Registrar.Text

/-! ## Blanks -/

/-- Drops blanks, and leaves one between two characters of words that blanks
stand between. `last` is the last character kept, and `gap` says whether blanks
came after it. -/
def normalizeFrom (last : Option Char) (gap : Bool) : List Char → List Char
  | [] => []
  | character :: rest =>
      if isBlank character then normalizeFrom last true rest
      else
        let separated := gap && last.any isWordCharacter && isWordCharacter character
        let others := character :: normalizeFrom (some character) false rest
        if separated then ' ' :: others else others

/-- The spelling without blanks, save one between two words. -/
def normalize (spelling : String) : String :=
  String.ofList (normalizeFrom none false spelling.toList)

/-! ## Argument lists -/

/-- How much deeper the text after a bracket is nested. -/
def nesting (character : Char) : Int :=
  if character == '<' || character == '(' || character == '[' then 1
  else if character == '>' || character == ')' || character == ']' then -1
  else 0

/-- The pieces between the commas outside all brackets, at the given depth. The
first piece starts with the characters read before, which are in reverse. -/
def piecesFrom (depth : Int) (piece : List Char) : List Char → List (List Char)
  | [] => [piece.reverse]
  | character :: rest =>
      if character == ',' && depth == 0 then piece.reverse :: piecesFrom depth [] rest
      else piecesFrom (depth + nesting character) (character :: piece) rest

/-- The arguments written in a list, each without needless blanks. A list of
blanks only has no arguments. -/
def splitArguments (list : String) : List String :=
  match (piecesFrom 0 [] list.toList).map fun piece => normalize (String.ofList piece) with
  | [""] => []
  | arguments => arguments

/-! ## Operands -/

/-- The type without references and pointers, and without the words that
qualify it. -/
def bareType (spelling : String) : String :=
  let plain := spelling.toList.filter fun character => character != '&' && character != '*'
  " ".intercalate ((words (String.ofList plain)).filter fun word =>
    word != "const" && word != "volatile")

end Registrar.Spelling
