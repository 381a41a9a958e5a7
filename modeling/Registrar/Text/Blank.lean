/-!
Contract: white space in source text.

Owns: the characters with the Unicode property `White_Space`, and the two
operations on text that depend on them, trimming and splitting into words.

Does not own: which texts are trimmed or split.
-/

set_option autoImplicit false

namespace Registrar.Text

/-- The characters with the Unicode property `White_Space`. -/
def isBlank (character : Char) : Bool :=
  ('\t' ≤ character && character ≤ '\r')
    || character == ' '
    || character == '\u0085'
    || character == '\u00a0'
    || character == '\u1680'
    || ('\u2000' ≤ character && character ≤ '\u200a')
    || character == '\u2028'
    || character == '\u2029'
    || character == '\u202f'
    || character == '\u205f'
    || character == '\u3000'

/-- The characters without the blank ones at either end. -/
def trimBlanks (characters : List Char) : List Char :=
  ((characters.dropWhile isBlank).reverse.dropWhile isBlank).reverse

/-- The text without the blank characters at either end. -/
def trim (text : String) : String :=
  String.ofList (trimBlanks text.toList)

/-- The maximal runs of characters that are not blank, where `current` holds
the characters of the run being read. -/
def wordsFrom (current : List Char) : List Char → List (List Char)
  | [] => if current.isEmpty then [] else [current]
  | character :: rest =>
      if isBlank character then
        if current.isEmpty then wordsFrom [] rest
        else current :: wordsFrom [] rest
      else wordsFrom (current ++ [character]) rest

/-- The maximal runs of characters that are not blank, in order. -/
def words (text : String) : List String :=
  (wordsFrom [] text.toList).map String.ofList

end Registrar.Text
