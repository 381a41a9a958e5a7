/-!
Contract: identifiers of the host language.

Owns: which texts are identifiers, the nearest identifier to any spelling, and
a supply of identifiers that never hands one out twice.

Does not own: which names are exposed under which identifier.
-/

set_option autoImplicit false

namespace Registrar.Identifier

/-! ## Validity -/

def canStart (character : Char) : Bool :=
  character.isAlpha || character == '_'

/-- A character that can stand after the first one of an identifier. -/
def canContinue (character : Char) : Bool :=
  character.isAlphanum || character == '_'

/-- Identifiers are written `[A-Za-z_][A-Za-z0-9_]*`. -/
def isValidChars : List Char → Bool
  | [] => false
  | first :: rest => canStart first && rest.all canContinue

def isValid (text : String) : Bool :=
  isValidChars text.toList

/-! ## The nearest identifier -/

/-- Whether the character can stand where it is, given that a character was
kept before it or not. -/
def canStand (keptAny : Bool) (character : Char) : Bool :=
  if keptAny then canContinue character else canStart character

/-- Replaces each maximal run of characters that cannot stand by one
underscore. `runOpen` says that such a run is being read. -/
def sanitizeFrom (keptAny runOpen : Bool) : List Char → List Char
  | [] => if runOpen then ['_'] else []
  | character :: rest =>
      if canStand keptAny character then
        if runOpen then '_' :: character :: sanitizeFrom true false rest
        else character :: sanitizeFrom true false rest
      else sanitizeFrom keptAny true rest

/-- The spelling with each maximal run of characters that cannot stand at their
position replaced by one underscore. A digit cannot stand while no character
has been kept. -/
def sanitize (spelling : String) : String :=
  String.ofList (sanitizeFrom false false spelling.toList)

/-! ## Fresh identifiers -/

/-- The identifiers that can no longer be handed out. -/
structure Supply where
  used : List String
  deriving DecidableEq

/-- A supply from which everything can be had. -/
def Supply.empty : Supply := ⟨[]⟩

/-- Keeps an identifier from being handed out. -/
def Supply.reserve (supply : Supply) (identifier : String) : Supply :=
  ⟨identifier :: supply.used⟩

def numbered (base : String) (counter : Nat) : String :=
  base ++ "_" ++ toString counter

/-- The least counter from two on whose numbered base is unused. Some counter
among as many as there are used identifiers, and one more, is free. -/
def Supply.freeCounter (supply : Supply) (base : String) : Nat :=
  ((List.range' 2 (supply.used.length + 1)).find? fun counter =>
    !supply.used.contains (numbered base counter)).getD 2

/-- Hands out the base if it is unused, and otherwise the base with the least
free counter. -/
def Supply.take (supply : Supply) (base : String) : String × Supply :=
  let identifier :=
    if supply.used.contains base then numbered base (supply.freeCounter base) else base
  (identifier, supply.reserve identifier)

end Registrar.Identifier
