/-!
Contract: positions in source files.

Owns: a position, its text, and moving it along its line.

Does not own: who is found at a position.
-/

set_option autoImplicit false

namespace Registrar

/-- A position in a source file. Lines and columns count from one, and zero
stands for one that is not known. -/
structure Location where
  file : String := ""
  line : Nat := 0
  column : Nat := 0
  deriving DecidableEq, Inhabited

namespace Location

/-- Whether no position was supplied. -/
def isUnknown (location : Location) : Bool :=
  location.file.isEmpty && location.line == 0

/-- The position further to the right on the same line. -/
def shift (location : Location) (columns : Nat) : Location :=
  { location with column := location.column + columns }

/-- File, line and column with colons between them. -/
def text (location : Location) : String :=
  if location.isUnknown then "<unknown>"
  else location.file ++ ":" ++ toString location.line ++ ":" ++ toString location.column

end Location

end Registrar
