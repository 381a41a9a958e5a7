/-!
Contract: qualified names and the patterns that refer to them.

Owns: the scope separator, joining and shortening of qualified names, and the
rule by which a name written in a directive refers to a qualified name.

Does not own: lookup of names in a unit.
-/

set_option autoImplicit false

namespace Registrar.QualifiedName

/-- What stands between two components of a qualified name. -/
def separator : List Char := [':', ':']

def dropLeadingSeparator : List Char → List Char
  | ':' :: ':' :: rest => rest
  | characters => characters

/-- The name without one leading separator. -/
def relative (name : String) : String :=
  String.ofList (dropLeadingSeparator name.toList)

/-- Whether the name has a leading separator. -/
def isAbsolute (name : String) : Bool :=
  separator.isPrefixOf name.toList

/-- A pattern with a leading separator is the whole name; any other pattern is
the name or follows a separator at the end of it. -/
def refersToChars (pattern name : List Char) : Bool :=
  let plain := dropLeadingSeparator name
  if separator.isPrefixOf pattern then
    dropLeadingSeparator pattern == plain
  else
    pattern == plain || (separator ++ pattern).isSuffixOf plain

/-- Whether a name written in a directive refers to the qualified name: it is
the whole name if it is absolute, and otherwise whole components at its end. -/
def refersTo (pattern name : String) : Bool :=
  refersToChars pattern.toList name.toList

/-- A component below an enclosing name; nothing encloses the names of the
outermost scope. -/
def join (enclosing component : String) : String :=
  if enclosing.isEmpty then component else enclosing ++ "::" ++ component

def takeUntilSeparator : List Char → List Char
  | [] => []
  | ':' :: ':' :: _ => []
  | character :: rest => character :: takeUntilSeparator rest

def lastComponent (name : String) : String :=
  String.ofList (takeUntilSeparator name.toList.reverse).reverse

end Registrar.QualifiedName
