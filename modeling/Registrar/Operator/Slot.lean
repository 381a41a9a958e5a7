import Registrar.Declaration.Basic
import Registrar.Spelling

/-!
Contract: operators of the host language.

Owns: which special method of the host an operator or a conversion becomes.

Does not own: of which class.
-/

set_option autoImplicit false

namespace Registrar

/-- A special method of the host. -/
structure OperatorSlot where
  name : String
  /-- The object is the right operand. -/
  reflected : Bool := false
  deriving DecidableEq

namespace OperatorSlot

/-! ## Tables -/

/-- Operators of two operands, each with its method and the one for swapped
operands. -/
def binary : List (String × String × String) :=
  [("+", "__add__", "__radd__"), ("-", "__sub__", "__rsub__"), ("*", "__mul__", "__rmul__"),
    ("/", "__truediv__", "__rtruediv__"), ("%", "__mod__", "__rmod__"),
    ("&", "__and__", "__rand__"), ("|", "__or__", "__ror__"), ("^", "__xor__", "__rxor__"),
    ("<<", "__lshift__", "__rlshift__"), (">>", "__rshift__", "__rrshift__")]

/-- Comparisons, each with its method and the one for swapped operands. -/
def comparison : List (String × String × String) :=
  [("==", "__eq__", "__eq__"), ("!=", "__ne__", "__ne__"), ("<", "__lt__", "__gt__"),
    ("<=", "__le__", "__ge__"), (">", "__gt__", "__lt__"), (">=", "__ge__", "__le__")]

/-- Operators that change their left operand. -/
def inPlace : List (String × String) :=
  [("+=", "__iadd__"), ("-=", "__isub__"), ("*=", "__imul__"), ("/=", "__itruediv__"),
    ("%=", "__imod__"), ("&=", "__iand__"), ("|=", "__ior__"), ("^=", "__ixor__"),
    ("<<=", "__ilshift__"), (">>=", "__irshift__")]

def unary : List (String × String) :=
  [("-", "__neg__"), ("+", "__pos__"), ("~", "__invert__")]

def truthTypes : List String := ["bool"]

/-- The types that convert to numbers with a fraction. -/
def fractionTypes : List String := ["float", "double", "long double"]

def wholeTypes : List String :=
  ["int", "long", "long long", "short", "unsigned", "unsigned int", "unsigned long",
    "unsigned long long", "std::size_t", "size_t", "std::int64_t", "int64_t"]

/-! ## Slots -/

def unary? (symbol : String) : Option OperatorSlot :=
  (unary.lookup symbol).map fun name => { name }

/-- The slot of an operator of two operands, of which the left one is the object. -/
def left? (symbol : String) : Option OperatorSlot :=
  let method := ((binary.lookup symbol).map (·.1)).or
    (((comparison.lookup symbol).map (·.1)).or (inPlace.lookup symbol))
  method.map fun name => { name }

/-- The slot of an operator of two operands, of which the right one is the
object. A comparison turns around. -/
def right? (symbol : String) : Option OperatorSlot :=
  match binary.lookup symbol with
  | some (_, name) => some { name, reflected := true }
  | none => (comparison.lookup symbol).map fun (_, name) => { name }

/-- The slot of an operator that is a member, given how many operands it has
besides its object. -/
def member? (symbol : String) (operands : Nat) : Option OperatorSlot :=
  if symbol == "()" then some { name := "__call__" }
  else if symbol == "[]" && operands == 1 then some { name := "__getitem__" }
  else
    match operands with
    | 0 => unary? symbol
    | 1 => left? symbol
    | _ => none

def holds (characters : List Char) : List Char → Bool
  | [] => characters.isEmpty
  | first :: rest => characters.isPrefixOf (first :: rest) || holds characters rest

/-- Whether a parameter is a stream to write to. -/
def isOutputStream (type : String) : Bool :=
  holds ['o', 's', 't', 'r', 'e', 'a', 'm'] type.toList

/-- The slot of a free operator, given the types of its operands and the place of
the operand that is the object. What writes to a stream makes text. -/
def free? (symbol : String) (types : List String) (position : Nat) : Option OperatorSlot :=
  match types, position with
  | [_], 0 => unary? symbol
  | [_, _], 0 => left? symbol
  | [first, _], 1 =>
      if symbol == "<<" && isOutputStream first then some { name := "__str__" }
      else right? symbol
  | _, _ => none

def conversion? (type : String) : Option OperatorSlot :=
  let target := Spelling.bareType type
  if truthTypes.contains target then some { name := "__bool__" }
  else if fractionTypes.contains target then some { name := "__float__" }
  else if wholeTypes.contains target then some { name := "__int__" }
  else none

end OperatorSlot

end Registrar
