import Registrar.Inheritance
import Registrar.Operator.Slot

/-!
Contract: the operators of a unit.

Owns: the slot of each operator and conversion, and the class that a free
operator is attached to.

Does not own: what an operator without a slot becomes.

A free operator belongs to the class of its first operand that is an exposed
class. A name of its own keeps an operator out of all slots.
-/

set_option autoImplicit false

namespace Registrar

/-- An operator or conversion with its slot. -/
structure OperatorEntry where
  node : Nat
  slot : OperatorSlot
  /-- The class that a free operator is attached to. -/
  owner : Option Nat
  deriving DecidableEq

/-- The operators and conversions that have slots, in ascending order. -/
structure OperatorTable where
  entries : List OperatorEntry

namespace OperatorTable

/-! ## Operands -/

/-- The names that a type can have in the scopes around an operator, innermost
first. -/
def candidateNames (graph : Graph) (operator : Node) (type : String) : List String :=
  let bare := Spelling.bareType type
  let scopes := match operator.lexicalParent.bind graph.node? with
    | some scope => scope :: graph.ancestors scope
    | none => []
  let names := (scopes.map fun scope => scope.qualifiedName).filter fun name => !name.isEmpty
  names.map (fun name => name ++ "::" ++ bare) ++ [bare]

/-- The exposed class that an operand of the type is, looked up outwards from the
scope of the operator. -/
def operandClass? (graph : Graph) (visibility : Visibility) (operator : Node)
    (type : String) : Option Nat :=
  ((candidateNames graph operator type).filterMap graph.resolveType).find? fun id =>
    match graph.node? id with
    | some node => node.kind.target == .class && visibility.isEmitted id
    | none => false

/-- The place and the class of the first of the operands from a place on that is
an exposed class. -/
def firstOperand? (graph : Graph) (visibility : Visibility) (operator : Node)
    (position : Nat) : List String → Option (Nat × Nat)
  | [] => none
  | type :: rest =>
      match operandClass? graph visibility operator type with
      | some owner => some (position, owner)
      | none => firstOperand? graph visibility operator (position + 1) rest

/-! ## Entries -/

def assignedFree? (graph : Graph) (visibility : Visibility) (node : Node) (symbol : String)
    (types : List String) : Option OperatorEntry := do
  let (position, owner) ← firstOperand? graph visibility node 0 (types.take 2)
  let slot ← OperatorSlot.free? symbol types position
  return ⟨node.id, slot, some owner⟩

def assigned? (graph : Graph) (visibility : Visibility) (node : Node) : Option OperatorEntry :=
  if node.marking.exposeAs.isSome then none
  else
    match node.kind with
    | .operator symbol signature isMember =>
        if signature.isDeleted then none
        else if isMember then
          (OperatorSlot.member? symbol signature.parameters.length).map fun slot =>
            ⟨node.id, slot, none⟩
        else assignedFree? graph visibility node symbol (signature.parameters.map Parameter.type)
    | .conversionFunction signature =>
        if signature.isDeleted then none
        else (OperatorSlot.conversion? signature.returnType).map fun slot =>
          ⟨node.id, slot, none⟩
    | _ => none

/-- The nodes that may have slots: those emitted, and those that a class takes
from an inlined base. -/
def candidates (graph : Graph) (visibility : Visibility) (inheritance : Inheritance) :
    List Node :=
  graph.nodes.filter fun node =>
    visibility.isEmitted node.id || inheritance.inlinedNodes.contains node.id

/-- The slots of all operators and conversions. -/
def ofGraph (graph : Graph) (visibility : Visibility) (inheritance : Inheritance) :
    OperatorTable :=
  ⟨(candidates graph visibility inheritance).filterMap (assigned? graph visibility)⟩

/-! ## Look-up -/

def find? (table : OperatorTable) (id : Nat) : Option OperatorEntry :=
  table.entries.find? fun entry => entry.node == id

def slot? (table : OperatorTable) (id : Nat) : Option OperatorSlot :=
  (table.find? id).map OperatorEntry.slot

/-- The class that a free operator is attached to. -/
def owner? (table : OperatorTable) (id : Nat) : Option Nat :=
  (table.find? id).bind OperatorEntry.owner

/-- The free operators attached to a class, in ascending order. -/
def attachedTo (table : OperatorTable) (id : Nat) : List Nat :=
  (table.entries.filter fun entry => entry.owner == some id).map OperatorEntry.node

end OperatorTable

end Registrar
