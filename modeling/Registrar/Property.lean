import Registrar.Inheritance

/-!
Contract: properties made of accessors.

Owns: which methods read and write which property of a class, and what is wrong
with them.

Does not own: how properties are registered.
-/

set_option autoImplicit false

namespace Registrar

structure Property where
  name : String
  getter : Nat
  setter : Option Nat
  /-- The place of the getter in source order. -/
  order : Nat
  deriving DecidableEq

namespace Property

/-- Whether an accessor reads or writes. -/
inductive Role where
  | getter
  | setter
  deriving DecidableEq

def Role.name : Role → String
  | getter => "getter"
  | setter => "setter"

/-- What a method says: of which property it is an accessor, and in which role. -/
structure Accessor where
  method : Node
  property : String
  role : Role

/-- Whether the node is a method that says of which properties it is an
accessor. -/
def isAccessor (node : Node) : Bool :=
  node.kind.target == .method
    && (!node.marking.getterFor.isEmpty || !node.marking.setterFor.isEmpty)

/-- The accessor methods of a class: its own public ones that are not hidden,
and those from inlined bases. -/
def accessorMethods (graph : Graph) (inheritance : Inheritance) (node : Node) : List Node :=
  let own := (graph.childrenOf node).filter fun member =>
    member.access == .public && member.marking.visible != some false
  let inherited := graph.nodesOf ((inheritance.inherited node.id).map Member.node)
  (own ++ inherited).filter isAccessor

/-- Everything that accessors say, in order. -/
def accessors (methods : List Node) : List Accessor :=
  methods.flatMap fun method =>
    method.marking.getterFor.map (fun property => ⟨method, property, .getter⟩)
      ++ method.marking.setterFor.map (fun property => ⟨method, property, .setter⟩)

/-- Whether two accessors have one role of one property. -/
def Accessor.clashes (left right : Accessor) : Bool :=
  left.property == right.property && left.role == right.role

def faultOf (method : Node) (cause : Cause) : Fault :=
  (Fault.ofCause cause).located method.displayName method.location

/-- The accessors in a role that an earlier accessor has. -/
def duplicateFaults (earlier : List Accessor) : List Accessor → List Fault
  | [] => []
  | accessor :: rest =>
      let others := duplicateFaults (earlier ++ [accessor]) rest
      if earlier.any accessor.clashes then
        faultOf accessor.method (.duplicateProperty accessor.property accessor.role.name) :: others
      else others

/-- The accessor with the role, which is the last that takes it. -/
def holder? (all : List Accessor) (property : String) (role : Role) : Option Node :=
  ((all.filter fun accessor =>
      accessor.property == property && accessor.role == role).getLast?).map Accessor.method

/-- The names of all properties, in ascending order. -/
def names (all : List Accessor) : List String :=
  (all.map Accessor.property).eraseDups.mergeSort fun left right => decide (left ≤ right)

/-- The property with the name, if it has a getter. -/
def ofAccessors? (all : List Accessor) (name : String) : Option Property :=
  (holder? all name .getter).map fun getter =>
    { name, getter := getter.id, setter := (holder? all name .setter).map fun setter => setter.id
      order := getter.order }

/-- The fault of a property that can only be written. -/
def setterFault? (all : List Accessor) (name : String) : Option Fault :=
  match holder? all name .getter, holder? all name .setter with
  | none, some setter => some (faultOf setter (.setterWithoutGetter name))
  | _, _ => none

/-- Everything that is wrong with the accessors of a class. -/
def faults (all : List Accessor) : List Fault :=
  duplicateFaults [] all ++ (names all).filterMap (setterFault? all)

/-- Whether the getter of one property comes before that of another in the
source, or is it. -/
def getterOrder (left right : Property) : Bool :=
  decide (left.order < right.order)
    || (left.order == right.order && decide (left.getter ≤ right.getter))

/-- The properties of a class, in the order of their getters. -/
def ofClass (graph : Graph) (inheritance : Inheritance) (node : Node) : List Property :=
  let all := accessors (accessorMethods graph inheritance node)
  ((names all).filterMap (ofAccessors? all)).mergeSort getterOrder

end Property

structure PropertyTable where
  /-- The classes that have properties, in ascending order. -/
  entries : List (Nat × List Property)

namespace PropertyTable

def get (table : PropertyTable) (id : Nat) : List Property :=
  ((table.entries.find? fun entry => entry.1 == id).map (·.2)).getD []

/-- The properties of all emitted classes, or everything that is wrong with
them. -/
def ofGraph (graph : Graph) (visibility : Visibility) (inheritance : Inheritance) :
    Except (List Fault) PropertyTable :=
  let classes := graph.nodesOf (Inheritance.emittedClasses graph visibility)
  let faults := classes.flatMap fun node =>
    Property.faults (Property.accessors (Property.accessorMethods graph inheritance node))
  if faults.isEmpty then
    let entries := classes.map fun node => (node.id, Property.ofClass graph inheritance node)
    .ok ⟨entries.filter fun entry => !entry.2.isEmpty⟩
  else .error faults

end PropertyTable

end Registrar
