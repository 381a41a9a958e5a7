import Registrar.Marking.Grammar
import Registrar.Marking.Schema
import Registrar.Identifier

/-!
Contract: directives with their meaning.

Owns: the values that directives take, how references to arguments resolve,
and the check of a directive as written against the schema.

Does not own: how the directives of one declaration go together.
-/

set_option autoImplicit false

namespace Registrar

/-! ## Values -/

/-- A reference to an argument of a callable: its number, or its name. Zero is
the returned value, and one is the object of a member. -/
inductive ArgumentRef where
  | index (number : Nat)
  | named (name : String)
  deriving DecidableEq

namespace ArgumentRef

/-- How many arguments stand before the first parameter. -/
def firstParameter (hasThis : Bool) : Nat :=
  if hasThis then 2 else 1

/-- The number of the argument referred to, given the names of the parameters. -/
def resolve? (reference : ArgumentRef) (parameters : List String) (hasThis : Bool) :
    Option Nat :=
  match reference with
  | index number =>
      if number < firstParameter hasThis + parameters.length then some number else none
  | named "return" => some 0
  | named "this" => if hasThis then some 1 else none
  | named name => (parameters.idxOf? name).map (· + firstParameter hasThis)

/-- The reference as written. -/
def text : ArgumentRef → String
  | index number => toString number
  | named name => name

end ArgumentRef

/-- Which bases of a class are selected. -/
inductive BaseSelection where
  | all
  | named (names : List String)
  deriving DecidableEq

/-- Appends to a list the items that it does not hold. -/
def appendNew {α : Type} [DecidableEq α] (items : List α) : List α → List α
  | [] => items
  | item :: rest =>
      if item ∈ items then appendNew items rest else appendNew (items ++ [item]) rest

def BaseSelection.union : BaseSelection → BaseSelection → BaseSelection
  | named names, named others => named (appendNew names others)
  | _, _ => all

inductive ArgumentSelection where
  | all
  | only (references : List ArgumentRef)
  deriving DecidableEq

inductive ReturnPolicy where
  /-- As the type of the value suggests. -/
  | automatic
  /-- As the type suggests, and references are not copied. -/
  | automaticReference
  /-- The host owns the returned object. -/
  | takeOwnership
  | copy
  | move
  /-- The host refers to the object and does not own it. -/
  | reference
  /-- As a reference, which keeps alive the object it came from. -/
  | referenceInternal
  deriving DecidableEq

namespace ReturnPolicy

def all : List ReturnPolicy :=
  [automatic, automaticReference, takeOwnership, copy, move, reference, referenceInternal]

def name : ReturnPolicy → String
  | automatic => "automatic"
  | automaticReference => "automatic_reference"
  | takeOwnership => "take_ownership"
  | copy => "copy"
  | move => "move"
  | reference => "reference"
  | referenceInternal => "reference_internal"

def ofName? (name : String) : Option ReturnPolicy :=
  all.find? fun policy => policy.name == name

end ReturnPolicy

/-! ## Directives -/

/-- A directive whose arguments have been checked. -/
inductive Directive where
  /-- Without a value, visibility is inherited. -/
  | visible (value : Option Bool)
  | hidden
  /-- Without a name, the spelling is kept. -/
  | exposeAs (name : Option String)
  | module (name : Option String)
  | onlyExposeIn (modules : List String)
  | exposeHere (context : Option String)
  | encourage
  /-- Without a list, all instantiations are meant. -/
  | exposeInstantiations (arguments : Option (List String))
  | arithmetic (value : Bool)
  /-- Without a value, enumerators are exported unless they are scoped. -/
  | exportValues (value : Option Bool)
  | dynamicAttributes (value : Bool)
  | holderType (type : String)
  | hideBase (selection : BaseSelection)
  | inlineBase (selection : BaseSelection)
  /-- The second argument lives at least as long as the first. -/
  | keepAlive (nurse patient : ArgumentRef)
  | noConversion (selection : ArgumentSelection)
  | required (references : List ArgumentRef)
  | returnValuePolicy (policy : ReturnPolicy)
  | getterFor (properties : List String)
  | setterFor (properties : List String)
  | implicitConversion (value : Bool)
  | readonly (value : Bool)
  | manual
  | early
  | postamble
  | before (member : String)
  | after (member : String)
  deriving DecidableEq

def Directive.kind : Directive → DirectiveKind
  | visible _ => .visible
  | hidden => .hidden
  | exposeAs _ => .exposeAs
  | module _ => .module
  | onlyExposeIn _ => .onlyExposeIn
  | exposeHere _ => .exposeHere
  | encourage => .encourage
  | exposeInstantiations _ => .exposeInstantiations
  | arithmetic _ => .arithmetic
  | exportValues _ => .exportValues
  | dynamicAttributes _ => .dynamicAttributes
  | holderType _ => .holderType
  | hideBase _ => .hideBase
  | inlineBase _ => .inlineBase
  | keepAlive _ _ => .keepAlive
  | noConversion _ => .noConversion
  | required _ => .required
  | returnValuePolicy _ => .returnValuePolicy
  | getterFor _ => .getterFor
  | setterFor _ => .setterFor
  | implicitConversion _ => .implicitConversion
  | readonly _ => .readonly
  | manual => .manual
  | early => .early
  | postamble => .postamble
  | before _ => .before
  | after _ => .after

/-! ## The schema of arguments -/

namespace Marking

variable {α : Type}

/-- The directive was given a number of arguments that it does not take. -/
def wrongArity (kind : DirectiveKind) (expected : String) (arguments : List Literal) :
    Except Cause α :=
  .error (.wrongArity kind.name expected arguments.length)

/-- The directive was given an argument of a type that it does not take. -/
def wrongType (kind : DirectiveKind) (expected : String) (argument : Literal) :
    Except Cause α :=
  .error (.badValue kind.name ("expected " ++ expected ++ ", got " ++ argument.typeName))

def noArguments (kind : DirectiveKind) (meaning : α) : List Literal → Except Cause α
  | [] => .ok meaning
  | arguments => wrongArity kind "0" arguments

/-- At most one argument, which is a Boolean or resets the value. -/
def optionalBooleanOrDefault (kind : DirectiveKind) : List Literal → Except Cause (Option Bool)
  | [] => .ok (some true)
  | [.boolean value] => .ok (some value)
  | [.default] => .ok none
  | [other] => wrongType kind "boolean or default" other
  | arguments => wrongArity kind "0 or 1" arguments

/-- At most one argument, which is a Boolean. -/
def optionalBoolean (kind : DirectiveKind) : List Literal → Except Cause Bool
  | [] => .ok true
  | [.boolean value] => .ok value
  | [other] => wrongType kind "boolean" other
  | arguments => wrongArity kind "0 or 1" arguments

def oneString (kind : DirectiveKind) : List Literal → Except Cause String
  | [.string value] => .ok value
  | [other] => wrongType kind "string" other
  | arguments => wrongArity kind "1" arguments

/-- One argument, which is a string or resets the value. -/
def oneStringOrDefault (kind : DirectiveKind) : List Literal → Except Cause (Option String)
  | [.string value] => .ok (some value)
  | [.default] => .ok none
  | [other] => wrongType kind "string or default" other
  | arguments => wrongArity kind "1" arguments

/-- At most one argument, which is a string. -/
def optionalString (kind : DirectiveKind) : List Literal → Except Cause (Option String)
  | [] => .ok none
  | [.string value] => .ok (some value)
  | [other] => wrongType kind "string" other
  | arguments => wrongArity kind "0 or 1" arguments

def stringArgument (kind : DirectiveKind) : Literal → Except Cause String
  | .string value => .ok value
  | other => wrongType kind "string" other

/-- The meaning of each argument in order, up to the first without one. -/
def eachArgument (meaning : Literal → Except Cause α) : List Literal → Except Cause (List α)
  | [] => .ok []
  | argument :: rest => do
      let first ← meaning argument
      let others ← eachArgument meaning rest
      return first :: others

/-- At least so many arguments, all of them meaningful. -/
def atLeast (kind : DirectiveKind) (minimum : Nat) (meaning : Literal → Except Cause α)
    (arguments : List Literal) : Except Cause (List α) :=
  if arguments.length < minimum then
    wrongArity kind ("at least " ++ toString minimum) arguments
  else eachArgument meaning arguments

/-- Whether the arguments select everything: none, or the word `all` alone. -/
def selectsAll : List Literal → Bool
  | [] => true
  | [.identifier name] => name == "all"
  | _ => false

def baseSelection (kind : DirectiveKind) (arguments : List Literal) :
    Except Cause BaseSelection :=
  if selectsAll arguments then .ok .all
  else (atLeast kind 1 (stringArgument kind) arguments).map .named

/-- The reference that an argument is. Its number has 32 bits. -/
def argumentRef (kind : DirectiveKind) : Literal → Except Cause ArgumentRef
  | .unsigned number =>
      if number < 1 <<< 32 then .ok (.index number)
      else .error (.badValue kind.name ("index " ++ toString number ++ " is too large"))
  | .string name | .identifier name => .ok (.named name)
  | other =>
      .error (.badValue kind.name
        ("expected argument name or index, got " ++ other.typeName))

/-- The arguments selected by the arguments of the directive. -/
def argumentSelection (kind : DirectiveKind) (arguments : List Literal) :
    Except Cause ArgumentSelection :=
  if selectsAll arguments then .ok .all
  else (atLeast kind 1 (argumentRef kind) arguments).map .only

/-- The identifier under which to expose something. -/
def exposedName (kind : DirectiveKind) (arguments : List Literal) :
    Except Cause (Option String) := do
  match ← oneStringOrDefault kind arguments with
  | none => return none
  | some name =>
      if Identifier.isValid name then return some name
      else throw (.invalidIdentifier name)

/-- The two arguments of which one keeps the other alive. -/
def keepAlivePair (kind : DirectiveKind) : List Literal → Except Cause Directive
  | [nurse, patient] => do
      return .keepAlive (← argumentRef kind nurse) (← argumentRef kind patient)
  | arguments => wrongArity kind "2" arguments

def policyArgument (kind : DirectiveKind) : List Literal → Except Cause ReturnPolicy
  | [argument] =>
      match argument.text? with
      | none => .error (.badValue kind.name "expected a policy name")
      | some name =>
          match ReturnPolicy.ofName? name with
          | none => .error (.badValue kind.name ("unknown policy '" ++ name ++ "'"))
          | some policy => .ok policy
  | arguments => wrongArity kind "1" arguments

/-- The directive of the given kind with the arguments. -/
def directiveOf (kind : DirectiveKind) (arguments : List Literal) : Except Cause Directive :=
  match kind with
  | .visible => (optionalBooleanOrDefault kind arguments).map .visible
  | .hidden => noArguments kind .hidden arguments
  | .exposeAs => (exposedName kind arguments).map .exposeAs
  | .module => (optionalString kind arguments).map .module
  | .onlyExposeIn => (atLeast kind 1 (stringArgument kind) arguments).map .onlyExposeIn
  | .exposeHere => (optionalString kind arguments).map .exposeHere
  | .encourage => noArguments kind .encourage arguments
  | .exposeInstantiations =>
      (atLeast kind 0 (stringArgument kind) arguments).map fun list =>
        .exposeInstantiations (if list.isEmpty then none else some list)
  | .arithmetic => (optionalBoolean kind arguments).map .arithmetic
  | .exportValues => (optionalBooleanOrDefault kind arguments).map .exportValues
  | .dynamicAttributes => (optionalBoolean kind arguments).map .dynamicAttributes
  | .holderType => (oneString kind arguments).map .holderType
  | .hideBase => (baseSelection kind arguments).map .hideBase
  | .inlineBase => (baseSelection kind arguments).map .inlineBase
  | .keepAlive => keepAlivePair kind arguments
  | .noConversion => (argumentSelection kind arguments).map .noConversion
  | .required => (atLeast kind 1 (argumentRef kind) arguments).map .required
  | .returnValuePolicy => (policyArgument kind arguments).map .returnValuePolicy
  | .getterFor => (atLeast kind 1 (stringArgument kind) arguments).map .getterFor
  | .setterFor => (atLeast kind 1 (stringArgument kind) arguments).map .setterFor
  | .implicitConversion => (optionalBoolean kind arguments).map .implicitConversion
  | .readonly => (optionalBoolean kind arguments).map .readonly
  | .manual => noArguments kind .manual arguments
  | .early => noArguments kind .early arguments
  | .postamble => noArguments kind .postamble arguments
  | .before => (oneString kind arguments).map .before
  | .after => (oneString kind arguments).map .after

/-- Checks a directive as written against the schema. -/
def Call.directive (call : Call) : Except Cause Directive :=
  match DirectiveKind.ofName? call.name with
  | none => .error (.unknownDirective call.name)
  | some kind => directiveOf kind call.arguments

end Marking

end Registrar
