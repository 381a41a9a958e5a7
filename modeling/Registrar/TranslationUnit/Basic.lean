import Registrar.Declaration.Basic
import Registrar.Fault

/-!
Contract: translation units that can be relied on.

Owns: what a list of declarations must satisfy to be a unit, the first way in
which it fails to, and looking up declarations in a unit.

Does not own: what the declarations mean.
-/

set_option autoImplicit false

namespace Registrar

/-- A way in which a list of declarations is no unit. -/
inductive UnitViolation where
  | noDeclarations
  | firstIsNoRoot
  | duplicateId (id : Nat)
  | noParent (declaration : String)
  | parentNotBefore (declaration : String) (parent : Nat)
  | parentCannotOwn (declaration parentKind : String)
  | nestedRoot
  deriving DecidableEq

/-- A number of a declaration as a reader sees it. -/
def idLabel (id : Nat) : String := "#" ++ toString id

/-- What a reader is told about the violation. -/
def UnitViolation.message : UnitViolation → String
  | noDeclarations => "translation unit has no declarations"
  | firstIsNoRoot => "the first declaration must be the translation unit root"
  | duplicateId id => "duplicate declaration id " ++ idLabel id
  | noParent declaration => "'" ++ declaration ++ "' has no enclosing declaration"
  | parentNotBefore declaration parent =>
      "'" ++ declaration ++ "' refers to parent " ++ idLabel parent
        ++ " which does not precede it"
  | parentCannotOwn declaration parentKind =>
      "'" ++ declaration ++ "' is nested in a " ++ parentKind
        ++ " which cannot own declarations"
  | nestedRoot => "nested translation unit root"

def findDeclaration? (declarations : List Declaration) (id : Nat) : Option Declaration :=
  declarations.find? fun declaration => declaration.id == id

/-- What is wrong with a declaration that follows the given ones. -/
def violationAfter? (earlier : List Declaration) (declaration : Declaration) :
    Option UnitViolation :=
  if (findDeclaration? earlier declaration.id).isSome then
    some (.duplicateId declaration.id)
  else
    match declaration.parent with
    | none => some (.noParent declaration.displayName)
    | some parent =>
        match findDeclaration? (earlier ++ [declaration]) parent with
        | none => some (.parentNotBefore declaration.displayName parent)
        | some owner =>
            if !owner.kind.canOwn then
              some (.parentCannotOwn declaration.displayName owner.kind.name)
            else if declaration.kind.target == .translationUnit then some .nestedRoot
            else none

/-- The first thing that is wrong with declarations that follow the given ones. -/
def violationFrom? (earlier : List Declaration) : List Declaration → Option UnitViolation
  | [] => none
  | declaration :: rest =>
      match violationAfter? earlier declaration with
      | some violation => some violation
      | none => violationFrom? (earlier ++ [declaration]) rest

/-- The first thing that keeps a list of declarations from being a unit. -/
def unitViolation? : List Declaration → Option UnitViolation
  | [] => some .noDeclarations
  | root :: others =>
      if root.kind.target == .translationUnit && root.parent.isNone then
        violationFrom? [root] others
      else some .firstIsNoRoot

/-- The declarations of a unit: the root, and those below it, each after the one
around it. -/
structure TranslationUnit where
  root : Declaration
  others : List Declaration
  valid : unitViolation? (root :: others) = none

namespace TranslationUnit

/-- A list of declarations as a unit, or what keeps it from being one. -/
def ofDeclarations : List Declaration → Except UnitViolation TranslationUnit
  | [] => .error .noDeclarations
  | root :: others =>
      match violation : unitViolation? (root :: others) with
      | none => .ok ⟨root, others, violation⟩
      | some found => .error found

def declarations (unit : TranslationUnit) : List Declaration :=
  unit.root :: unit.others

def get? (unit : TranslationUnit) (id : Nat) : Option Declaration :=
  findDeclaration? unit.declarations id

/-- How many declarations there are. -/
def size (unit : TranslationUnit) : Nat := unit.declarations.length

/-- Whether there is nothing below the root. -/
def isEmpty (unit : TranslationUnit) : Bool := unit.others.isEmpty

/-- Whether one declaration comes before another in the source, or is it. -/
def sourceOrder (left right : Declaration) : Bool :=
  decide (left.order < right.order) || (left.order == right.order && decide (left.id ≤ right.id))

/-- The declarations directly below one, in source order. -/
def children (unit : TranslationUnit) (id : Nat) : List Declaration :=
  (unit.others.filter fun declaration => declaration.parent == some id).mergeSort sourceOrder

end TranslationUnit

/-- A unit that is none, as a fault. -/
def UnitViolation.cause (violation : UnitViolation) : Cause :=
  .malformedInput violation.message

end Registrar
