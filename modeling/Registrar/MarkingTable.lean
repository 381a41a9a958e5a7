import Registrar.Diagnostic
import Registrar.Marking.Basic
import Registrar.TranslationUnit.Basic

/-!
Contract: the annotations of a whole unit.

Owns: checking each annotation against the declaration that carries it, and
gathering all faults of a unit in one run.

Does not own: merging redeclarations.
-/

set_option autoImplicit false

namespace Registrar

/-- What is found in the annotation of one declaration. -/
structure Examination where
  faults : List Fault := []
  warnings : List Diagnostic := []
  marking : Option Marking := none

namespace Examination

/-- The references to arguments in an annotation, each with its directive. The
two of a pair that keeps alive come first, and need name no parameter. -/
def pairReferences (marking : Marking) : List (DirectiveKind × ArgumentRef) :=
  marking.keepAlive.flatMap fun pair => [(.keepAlive, pair.1), (.keepAlive, pair.2)]

/-- The references that are meant to name parameters. -/
def parameterReferences (marking : Marking) : List (DirectiveKind × ArgumentRef) :=
  let unconverted := match marking.noConversion with
    | some (.only references) => references.map fun reference =>
        (DirectiveKind.noConversion, reference)
    | _ => []
  unconverted ++ marking.required.map fun reference => (.required, reference)

/-- All references to arguments in an annotation, each with its directive. -/
def argumentReferences (marking : Marking) : List (DirectiveKind × ArgumentRef) :=
  pairReferences marking ++ parameterReferences marking

/-- The references that name no argument of the callable. -/
def unresolved (references : List (DirectiveKind × ArgumentRef)) (signature : Signature)
    (hasThis : Bool) : List Cause :=
  references.filterMap fun (directive, reference) =>
    match reference.resolve? signature.parameterNames hasThis with
    | some _ => none
    | none => some (.unknownArgument directive.name reference.text)

/-- A reference that has no effect, since what it names is no parameter. -/
def withoutEffect (directive : DirectiveKind) (reference : ArgumentRef) : Diagnostic :=
  .warning "ignored-directive"
    ("'" ++ directive.name ++ "' has no effect on '" ++ reference.text
      ++ "', which is not a parameter")

/-- The references that name an argument which is no parameter. -/
def ineffective (references : List (DirectiveKind × ArgumentRef)) (signature : Signature)
    (hasThis : Bool) : List Diagnostic :=
  references.filterMap fun (directive, reference) =>
    match reference.resolve? signature.parameterNames hasThis with
    | some number =>
        if number < ArgumentRef.firstParameter hasThis then
          some (withoutEffect directive reference)
        else none
    | none => none

/-- Whether the declaration is directly below the root. -/
def isAtRoot (unit : TranslationUnit) (declaration : Declaration) : Bool :=
  match declaration.parent.bind unit.get? with
  | some owner => owner.kind.target == .translationUnit
  | none => false

/-- A block that comes before or after everything must be directly below the
root. -/
def misplaced (unit : TranslationUnit) (declaration : Declaration) (marking : Marking) :
    List Cause :=
  match marking.placement with
  | some .early | some .postamble =>
      if isAtRoot unit declaration then []
      else (marking.placement.map fun placement =>
        Cause.misplacedManualBlock placement.kind.name).toList
  | _ => []

/-- The causes found in an annotation that holds together by itself. -/
def causes (unit : TranslationUnit) (declaration : Declaration) (marking : Marking) :
    List Cause :=
  let arguments := match declaration.kind.signature? with
    | some signature =>
        unresolved (argumentReferences marking) signature declaration.kind.hasThis
    | none => []
  arguments ++ misplaced unit declaration marking

def warningsFor (declaration : Declaration) (marking : Marking) : List Diagnostic :=
  match declaration.kind.signature? with
  | some signature =>
      ineffective (parameterReferences marking) signature declaration.kind.hasThis
  | none => []

/-- Examines one declaration. Every fault and warning says which one it is. -/
def ofDeclaration (unit : TranslationUnit) (declaration : Declaration) : Examination :=
  let located (cause : Cause) : Fault :=
    (Fault.ofCause cause).located declaration.displayName declaration.location
  match Marking.ofPayloads declaration.payloads declaration.kind.target with
  | .error cause => { faults := [located cause] }
  | .ok marking =>
      { faults := (causes unit declaration marking).map located
        warnings := (warningsFor declaration marking).map fun warning =>
          warning.located declaration.displayName declaration.location
        marking := some marking }

end Examination

/-- The annotations of the declarations of a unit that say something. -/
structure MarkingTable where
  entries : List (Nat × Marking)

namespace MarkingTable

/-- The annotation of a declaration, which is empty if it has none. -/
def get (table : MarkingTable) (id : Nat) : Marking :=
  ((table.entries.find? fun entry => entry.1 == id).map (·.2)).getD .empty

/-- How many declarations have an annotation that says something. -/
def size (table : MarkingTable) : Nat := table.entries.length

/-- The entry of a declaration, if its annotation says something. -/
def entryOf? (unit : TranslationUnit) (declaration : Declaration) : Option (Nat × Marking) :=
  match (Examination.ofDeclaration unit declaration).marking with
  | some marking => if marking.isEmpty then none else some (declaration.id, marking)
  | none => none

/-- The annotations of all declarations, or all faults in them. -/
def ofUnit (unit : TranslationUnit) : Except (List Fault) MarkingTable :=
  let faults := unit.declarations.flatMap fun declaration =>
    (Examination.ofDeclaration unit declaration).faults
  if faults.isEmpty then .ok ⟨unit.declarations.filterMap (entryOf? unit)⟩
  else .error faults

def warnings (unit : TranslationUnit) : List Diagnostic :=
  unit.declarations.flatMap fun declaration =>
    (Examination.ofDeclaration unit declaration).warnings

end MarkingTable

end Registrar
