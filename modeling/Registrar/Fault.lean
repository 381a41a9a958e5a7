import Registrar.Location

/-!
Contract: what can go wrong, as causes.

Owns: the causes of failure, the category and the wording of each, and the
place and notes that a fault carries.

Does not own: when a fault arises, and how it is reported.
-/

set_option autoImplicit false

namespace Registrar

/-- Why a step failed. -/
inductive Cause where
  /-- An annotation names a directive that does not exist. -/
  | unknownDirective (name : String)
  /-- A directive argument has the wrong type or an unsupported value. -/
  | badValue (directive message : String)
  /-- A directive was given the wrong number of arguments. -/
  | wrongArity (directive expected : String) (actual : Nat)
  /-- The annotation text has a character or a token out of place. -/
  | invalidToken (message : String) (column : Nat)
  /-- An argument list ends with the text. -/
  | missingClosingParenthesis (directive : String)
  /-- A directive means nothing on this kind of declaration. -/
  | invalidForDeclaration (directive declarationKind : String)
  /-- A name to expose under is no identifier. -/
  | invalidIdentifier (spelling : String)
  /-- An argument reference names no parameter. -/
  | unknownArgument (directive argument : String)
  /-- Two directives of one declaration exclude each other. -/
  | conflictingDirectives (first second : String)
  /-- Redeclarations of one entity contradict each other. -/
  | conflictingRedeclarations (name directive : String)
  /-- A declaration is moved twice. -/
  | alreadyExposedElsewhere (name : String)
  /-- A declaration is moved into a context that does not exist. -/
  | unreachableExposure (name target : String)
  /-- Contexts depend on each other in a circle. -/
  | cyclicDependency (participants : List String)
  /-- Two instantiations would be exposed under one name. -/
  | duplicateInstantiationName (name first : String) (firstLocation : Location)
      (second : String) (secondLocation : Location)
  /-- A class reaches itself through its bases. -/
  | baseClassCycle (classes : List String)
  /-- A property can be set and not read. -/
  | setterWithoutGetter (property : String)
  /-- A property has two accessors of one sort. -/
  | duplicateProperty (property accessor : String)
  /-- A manual block is placed as only blocks at the root can be. -/
  | misplacedManualBlock (placement : String)
  /-- A manual block is anchored to a member that does not exist. -/
  | unknownAnchor (anchor : String)
  /-- The translation unit contradicts itself. -/
  | malformedInput (message : String)
  deriving DecidableEq

namespace Cause

def category : Cause → String
  | unknownDirective .. => "parse-error/unknown-directive"
  | badValue .. => "parse-error/bad-value"
  | wrongArity .. => "parse-error/wrong-arity"
  | invalidToken .. => "parse-error/invalid-token"
  | missingClosingParenthesis .. => "parse-error/missing-closing-paren"
  | invalidForDeclaration .. => "parse-error/invalid-for-declaration"
  | invalidIdentifier .. => "parse-error/invalid-identifier"
  | unknownArgument .. => "parse-error/unknown-argument"
  | conflictingDirectives .. => "parse-error/conflicting-directives"
  | conflictingRedeclarations .. => "conflicting-redeclarations"
  | alreadyExposedElsewhere .. => "already-exposed-elsewhere"
  | unreachableExposure .. => "unreachable-exposure"
  | cyclicDependency .. => "scheduling-error/cyclic-dependency"
  | duplicateInstantiationName .. => "duplicate-instantiation-name"
  | baseClassCycle .. => "base-class-cycle"
  | setterWithoutGetter .. => "property/setter-without-getter"
  | duplicateProperty .. => "property/duplicate"
  | misplacedManualBlock .. => "manual-block/misplaced"
  | unknownAnchor .. => "manual-block/unknown-anchor"
  | malformedInput .. => "malformed-input"

def message : Cause → String
  | unknownDirective name => "unknown directive '" ++ name ++ "'"
  | badValue directive message => "bad value for '" ++ directive ++ "': " ++ message
  | wrongArity directive expected actual =>
      "wrong number of arguments for '" ++ directive ++ "': expected " ++ expected
        ++ ", got " ++ toString actual
  | invalidToken message column =>
      "invalid token at column " ++ toString column ++ ": " ++ message
  | missingClosingParenthesis directive =>
      "missing closing parenthesis after arguments of '" ++ directive ++ "'"
  | invalidForDeclaration directive declarationKind =>
      "'" ++ directive ++ "' cannot be applied to " ++ declarationKind
  | invalidIdentifier spelling => "'" ++ spelling ++ "' is not a valid identifier"
  | unknownArgument directive argument =>
      "'" ++ directive ++ "' refers to unknown argument '" ++ argument ++ "'"
  | conflictingDirectives first second =>
      "'" ++ first ++ "' cannot be combined with '" ++ second ++ "'"
  | conflictingRedeclarations name directive =>
      "redeclarations of '" ++ name ++ "' disagree on '" ++ directive ++ "'"
  | alreadyExposedElsewhere name => "'" ++ name ++ "' is already exposed elsewhere"
  | unreachableExposure name target =>
      "cannot expose '" ++ name ++ "' in unknown context '" ++ target ++ "'"
  | cyclicDependency participants =>
      "cyclic dependency between " ++ ", ".intercalate participants
  | duplicateInstantiationName name first firstLocation second secondLocation =>
      "duplicate instantiation name '" ++ name ++ "': " ++ first ++ " at "
        ++ firstLocation.text ++ " and " ++ second ++ " at " ++ secondLocation.text
  | baseClassCycle classes => "base class cycle through " ++ " -> ".intercalate classes
  | setterWithoutGetter property =>
      "property '" ++ property ++ "' has a setter but no getter"
  | duplicateProperty property accessor =>
      "property '" ++ property ++ "' already has a " ++ accessor
  | misplacedManualBlock placement =>
      "manual block placement '" ++ placement
        ++ "' is only valid at the translation unit root"
  | unknownAnchor anchor =>
      "manual block anchor '" ++ anchor ++ "' does not name a member of its context"
  | malformedInput message => "malformed input: " ++ message

def isMarkingCause : Cause → Bool
  | unknownDirective .. | badValue .. | wrongArity .. | invalidToken ..
  | missingClosingParenthesis .. | invalidForDeclaration .. | invalidIdentifier ..
  | unknownArgument .. | conflictingDirectives .. => true
  | _ => false

end Cause

/-- A further remark on a fault, such as where something was seen before. -/
structure Note where
  message : String
  location : Option Location := none
  deriving DecidableEq

/-- The remark with its position after it. -/
def Note.text (note : Note) : String :=
  match note.location with
  | some location => note.message ++ " at " ++ location.text
  | none => note.message

structure Subject where
  declaration : Option String := none
  location : Option Location := none
  notes : List Note := []
  deriving DecidableEq

/-- A new line for a note below the message it belongs to. -/
def noteLine (text : String) : String :=
  "\n  note: " ++ text

/-- The declaration and its position, and a line for each note. -/
def Subject.text (subject : Subject) : String :=
  let place := match subject.declaration, subject.location with
    | some name, some location => "in '" ++ name ++ "' at " ++ location.text
    | some name, none => "in '" ++ name ++ "'"
    | none, some location => "at " ++ location.text
    | none, none => ""
  place ++ String.join (subject.notes.map fun note => noteLine note.text)

/-- A cause together with what it is about, where that is known. -/
structure Fault where
  cause : Cause
  subject : Option Subject := none
  deriving DecidableEq

namespace Fault

def ofCause (cause : Cause) : Fault := ⟨cause, none⟩

/-- Names the declaration at fault and its position, and keeps the notes. -/
def located (fault : Fault) (declaration : String) (location : Location) : Fault :=
  { fault with
    subject := some
      { fault.subject.getD {} with
        declaration := some declaration, location := some location } }

def declaration? (fault : Fault) : Option String :=
  fault.subject.bind (·.declaration)

/-- The position of the declaration at fault, where it is known. -/
def location? (fault : Fault) : Option Location :=
  fault.subject.bind (·.location)

end Fault

end Registrar
