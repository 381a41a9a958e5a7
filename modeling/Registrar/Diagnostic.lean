import Registrar.Fault

/-!
Contract: problems as they are reported.

Owns: the reported form of warnings and faults, its text, and the outcome of a
run that failed.

Does not own: the causes and their wording.
-/

set_option autoImplicit false

namespace Registrar

/-- Whether a problem ends the run. -/
inductive Severity where
  /-- The item concerned is left out or adjusted, and the run goes on. -/
  | warning
  /-- The run fails. -/
  | error
  deriving DecidableEq

def Severity.text : Severity → String
  | warning => "warning"
  | error => "error"

/-- A problem as it is reported. -/
structure Diagnostic where
  severity : Severity
  category : String
  message : String
  declaration : Option String := none
  location : Option Location := none
  notes : List String := []
  deriving DecidableEq

namespace Diagnostic

/-- A warning that concerns no declaration in particular. -/
def warning (category message : String) : Diagnostic :=
  { severity := .warning, category, message }

/-- Says which declaration the problem concerns. -/
def located (diagnostic : Diagnostic) (declaration : String) (location : Location) :
    Diagnostic :=
  { diagnostic with declaration := some declaration, location := some location }

/-- The reported form of a fault. -/
def ofFault (fault : Fault) : Diagnostic :=
  { severity := .error
    category := fault.cause.category
    message := fault.cause.message
    declaration := fault.declaration?
    location := fault.location?
    notes := (fault.subject.map fun subject => subject.notes.map Note.text).getD [] }

/-- The lines of the report on the problem. -/
def text (diagnostic : Diagnostic) : String :=
  let subject := match diagnostic.declaration with
    | some name => " (in '" ++ name ++ "')"
    | none => ""
  let place := match diagnostic.location with
    | some location => " at " ++ location.text
    | none => ""
  diagnostic.severity.text ++ "[" ++ diagnostic.category ++ "]: " ++ diagnostic.message
    ++ subject ++ place ++ String.join (diagnostic.notes.map noteLine)

end Diagnostic

/-- A run that failed: its faults, and the warnings raised before it stopped,
both in the order in which they were found. -/
structure Failure where
  faults : List Fault
  warnings : List Diagnostic
  deriving DecidableEq

namespace Failure

/-- Everything there is to report, faults first. -/
def diagnostics (failure : Failure) : List Diagnostic :=
  failure.faults.map Diagnostic.ofFault ++ failure.warnings

def hasCategory (failure : Failure) (category : String) : Bool :=
  failure.faults.any fun fault => fault.cause.category == category

/-- The first fault, and how many there are besides. -/
def summary (failure : Failure) : String :=
  match failure.faults with
  | [] => "generation failed"
  | [only] => only.cause.message
  | first :: others =>
      first.cause.message ++ " (and " ++ toString others.length ++ " more errors)"

end Failure

end Registrar
