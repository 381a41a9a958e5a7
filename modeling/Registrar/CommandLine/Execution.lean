import Registrar.CommandLine.Options
import Registrar.Json.Printer
import Registrar.MessagePack
import Registrar.Plan
import Registrar.Record.Encoding
import Registrar.TranslationUnit.Encoding

/-!
Contract: one run of the command, without files and streams.

Owns: the output, the warnings and the outline of a run, how a run ends that
fails, and what is reported then.

Does not own: reading and writing, and the steps of a plan.
-/

set_option autoImplicit false

namespace Registrar.CommandLine

/-- Why a run ended without records. -/
inductive RunError where
  | usage (error : UsageError)
  | input (failure : ReadFailure)
  | generation (failure : Failure)

namespace RunError

/-- The number that the command ends with. -/
def exitCode : RunError → UInt32
  | usage _ => 2
  | input _ => 1
  | generation _ => 1

def report : RunError → List String
  | usage error => ["error: " ++ error.message]
  | input failure => [(Diagnostic.ofFault ⟨failure.cause, none⟩).text]
  | generation failure => failure.diagnostics.map Diagnostic.text

end RunError

/-- Records as they are written. -/
inductive Output where
  | text (content : String)
  | bytes (content : List UInt8)

namespace Output

/-- Writes records in a format. Text ends with the end of a line. -/
def ofRecords (format : Format) (records : List Record) : Output :=
  match format with
  | .json => text ((Record.listToJson records).toPrettyText ++ "\n")
  | .messagePack => bytes (MessagePack.encode (Record.listToJson records))

def toByteArray : Output → ByteArray
  | text content => content.toUTF8
  | bytes content => ⟨content.toArray⟩

end Output

/-- What a run leaves that did not fail. -/
structure Execution where
  output : Output
  warnings : List Diagnostic
  /-- The outline of the graph, if it is asked for. -/
  outline : Option String

namespace Execution

/-- What the plan of a unit leaves. -/
def ofPlan (options : Options) (plan : Plan) : Execution :=
  { output := .ofRecords options.format (plan.records options.configuration)
    warnings := plan.warnings
    outline := options.outline.map fun stage =>
      Outline.text plan.groundwork.graph plan.groundwork.visibility stage }

def ofText (options : Options) (input : String) : Except RunError Execution :=
  match TranslationUnit.ofText input with
  | .error failure => .error (.input failure)
  | .ok unit =>
      match Plan.ofUnit options.configuration unit with
      | .error failure => .error (.generation failure)
      | .ok plan => .ok (ofPlan options plan)

end Execution

end Registrar.CommandLine
