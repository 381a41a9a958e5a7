import Registrar.Instantiation.Basic
import Registrar.Record.Stream

/-!
Contract: the plan of all registrations of a unit.

Owns: which steps lead from a unit to its records, and which of their faults end
a run together.

Does not own: the steps themselves.

Faults of annotations and of the graph end a run at once. Those of
instantiations, bases and properties end it together, before anything is put in
order.
-/

set_option autoImplicit false

namespace Registrar

/-- Everything that is known of a unit before its records are written. -/
structure Plan where
  groundwork : Groundwork
  instantiations : Instantiations
  schedule : Schedule
  /-- The warnings in the order in which they were raised. -/
  warnings : List Diagnostic

namespace Plan

/-- The faults of a step, none if it has a result. -/
def faultsOf {α : Type} : Except (List Fault) α → List Fault
  | .ok _ => []
  | .error faults => faults

/-- What is made of the classes of a graph: what they take from their bases, and
their properties, or all faults of either. -/
structure ClassWork where
  inheritance : Except (List Fault) Inheritance
  properties : Except (List Fault) PropertyTable
  warnings : List Diagnostic

/-- Looks at the classes of a graph. Without what they take from their bases they
have no properties. -/
def ClassWork.ofGraph (graph : Graph) (visibility : Visibility)
    (configuration : Configuration) : ClassWork :=
  let (inheritance, warnings) := Inheritance.ofGraph graph visibility configuration
  { inheritance
    properties := match inheritance with
      | .ok found => PropertyTable.ofGraph graph visibility found
      | .error _ => .ok ⟨[]⟩
    warnings }

/-- The decisions for a graph with the names of its instantiations, or without
them if there are conflicts. -/
def named (visibility : Visibility) (instantiations : Except (List Fault) Instantiations) :
    Visibility :=
  match instantiations with
  | .ok found => found.rename visibility
  | .error _ => visibility

/-- Everything that is known of a graph before registrations are put in order. -/
structure Preparation where
  visibility : Visibility
  instantiations : Except (List Fault) Instantiations
  classes : ClassWork

namespace Preparation

/-- Names the instantiations of a graph and looks at its classes. -/
def ofGraph (configuration : Configuration) (unit : TranslationUnit) (graph : Graph) :
    Preparation :=
  let decided := Visibility.ofGraph graph configuration
  let instantiations := Instantiations.resolve unit graph decided
  let visibility := named decided instantiations
  { visibility, instantiations
    classes := ClassWork.ofGraph graph visibility configuration }

/-- All faults found so far. -/
def faults (preparation : Preparation) : List Fault :=
  faultsOf preparation.instantiations ++ faultsOf preparation.classes.inheritance
    ++ faultsOf preparation.classes.properties

def warnings (graph : Graph) (preparation : Preparation) : List Diagnostic :=
  Instantiation.unmatchedWarnings graph ++ preparation.classes.warnings

end Preparation

/-- The groundwork of a graph whose classes are in order. -/
def groundworkOf (graph : Graph) (visibility : Visibility) (inheritance : Inheritance)
    (properties : PropertyTable) : Groundwork :=
  { graph, visibility, inheritance, properties
    operators := OperatorTable.ofGraph graph visibility inheritance }

/-- Puts the registrations of a graph in order. -/
def ofGraph (configuration : Configuration) (unit : TranslationUnit) (graph : Graph)
    (earlier : List Diagnostic) : Except Failure Plan :=
  let preparation := Preparation.ofGraph configuration unit graph
  let warnings := earlier ++ preparation.warnings graph
  match preparation.instantiations, preparation.classes.inheritance,
      preparation.classes.properties with
  | .ok instantiations, .ok inheritance, .ok properties =>
      let groundwork := groundworkOf graph preparation.visibility inheritance properties
      let warnings := warnings ++ Schedule.warnings graph preparation.visibility
      match Schedule.ofGroundwork groundwork with
      | .ok schedule => .ok { groundwork, instantiations, schedule, warnings }
      | .error faults => .error { faults, warnings }
  | _, _, _ => .error { faults := preparation.faults, warnings }

def ofUnit (configuration : Configuration) (unit : TranslationUnit) : Except Failure Plan :=
  let warnings := MarkingTable.warnings unit
  match MarkingTable.ofUnit unit with
  | .error faults => .error { faults, warnings }
  | .ok table =>
      match Graph.ofUnit unit table with
      | .error faults => .error { faults, warnings }
      | .ok graph => ofGraph configuration unit graph warnings

def records (configuration : Configuration) (plan : Plan) : List Record :=
  Record.ofSchedule plan.groundwork configuration plan.schedule

end Plan

/-- The outcome of a run that did not fail. -/
structure Generation where
  records : List Record
  warnings : List Diagnostic

/-- Plans the registrations of a unit and writes their records. -/
def Generation.ofUnit (configuration : Configuration) (unit : TranslationUnit) :
    Except Failure Generation :=
  match Plan.ofUnit configuration unit with
  | .ok plan => .ok ⟨plan.records configuration, plan.warnings⟩
  | .error failure => .error failure

end Registrar
