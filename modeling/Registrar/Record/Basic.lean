import Registrar.Marking.Directive

/-!
Contract: registrations as records.

Owns: the records that an emitter turns into calls, each of one fixed form.

Does not own: how records are written, and which there are.

Records name the scope that they register in by its identifier, which an
earlier record opened. Closing a context ends its own items and not its life as
a scope.
-/

set_option autoImplicit false

namespace Registrar

structure ParameterRecord where
  name : String
  type : String
  hasDefault : Bool
  defaultValue : Option String
  /-- Whether arguments are converted. -/
  convert : Bool
  /-- Whether an argument must be an object. -/
  required : Bool
  deriving DecidableEq

/-- What is known of a returned value. -/
structure ReturnRecord where
  type : String
  policy : ReturnPolicy
  deriving DecidableEq

/-- The patient lives at least as long as the nurse. -/
structure KeepAliveRecord where
  nurse : Nat
  patient : Nat
  deriving DecidableEq

structure FunctionRecord where
  scope : String
  name : String
  qualifiedName : String
  parameters : List ParameterRecord
  returns : ReturnRecord
  keepAlive : List KeepAliveRecord
  isStatic : Bool
  isConst : Bool
  doc : Option String
  /-- The class from which a member was inlined. -/
  inlinedFrom : Option String
  deriving DecidableEq

/-- One constructor among overloads. -/
structure ConstructorRecord where
  qualifiedName : String
  parameters : List ParameterRecord
  keepAlive : List KeepAliveRecord
  implicitConversion : Bool
  isInherited : Bool
  doc : Option String
  deriving DecidableEq

structure FieldRecord where
  scope : String
  name : String
  qualifiedName : String
  type : String
  readonly : Bool
  isStatic : Bool
  doc : Option String
  /-- The class from which a member was inlined. -/
  inlinedFrom : Option String
  deriving DecidableEq

inductive ContextSort where
  | root
  | module
  | «class» (bases : List String) (holderType : Option String) (dynamicAttributes : Bool)
  deriving DecidableEq

structure ContextRecord where
  identifier : String
  /-- The scope around it, which the root has none of. -/
  scope : Option String
  qualifiedName : String
  exposedName : String
  sort : ContextSort
  doc : Option String
  deriving DecidableEq

structure EnumRecord where
  identifier : String
  scope : String
  qualifiedName : String
  exposedName : String
  isScoped : Bool
  arithmetic : Bool
  exportValues : Bool
  doc : Option String
  deriving DecidableEq

/-- A property, with the names of its accessors. -/
structure PropertyRecord where
  scope : String
  name : String
  getter : String
  setter : Option String
  doc : Option String
  deriving DecidableEq

structure EnumeratorRecord where
  scope : String
  name : String
  qualifiedName : String
  value : Option String
  doc : Option String
  deriving DecidableEq

/-- A second name for a class or enum. -/
structure AliasRecord where
  scope : String
  name : String
  qualifiedName : String
  /-- The identifier of the target, if it is registered here. -/
  target : Option String
  targetQualifiedName : String
  deriving DecidableEq

/-- One registration. -/
inductive Record where
  | contextOpen (context : ContextRecord)
  | enum (enum : EnumRecord)
  | contextClose (identifier : String) (exportValues : Bool)
  | constructors (scope : String) (overloads : List ConstructorRecord)
  | method (function : FunctionRecord)
  | function (function : FunctionRecord)
  /-- A function that is bound to a special method of the host. -/
  | operator (slot : String) (reflected : Bool) (function : FunctionRecord)
  | field (field : FieldRecord)
  | «variable» (field : FieldRecord)
  | property (property : PropertyRecord)
  | enumerator (enumerator : EnumeratorRecord)
  | typeAlias (named : AliasRecord)
  | manualBlock (scope body : String)
  deriving DecidableEq

namespace Record

/-- The spelling of the sort of record. -/
def kind : Record → String
  | contextOpen _ => "context-open"
  | enum _ => "enum"
  | contextClose _ _ => "context-close"
  | constructors _ _ => "constructors"
  | method _ => "method"
  | function _ => "function"
  | operator _ _ _ => "operator"
  | field _ => "field"
  | .variable _ => "variable"
  | property _ => "property"
  | enumerator _ => "enumerator"
  | .typeAlias _ => "alias"
  | manualBlock _ _ => "manual-block"

/-- The scope that the record registers in, or the one that it closes. -/
def scope? : Record → Option String
  | contextOpen opened => opened.scope
  | enum opened => some opened.scope
  | contextClose identifier _ => some identifier
  | constructors scope _ => some scope
  | method called => some called.scope
  | function called => some called.scope
  | operator _ _ called => some called.scope
  | field stored => some stored.scope
  | .variable stored => some stored.scope
  | property stored => some stored.scope
  | enumerator named => some named.scope
  | .typeAlias named => some named.scope
  | manualBlock scope _ => some scope

/-- The name under which the host sees what is registered. -/
def exposedName? : Record → Option String
  | contextOpen opened => some opened.exposedName
  | enum opened => some opened.exposedName
  | contextClose _ _ => none
  | constructors _ _ => some "__init__"
  | method called => some called.name
  | function called => some called.name
  | operator slot _ _ => some slot
  | field stored => some stored.name
  | .variable stored => some stored.name
  | property stored => some stored.name
  | enumerator named => some named.name
  | .typeAlias named => some named.name
  | manualBlock _ _ => none

end Record

end Registrar
