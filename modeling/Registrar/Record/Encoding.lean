import Registrar.Json.Part
import Registrar.Record.Basic

/-!
Contract: records as JSON values.

Owns: the fields of each record and their order, and reading and writing them.

Does not own: the text or the bytes of values.
-/

set_option autoImplicit false

namespace Registrar

/-! ## Writing -/

def ParameterRecord.toJson (parameter : ParameterRecord) : Json :=
  .object [("name", .string parameter.name), ("type", .string parameter.type),
    ("has_default", .bool parameter.hasDefault),
    ("default", .textOrNull parameter.defaultValue), ("convert", .bool parameter.convert),
    ("required", .bool parameter.required)]

/-- A returned value with its fields. -/
def ReturnRecord.toJson (returned : ReturnRecord) : Json :=
  .object [("type", .string returned.type), ("policy", .string returned.policy.name)]

/-- A pair of arguments with its fields. -/
def KeepAliveRecord.toJson (pair : KeepAliveRecord) : Json :=
  .object [("nurse", .nat pair.nurse), ("patient", .nat pair.patient)]

def FunctionRecord.toFields (function : FunctionRecord) : List (String × Json) :=
  [("scope", .string function.scope), ("name", .string function.name),
    ("qualified_name", .string function.qualifiedName),
    ("params", .array (function.parameters.map ParameterRecord.toJson)),
    ("returns", function.returns.toJson),
    ("keep_alive", .array (function.keepAlive.map KeepAliveRecord.toJson)),
    ("is_static", .bool function.isStatic), ("is_const", .bool function.isConst),
    ("doc", .textOrNull function.doc), ("inlined_from", .textOrNull function.inlinedFrom)]

def ConstructorRecord.toJson (overload : ConstructorRecord) : Json :=
  .object [("qualified_name", .string overload.qualifiedName),
    ("params", .array (overload.parameters.map ParameterRecord.toJson)),
    ("keep_alive", .array (overload.keepAlive.map KeepAliveRecord.toJson)),
    ("implicit_conversion", .bool overload.implicitConversion),
    ("inherited", .bool overload.isInherited), ("doc", .textOrNull overload.doc)]

def FieldRecord.toFields (field : FieldRecord) : List (String × Json) :=
  [("scope", .string field.scope), ("name", .string field.name),
    ("qualified_name", .string field.qualifiedName), ("type", .string field.type),
    ("readonly", .bool field.readonly), ("is_static", .bool field.isStatic),
    ("doc", .textOrNull field.doc), ("inlined_from", .textOrNull field.inlinedFrom)]

/-- The sort of a context with its fields, the first of which names it. -/
def ContextSort.toJson : ContextSort → Json
  | root => .object [("type", .string "root")]
  | module => .object [("type", .string "module")]
  | .class bases holderType dynamicAttributes =>
      .object [("type", .string "class"), ("bases", .array (bases.map Json.string)),
        ("holder_type", .textOrNull holderType), ("dynamic_attr", .bool dynamicAttributes)]

def ContextRecord.toFields (context : ContextRecord) : List (String × Json) :=
  [("identifier", .string context.identifier), ("scope", .textOrNull context.scope),
    ("qualified_name", .string context.qualifiedName),
    ("exposed_name", .string context.exposedName), ("context", context.sort.toJson),
    ("doc", .textOrNull context.doc)]

def EnumRecord.toFields (enum : EnumRecord) : List (String × Json) :=
  [("identifier", .string enum.identifier), ("scope", .string enum.scope),
    ("qualified_name", .string enum.qualifiedName), ("exposed_name", .string enum.exposedName),
    ("scoped", .bool enum.isScoped), ("arithmetic", .bool enum.arithmetic),
    ("export_values", .bool enum.exportValues), ("doc", .textOrNull enum.doc)]

def PropertyRecord.toFields (property : PropertyRecord) : List (String × Json) :=
  [("scope", .string property.scope), ("name", .string property.name),
    ("getter", .string property.getter), ("setter", .textOrNull property.setter),
    ("doc", .textOrNull property.doc)]

def EnumeratorRecord.toFields (enumerator : EnumeratorRecord) : List (String × Json) :=
  [("scope", .string enumerator.scope), ("name", .string enumerator.name),
    ("qualified_name", .string enumerator.qualifiedName),
    ("value", .textOrNull enumerator.value), ("doc", .textOrNull enumerator.doc)]

/-- The fields of a second name. -/
def AliasRecord.toFields (named : AliasRecord) : List (String × Json) :=
  [("scope", .string named.scope), ("name", .string named.name),
    ("qualified_name", .string named.qualifiedName), ("target", .textOrNull named.target),
    ("target_qualified_name", .string named.targetQualifiedName)]

namespace Record

def toFields : Record → List (String × Json)
  | contextOpen opened => opened.toFields
  | enum opened => opened.toFields
  | contextClose identifier exportValues =>
      [("identifier", .string identifier), ("export_values", .bool exportValues)]
  | constructors scope overloads =>
      [("scope", .string scope),
        ("overloads", .array (overloads.map ConstructorRecord.toJson))]
  | method called => called.toFields
  | function called => called.toFields
  | operator slot reflected called =>
      [("slot", .string slot), ("reflected", .bool reflected),
        ("function", .object called.toFields)]
  | field stored => stored.toFields
  | .variable stored => stored.toFields
  | property stored => stored.toFields
  | enumerator named => named.toFields
  | .typeAlias named => named.toFields
  | manualBlock scope body => [("scope", .string scope), ("body", .string body)]

/-- A record with its kind first. -/
def toJson (record : Record) : Json :=
  .object (("kind", .string record.kind) :: record.toFields)

def listToJson (records : List Record) : Json :=
  .array (records.map toJson)

end Record

/-! ## Reading -/

open Decode

def ParameterRecord.ofJson? (value : Json) : Option ParameterRecord := do
  let fields ←
    wholePart? ["name", "type", "has_default", "default", "convert", "required"] value
  let name ← required? fields "name" text?
  let type ← required? fields "type" text?
  let hasDefault ← required? fields "has_default" bool?
  let defaultValue ← defaulted? fields "default" (optional? text?) none
  let convert ← required? fields "convert" bool?
  let required ← required? fields "required" bool?
  return { name, type, hasDefault, defaultValue, convert, required }

def ReturnRecord.ofJson? (value : Json) : Option ReturnRecord := do
  let fields ← wholePart? ["type", "policy"] value
  let type ← required? fields "type" text?
  let policy ← required? fields "policy" (looselyNamed? ReturnPolicy.all ReturnPolicy.name)
  return { type, policy }

/-- A pair of arguments. -/
def KeepAliveRecord.ofJson? (value : Json) : Option KeepAliveRecord := do
  let fields ← wholePart? ["nurse", "patient"] value
  let nurse ← required? fields "nurse" word?
  let patient ← required? fields "patient" word?
  return { nurse, patient }

def FunctionRecord.ofJson? (value : Json) : Option FunctionRecord := do
  let fields ←
    wholePart? ["scope", "name", "qualified_name", "params", "returns", "keep_alive",
      "is_static", "is_const", "doc", "inlined_from"] value
  let scope ← required? fields "scope" text?
  let name ← required? fields "name" text?
  let qualifiedName ← required? fields "qualified_name" text?
  let parameters ← required? fields "params" (list? ParameterRecord.ofJson?)
  let returns ← required? fields "returns" ReturnRecord.ofJson?
  let keepAlive ← required? fields "keep_alive" (list? KeepAliveRecord.ofJson?)
  let isStatic ← required? fields "is_static" bool?
  let isConst ← required? fields "is_const" bool?
  let doc ← defaulted? fields "doc" (optional? text?) none
  let inlinedFrom ← defaulted? fields "inlined_from" (optional? text?) none
  return { scope, name, qualifiedName, parameters, returns, keepAlive, isStatic, isConst,
           doc, inlinedFrom }

def ConstructorRecord.ofJson? (value : Json) : Option ConstructorRecord := do
  let fields ←
    wholePart? ["qualified_name", "params", "keep_alive", "implicit_conversion", "inherited",
      "doc"] value
  let qualifiedName ← required? fields "qualified_name" text?
  let parameters ← required? fields "params" (list? ParameterRecord.ofJson?)
  let keepAlive ← required? fields "keep_alive" (list? KeepAliveRecord.ofJson?)
  let implicitConversion ← required? fields "implicit_conversion" bool?
  let isInherited ← required? fields "inherited" bool?
  let doc ← defaulted? fields "doc" (optional? text?) none
  return { qualifiedName, parameters, keepAlive, implicitConversion, isInherited, doc }

def FieldRecord.ofJson? (value : Json) : Option FieldRecord := do
  let fields ←
    wholePart? ["scope", "name", "qualified_name", "type", "readonly", "is_static", "doc",
      "inlined_from"] value
  let scope ← required? fields "scope" text?
  let name ← required? fields "name" text?
  let qualifiedName ← required? fields "qualified_name" text?
  let type ← required? fields "type" text?
  let readonly ← required? fields "readonly" bool?
  let isStatic ← required? fields "is_static" bool?
  let doc ← defaulted? fields "doc" (optional? text?) none
  let inlinedFrom ← defaulted? fields "inlined_from" (optional? text?) none
  return { scope, name, qualifiedName, type, readonly, isStatic, doc, inlinedFrom }

namespace ContextSort

/-- The sorts in the order of their numbers. -/
def tags : List String := ["root", "module", "class"]

def classOfJson? (value : Json) : Option ContextSort := do
  let fields ← wholePart? ["bases", "holder_type", "dynamic_attr"] value
  let bases ← required? fields "bases" (list? text?)
  let holderType ← defaulted? fields "holder_type" (optional? text?) none
  let dynamicAttributes ← required? fields "dynamic_attr" bool?
  return .class bases holderType dynamicAttributes

/-- The sort with this tag. Only a class has fields, and those of the others are
not looked at. -/
def ofTag? (tag : String) (value : Json) : Option ContextSort :=
  match tag with
  | "root" => (emptyPart? value).map fun _ => root
  | "module" => (emptyPart? value).map fun _ => module
  | "class" => classOfJson? value
  | _ => none

/-- A sort, whose tag stands among its fields, or first in the list of them. -/
def ofJson? : Json → Option ContextSort
  | .object fields => do
      if noneRepeated ["type"] fields then
        let tag ← required? fields "type" (tag? tags id)
        ofTag? tag (.object fields)
      else none
  | .array (first :: items) => do
      let tag ← tag? tags id first
      ofTag? tag (.array items)
  | _ => none

end ContextSort

def ContextRecord.ofJson? (value : Json) : Option ContextRecord := do
  let fields ←
    wholePart? ["identifier", "scope", "qualified_name", "exposed_name", "context", "doc"] value
  let identifier ← required? fields "identifier" text?
  let scope ← defaulted? fields "scope" (optional? text?) none
  let qualifiedName ← required? fields "qualified_name" text?
  let exposedName ← required? fields "exposed_name" text?
  let sort ← required? fields "context" ContextSort.ofJson?
  let doc ← defaulted? fields "doc" (optional? text?) none
  return { identifier, scope, qualifiedName, exposedName, sort, doc }

def EnumRecord.ofJson? (value : Json) : Option EnumRecord := do
  let fields ←
    wholePart? ["identifier", "scope", "qualified_name", "exposed_name", "scoped", "arithmetic",
      "export_values", "doc"] value
  let identifier ← required? fields "identifier" text?
  let scope ← required? fields "scope" text?
  let qualifiedName ← required? fields "qualified_name" text?
  let exposedName ← required? fields "exposed_name" text?
  let isScoped ← required? fields "scoped" bool?
  let arithmetic ← required? fields "arithmetic" bool?
  let exportValues ← required? fields "export_values" bool?
  let doc ← defaulted? fields "doc" (optional? text?) none
  return { identifier, scope, qualifiedName, exposedName, isScoped, arithmetic,
           exportValues, doc }

def PropertyRecord.ofJson? (value : Json) : Option PropertyRecord := do
  let fields ← wholePart? ["scope", "name", "getter", "setter", "doc"] value
  let scope ← required? fields "scope" text?
  let name ← required? fields "name" text?
  let getter ← required? fields "getter" text?
  let setter ← defaulted? fields "setter" (optional? text?) none
  let doc ← defaulted? fields "doc" (optional? text?) none
  return { scope, name, getter, setter, doc }

def EnumeratorRecord.ofJson? (value : Json) : Option EnumeratorRecord := do
  let fields ← wholePart? ["scope", "name", "qualified_name", "value", "doc"] value
  let scope ← required? fields "scope" text?
  let name ← required? fields "name" text?
  let qualifiedName ← required? fields "qualified_name" text?
  let spelling ← defaulted? fields "value" (optional? text?) none
  let doc ← defaulted? fields "doc" (optional? text?) none
  return { scope, name, qualifiedName, value := spelling, doc }

/-- A second name. -/
def AliasRecord.ofJson? (value : Json) : Option AliasRecord := do
  let fields ←
    wholePart? ["scope", "name", "qualified_name", "target", "target_qualified_name"] value
  let scope ← required? fields "scope" text?
  let name ← required? fields "name" text?
  let qualifiedName ← required? fields "qualified_name" text?
  let target ← defaulted? fields "target" (optional? text?) none
  let targetQualifiedName ← required? fields "target_qualified_name" text?
  return { scope, name, qualifiedName, target, targetQualifiedName }

namespace Record

def contextCloseOfJson? (value : Json) : Option Record := do
  let fields ← wholePart? ["identifier", "export_values"] value
  let identifier ← required? fields "identifier" text?
  let exportValues ← required? fields "export_values" bool?
  return contextClose identifier exportValues

def constructorsOfJson? (value : Json) : Option Record := do
  let fields ← wholePart? ["scope", "overloads"] value
  let scope ← required? fields "scope" text?
  let overloads ← required? fields "overloads" (list? ConstructorRecord.ofJson?)
  return constructors scope overloads

/-- A function for a special method. -/
def operatorOfJson? (value : Json) : Option Record := do
  let fields ← wholePart? ["slot", "reflected", "function"] value
  let slot ← required? fields "slot" text?
  let reflected ← required? fields "reflected" bool?
  let called ← required? fields "function" FunctionRecord.ofJson?
  return operator slot reflected called

def manualBlockOfJson? (value : Json) : Option Record := do
  let fields ← wholePart? ["scope", "body"] value
  let scope ← required? fields "scope" text?
  let body ← required? fields "body" text?
  return manualBlock scope body

def ofKind? (kind : String) (value : Json) : Option Record :=
  match kind with
  | "context-open" => (ContextRecord.ofJson? value).map contextOpen
  | "enum" => (EnumRecord.ofJson? value).map enum
  | "context-close" => contextCloseOfJson? value
  | "constructors" => constructorsOfJson? value
  | "method" => (FunctionRecord.ofJson? value).map method
  | "function" => (FunctionRecord.ofJson? value).map function
  | "operator" => operatorOfJson? value
  | "field" => (FieldRecord.ofJson? value).map field
  | "variable" => (FieldRecord.ofJson? value).map .variable
  | "property" => (PropertyRecord.ofJson? value).map property
  | "enumerator" => (EnumeratorRecord.ofJson? value).map enumerator
  | "alias" => (AliasRecord.ofJson? value).map .typeAlias
  | "manual-block" => manualBlockOfJson? value
  | _ => none

/-- A record, whose fields may come in any order among others, or in a list after
its kind. -/
def ofJson? : Json → Option Record
  | .object fields => do
      if noneRepeated ["kind"] fields then
        let kind ← required? fields "kind" text?
        ofKind? kind (.object fields)
      else none
  | .array (first :: items) => do
      let kind ← text? first
      ofKind? kind (.array items)
  | _ => none

def listOfJson? : Json → Option (List Record) := list? ofJson?

end Record

end Registrar
