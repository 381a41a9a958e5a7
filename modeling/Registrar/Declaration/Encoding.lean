import Registrar.Declaration.Basic
import Registrar.Json.Part

/-!
Contract: declarations as JSON.

Owns: the fields of a declaration and its parts, which of them may be left out,
and reading and writing them.

Does not own: JSON text.
-/

set_option autoImplicit false

namespace Registrar

/-! ## Reading -/

open Decode

def Access.ofJson? : Json → Option Access :=
  named? Access.all Access.name

def Access.ofBaseJson? : Json → Option Access :=
  looselyNamed? Access.all Access.name

/-- File, line and column, each of which may be left out. -/
def Location.ofJson? (value : Json) : Option Location := do
  let fields ← part? ["file", "line", "column"] value
  let file ← defaulted? fields "file" text? ""
  let line ← defaulted? fields "line" word? 0
  let column ← defaulted? fields "column" word? 0
  return { file, line, column }

/-- A base, of which the name must be given. -/
def BaseClause.ofJson? (value : Json) : Option BaseClause := do
  let fields ← part? ["qualified_name", "access", "is_virtual"] value
  let qualifiedName ← required? fields "qualified_name" text?
  let access ← defaulted? fields "access" Access.ofBaseJson? .public
  let isVirtual ← defaulted? fields "is_virtual" bool? false
  return { qualifiedName, access, isVirtual }

/-- An argument of a template: an object with one field, which says its sort. -/
def TemplateArgument.ofJson? : Json → Option TemplateArgument
  | .object [("type", .string spelling)] => some (.type spelling)
  | .object [("value", .string spelling)] => some (.value spelling)
  | _ => none

/-- The template used, of which the name must be given. -/
def TemplateUse.ofJson? (value : Json) : Option TemplateUse := do
  let fields ← part? ["template", "arguments", "origin"] value
  let template ← required? fields "template" text?
  let arguments ← defaulted? fields "arguments" (list? TemplateArgument.ofJson?) []
  let origin ← defaulted? fields "origin"
    (looselyNamed? InstantiationOrigin.all InstantiationOrigin.name) .implicit
  return { template, arguments, origin }

/-- A parameter, of which the type must be given. -/
def Parameter.ofJson? (value : Json) : Option Parameter := do
  let fields ← part? ["name", "type", "default"] value
  let name ← defaulted? fields "name" text? ""
  let type ← required? fields "type" text?
  let defaultValue ← defaulted? fields "default" (optional? text?) none
  return { name, type, defaultValue }

/-- A signature, which takes nothing and returns nothing unless it says so. -/
def Signature.ofJson? (value : Json) : Option Signature := do
  let fields ← part? ["params", "return_type", "is_deleted"] value
  let parameters ← defaulted? fields "params" (list? Parameter.ofJson?) []
  let returnType ← defaulted? fields "return_type" text? "void"
  let isDeleted ← defaulted? fields "is_deleted" bool? false
  return { parameters, returnType, isDeleted }

namespace DeclarationKind

/-- The kinds in the order of their numbers. -/
def numbered : List Target :=
  [.translationUnit, .namespace, .class, .classTemplate, .functionTemplate, .enum,
    .enumerator, .function, .method, .constructor, .destructor, .conversionFunction,
    .operator, .field, .variable, .typeAlias, .manualBlock]

/-- Which kind it is, written as its name or its number. -/
def tag? : Json → Option Target :=
  Decode.tag? numbered Target.name

/-- The keys of what is known of a kind. -/
def keys : Target → List String
  | .namespace => ["inline"]
  | .class => ["bases", "template"]
  | .enum => ["scoped"]
  | .enumerator => ["value"]
  | .function => ["signature", "template"]
  | .method => ["signature", "is_static", "is_const"]
  | .constructor => ["signature", "is_inherited"]
  | .conversionFunction => ["signature"]
  | .operator => ["symbol", "signature", "is_member"]
  | .field => ["type", "is_const", "is_static"]
  | .variable => ["type", "is_const"]
  | .typeAlias => ["target"]
  | .manualBlock => ["body"]
  | _ => []

/-- What is known of the given kind, from among the fields of a declaration. -/
def ofFields? (fields : List (String × Json)) : Target → Option DeclarationKind
  | .translationUnit => some translationUnit
  | .namespace => do
      return .namespace (← defaulted? fields "inline" bool? false)
  | .class => do
      let bases ← defaulted? fields "bases" (list? BaseClause.ofJson?) []
      let template ← defaulted? fields "template" (optional? TemplateUse.ofJson?) none
      return .class bases template
  | .classTemplate => some classTemplate
  | .functionTemplate => some functionTemplate
  | .enum => do
      return enum (← defaulted? fields "scoped" bool? false)
  | .enumerator => do
      return enumerator (← defaulted? fields "value" (optional? text?) none)
  | .function => do
      let signature ← defaulted? fields "signature" Signature.ofJson? {}
      let template ← defaulted? fields "template" (optional? TemplateUse.ofJson?) none
      return function signature template
  | .method => do
      let signature ← defaulted? fields "signature" Signature.ofJson? {}
      let isStatic ← defaulted? fields "is_static" bool? false
      let isConst ← defaulted? fields "is_const" bool? false
      return method signature isStatic isConst
  | .constructor => do
      let signature ← defaulted? fields "signature" Signature.ofJson? {}
      let isInherited ← defaulted? fields "is_inherited" bool? false
      return constructor signature isInherited
  | .destructor => some destructor
  | .conversionFunction => do
      return conversionFunction (← defaulted? fields "signature" Signature.ofJson? {})
  | .operator => do
      let symbol ← required? fields "symbol" text?
      let signature ← defaulted? fields "signature" Signature.ofJson? {}
      let isMember ← defaulted? fields "is_member" bool? false
      return operator symbol signature isMember
  | .field => do
      let type ← required? fields "type" text?
      let isConst ← defaulted? fields "is_const" bool? false
      let isStatic ← defaulted? fields "is_static" bool? false
      return field type isConst isStatic
  | .variable => do
      let type ← required? fields "type" text?
      let isConst ← defaulted? fields "is_const" bool? false
      return .variable type isConst
  | .typeAlias => do
      return typeAlias (← defaulted? fields "target" (optional? text?) none)
  | .manualBlock => do
      return manualBlock (← required? fields "body" text?)

/-- The kind that the fields of a declaration hold. -/
def ofJsonFields? (fields : List (String × Json)) : Option DeclarationKind := do
  if noneRepeated ["kind"] fields then
    let target ← required? fields "kind" tag?
    if noneRepeated (keys target) fields then ofFields? fields target else none
  else none

end DeclarationKind

namespace Declaration

/-- The keys that every declaration has, apart from those of its kind. -/
def keys : List String :=
  ["id", "name", "qualified_name", "parent", "order", "location", "annotations", "doc",
    "access"]

/-- How deep the values of a field may nest: a text nests at most 127 deep, and
three of these levels are around the field. -/
def fieldDepth : Nat := 124

/-- Whether the value of a field can be read in full. Of a location only the
parts that are used need be readable. -/
def fieldIsReadable (entry : String × Json) : Bool :=
  entry.1 == "location" || entry.2.readableTo fieldDepth

/-- A declaration, whose fields may come in any order among others. -/
def ofJson? : Json → Option Declaration
  | .object fields => do
      if noneRepeated keys fields && fields.all fieldIsReadable then
        let id ← required? fields "id" word?
        let kind ← DeclarationKind.ofJsonFields? fields
        let name ← defaulted? fields "name" text? ""
        let qualifiedName ← defaulted? fields "qualified_name" text? ""
        let parent ← defaulted? fields "parent" (optional? word?) none
        let order ← required? fields "order" word?
        let location ← defaulted? fields "location" Location.ofJson? {}
        let payloads ←
          defaulted? fields "annotations" (list? Marking.Payload.ofJson?) []
        let doc ← defaulted? fields "doc" (optional? text?) none
        let access ← defaulted? fields "access" Access.ofJson? .public
        return { id, kind, name, qualifiedName, parent, order, location, payloads, doc,
                 access }
      else none
  | _ => none

end Declaration

/-! ## Writing -/

/-- A position with its parts. -/
def Location.toJson (location : Location) : Json :=
  .object [("file", .string location.file), ("line", .nat location.line),
    ("column", .nat location.column)]

def BaseClause.toJson (base : BaseClause) : Json :=
  .object [("qualified_name", .string base.qualifiedName),
    ("access", .string base.access.name), ("is_virtual", .bool base.isVirtual)]

def TemplateArgument.toJson : TemplateArgument → Json
  | type spelling => .object [("type", .string spelling)]
  | value spelling => .object [("value", .string spelling)]

def TemplateUse.toJson (use : TemplateUse) : Json :=
  .object [("template", .string use.template),
    ("arguments", .array (use.arguments.map TemplateArgument.toJson)),
    ("origin", .string use.origin.name)]

def Parameter.toJson (parameter : Parameter) : Json :=
  .object [("name", .string parameter.name), ("type", .string parameter.type),
    ("default", .ofOption .string parameter.defaultValue)]

def Signature.toJson (signature : Signature) : Json :=
  .object [("params", .array (signature.parameters.map Parameter.toJson)),
    ("return_type", .string signature.returnType),
    ("is_deleted", .bool signature.isDeleted)]

namespace DeclarationKind

def toFields : DeclarationKind → List (String × Json)
  | .namespace isInline => [("inline", .bool isInline)]
  | .class bases template =>
      [("bases", .array (bases.map BaseClause.toJson)),
        ("template", .ofOption TemplateUse.toJson template)]
  | enum isScoped => [("scoped", .bool isScoped)]
  | enumerator value => [("value", .ofOption .string value)]
  | function signature template =>
      [("signature", signature.toJson), ("template", .ofOption TemplateUse.toJson template)]
  | method signature isStatic isConst =>
      [("signature", signature.toJson), ("is_static", .bool isStatic),
        ("is_const", .bool isConst)]
  | constructor signature isInherited =>
      [("signature", signature.toJson), ("is_inherited", .bool isInherited)]
  | conversionFunction signature => [("signature", signature.toJson)]
  | operator symbol signature isMember =>
      [("symbol", .string symbol), ("signature", signature.toJson),
        ("is_member", .bool isMember)]
  | field type isConst isStatic =>
      [("type", .string type), ("is_const", .bool isConst), ("is_static", .bool isStatic)]
  | .variable type isConst => [("type", .string type), ("is_const", .bool isConst)]
  | typeAlias target => [("target", .ofOption .string target)]
  | manualBlock body => [("body", .string body)]
  | _ => []

def toJsonFields (kind : DeclarationKind) : List (String × Json) :=
  ("kind", .string kind.name) :: kind.toFields

end DeclarationKind

/-- A declaration with all its fields, those of its kind after its number. -/
def Declaration.toJson (declaration : Declaration) : Json :=
  .object
    (("id", .nat declaration.id) :: declaration.kind.toJsonFields
      ++ [("name", .string declaration.name),
        ("qualified_name", .string declaration.qualifiedName),
        ("parent", .ofOption .nat declaration.parent),
        ("order", .nat declaration.order),
        ("location", declaration.location.toJson),
        ("annotations", .array (declaration.payloads.map Marking.Payload.toJson)),
        ("doc", .ofOption .string declaration.doc),
        ("access", .string declaration.access.name)])

end Registrar
