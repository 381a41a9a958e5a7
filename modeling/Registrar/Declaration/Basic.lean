import Registrar.Marking.Payload
import Registrar.Location

/-!
Contract: declarations as a front end reports them.

Owns: the kinds of declarations with what is known of each, and which
declarations declare the same entity.

Does not own: how declarations are put together in a unit.
-/

set_option autoImplicit false

namespace Registrar

/-- Who may use a member or a base. -/
inductive Access where
  | «public»
  | «protected»
  | «private»
  deriving DecidableEq

namespace Access

def all : List Access := [«public», «protected», «private»]

def name : Access → String
  | «public» => "public"
  | «protected» => "protected"
  | «private» => "private"

end Access

/-- A base of a class, as the class names it. -/
structure BaseClause where
  qualifiedName : String
  access : Access := .public
  isVirtual : Bool := false
  deriving DecidableEq

/-! ## Templates -/

inductive TemplateArgument where
  | type (spelling : String)
  | value (spelling : String)
  deriving DecidableEq

def TemplateArgument.spelling : TemplateArgument → String
  | type spelling => spelling
  | value spelling => spelling

inductive InstantiationOrigin where
  /-- It was asked for in the source. -/
  | explicit
  /-- It was made because it was used. -/
  | implicit
  deriving DecidableEq

namespace InstantiationOrigin

def all : List InstantiationOrigin := [explicit, implicit]

def name : InstantiationOrigin → String
  | explicit => "explicit_instantiation"
  | implicit => "implicit"

end InstantiationOrigin

/-- Which template a class or function instantiates, and with what. -/
structure TemplateUse where
  template : String
  arguments : List TemplateArgument := []
  origin : InstantiationOrigin := .implicit
  deriving DecidableEq

/-! ## Signatures -/

/-- A parameter of a callable. Its name may be empty. -/
structure Parameter where
  name : String := ""
  type : String
  defaultValue : Option String := none
  deriving DecidableEq

/-- What a callable takes and returns. -/
structure Signature where
  parameters : List Parameter := []
  returnType : String := "void"
  isDeleted : Bool := false
  deriving DecidableEq

def Signature.parameterNames (signature : Signature) : List String :=
  signature.parameters.map Parameter.name

/-- The types of the parameters, which tell overloads apart. -/
def Signature.overloadKey (signature : Signature) : String :=
  ",".intercalate (signature.parameters.map Parameter.type)

/-! ## Kinds -/

inductive DeclarationKind where
  | translationUnit
  | «namespace» (isInline : Bool)
  | «class» (bases : List BaseClause) (template : Option TemplateUse)
  | classTemplate
  | functionTemplate
  | enum (isScoped : Bool)
  | enumerator (value : Option String)
  | function (signature : Signature) (template : Option TemplateUse)
  | method (signature : Signature) (isStatic isConst : Bool)
  | constructor (signature : Signature) (isInherited : Bool)
  | destructor
  | conversionFunction (signature : Signature)
  | operator (symbol : String) (signature : Signature) (isMember : Bool)
  | field (type : String) (isConst isStatic : Bool)
  | «variable» (type : String) (isConst : Bool)
  /-- A target that the front end could not resolve is absent. -/
  | typeAlias (target : Option String)
  | manualBlock (body : String)
  deriving DecidableEq

namespace DeclarationKind

/-- The kind as annotations see it. -/
def target : DeclarationKind → Target
  | translationUnit => .translationUnit
  | .namespace _ => .namespace
  | .class _ _ => .class
  | classTemplate => .classTemplate
  | functionTemplate => .functionTemplate
  | enum _ => .enum
  | enumerator _ => .enumerator
  | function _ _ => .function
  | method _ _ _ => .method
  | constructor _ _ => .constructor
  | destructor => .destructor
  | conversionFunction _ => .conversionFunction
  | operator _ _ _ => .operator
  | field _ _ _ => .field
  | .variable _ _ => .variable
  | typeAlias _ => .typeAlias
  | manualBlock _ => .manualBlock

/-- Whether it owns the declarations nested in it. -/
def isContext : DeclarationKind → Bool
  | translationUnit | .namespace _ | .class _ _ | enum _ => true
  | _ => false

/-- Whether declarations may be nested in it. -/
def canOwn (kind : DeclarationKind) : Bool :=
  kind.isContext || kind == classTemplate

/-- What a callable takes and returns. -/
def signature? : DeclarationKind → Option Signature
  | function signature _ => some signature
  | method signature _ _ => some signature
  | constructor signature _ => some signature
  | conversionFunction signature => some signature
  | operator _ signature _ => some signature
  | _ => none

def template? : DeclarationKind → Option TemplateUse
  | .class _ template => template
  | function _ template => template
  | _ => none

/-- Whether a call has an object that it is made on. -/
def hasThis : DeclarationKind → Bool
  | method _ isStatic _ => !isStatic
  | constructor _ _ | conversionFunction _ => true
  | operator _ _ isMember => isMember
  | _ => false

end DeclarationKind

/-- The short name of the kind. -/
def Target.name : Target → String
  | translationUnit => "translation_unit"
  | .namespace => "namespace"
  | .class => "class"
  | classTemplate => "class_template"
  | functionTemplate => "function_template"
  | enum => "enum"
  | enumerator => "enumerator"
  | function => "function"
  | method => "method"
  | constructor => "constructor"
  | destructor => "destructor"
  | operator => "operator"
  | conversionFunction => "conversion_function"
  | field => "field"
  | .variable => "variable"
  | typeAlias => "type_alias"
  | manualBlock => "manual_block"

def DeclarationKind.name (kind : DeclarationKind) : String :=
  kind.target.name

/-! ## Declarations -/

structure Declaration where
  /-- The number of the declaration in its unit. -/
  id : Nat
  kind : DeclarationKind
  name : String := ""
  /-- The name with those of the scopes around it; empty for the root. -/
  qualifiedName : String := ""
  /-- The declaration around it; absent for the root. -/
  parent : Option Nat := none
  /-- The place in source order. -/
  order : Nat
  location : Location := {}
  payloads : List Marking.Payload := []
  doc : Option String := none
  access : Access := .public
  deriving DecidableEq

/-- A name to show to a reader: the qualified one, and the kind in brackets if
there is none. -/
def displayName (qualifiedName : String) (kind : DeclarationKind) : String :=
  if qualifiedName.isEmpty then "<" ++ kind.name ++ ">" else qualifiedName

namespace Declaration

/-- A name to show to a reader. -/
def displayName (declaration : Declaration) : String :=
  Registrar.displayName declaration.qualifiedName declaration.kind

/-- The family within which declarations of one name are redeclarations. All
that open a scope are one family. -/
def family (declaration : Declaration) : String :=
  if declaration.kind.canOwn then "scope" else declaration.kind.name

/-- The key that declarations of one entity share. Parameter types keep
overloads apart. Manual blocks and what has no name are never declared again. -/
def mergeKey? (declaration : Declaration) : Option String :=
  if declaration.kind.target == .manualBlock then none
  else if declaration.qualifiedName.isEmpty && declaration.parent.isSome then none
  else
    let overload := (declaration.kind.signature?.map Signature.overloadKey).getD ""
    some (declaration.family ++ "|" ++ declaration.qualifiedName ++ "|" ++ overload)

end Declaration

end Registrar
