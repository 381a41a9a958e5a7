import Registrar.QualifiedName
import Registrar.TranslationUnit.Basic

/-!
Contract: putting a translation unit together by hand.

Owns: an unfinished unit, to which declarations are added one after the other,
and what each sort of declaration is called. Source order and lines follow the
order in which declarations are added.

Does not own: whether the result is a unit.
-/

set_option autoImplicit false

namespace Registrar

structure Assembly where
  file : String
  declarations : List Declaration

namespace Assembly

/-- Only the root. -/
def start (file : String) : Assembly :=
  { file
    declarations :=
      [{ id := 0, kind := .translationUnit, order := 0, location := ⟨file, 1, 1⟩ }] }

def root : Nat := 0

/-- The declaration that was given the number. -/
def get? (assembly : Assembly) (id : Nat) : Option Declaration :=
  assembly.declarations[id]?

/-- The name of a declaration, empty if there is none. -/
def nameOf (assembly : Assembly) (id : Nat) : String :=
  ((assembly.get? id).map Declaration.name).getD ""

/-- The qualified name of a declaration, empty if there is none. -/
def qualifiedNameOf (assembly : Assembly) (id : Nat) : String :=
  ((assembly.get? id).map Declaration.qualifiedName).getD ""

/-- Adds a declaration under a qualified name of its own. -/
def addQualified (assembly : Assembly) (parent : Nat) (name qualifiedName : String)
    (kind : DeclarationKind) : Nat × Assembly :=
  let id := assembly.declarations.length
  let declaration : Declaration :=
    { id, kind, name, qualifiedName, parent := some parent, order := id
      location := ⟨assembly.file, id + 1, 1⟩ }
  (id, { assembly with declarations := assembly.declarations ++ [declaration] })

/-- The qualified name of something inside a scope. What has no name has none
inside a named scope either. -/
def qualifiedNameIn (enclosing name : String) : String :=
  if enclosing.isEmpty then name
  else if name.isEmpty then ""
  else QualifiedName.join enclosing name

def add (assembly : Assembly) (parent : Nat) (name : String) (kind : DeclarationKind) :
    Nat × Assembly :=
  assembly.addQualified parent name (qualifiedNameIn (assembly.qualifiedNameOf parent) name) kind

/-- Declares an entity again, under the given declaration. -/
def redeclare (assembly : Assembly) (id parent : Nat) : Nat × Assembly :=
  match assembly.get? id with
  | none => (id, assembly)
  | some original =>
      assembly.addQualified parent original.name original.qualifiedName original.kind

/-! ## Sorts of declarations -/

def addClass (assembly : Assembly) (parent : Nat) (name : String) (bases : List String) :
    Nat × Assembly :=
  assembly.add parent name (.class (bases.map fun base => { qualifiedName := base }) none)

/-- A spelling that starts as a number does, or a truth value, is a value. -/
def templateArgument (spelling : String) : TemplateArgument :=
  let startsNumber := match spelling.toList with
    | first :: _ => first.isDigit || first == '-'
    | [] => false
  if startsNumber || spelling == "true" || spelling == "false" then .value spelling
  else .type spelling

def templateUse (template : String) (arguments : List String) (origin : InstantiationOrigin) :
    TemplateUse :=
  { template, arguments := arguments.map templateArgument, origin }

/-- Adds an instantiation of a class template, named for the template and its
arguments. -/
def addInstantiation (assembly : Assembly) (parent : Nat) (template : String)
    (arguments : List String) (origin : InstantiationOrigin) : Nat × Assembly :=
  let name := QualifiedName.lastComponent template ++ "<" ++ ", ".intercalate arguments ++ ">"
  assembly.add parent name (.class [] (some (templateUse template arguments origin)))

/-- Adds an instantiation of a function template, named for the template. -/
def addFunctionInstantiation (assembly : Assembly) (parent : Nat) (template : String)
    (arguments : List String) (signature : Signature) : Nat × Assembly :=
  assembly.add parent (QualifiedName.lastComponent template)
    (.function signature (some (templateUse template arguments .implicit)))

/-- Adds a constructor, which has the name of its class. -/
def addConstructor (assembly : Assembly) (parent : Nat) (signature : Signature) :
    Nat × Assembly :=
  assembly.add parent (assembly.nameOf parent) (.constructor signature false)

/-- Adds a destructor, which has the name of its class after a tilde. -/
def addDestructor (assembly : Assembly) (parent : Nat) : Nat × Assembly :=
  assembly.add parent ("~" ++ assembly.nameOf parent) .destructor

def addOperator (assembly : Assembly) (parent : Nat) (symbol : String) (signature : Signature)
    (isMember : Bool) : Nat × Assembly :=
  assembly.add parent ("operator" ++ symbol) (.operator symbol signature isMember)

/-! ## Attributes -/

/-- Changes the declaration that was given the number. -/
def modify (assembly : Assembly) (id : Nat) (change : Declaration → Declaration) : Assembly :=
  { assembly with declarations := assembly.declarations.modify id change }

/-- Attaches a payload to a declaration. -/
def annotate (assembly : Assembly) (id : Nat) (payload : Marking.Payload) : Assembly :=
  assembly.modify id fun declaration =>
    { declaration with payloads := declaration.payloads ++ [payload] }

/-- Adds a manual block, which has no name and says that it is manual. -/
def addManualBlock (assembly : Assembly) (parent : Nat) (body : String) : Nat × Assembly :=
  let (id, extended) := assembly.addQualified parent "" "" (.manualBlock body)
  (id, extended.annotate id (.text "manual"))

def finish (assembly : Assembly) : Except UnitViolation TranslationUnit :=
  TranslationUnit.ofDeclarations assembly.declarations

end Assembly

end Registrar
