/-!
Contract: which directives exist and what they may be attached to.

Owns: the kinds of declarations as annotations see them, the kinds of
directives with their spellings, and which kind of directive applies to which
kind of declaration.

Does not own: the arguments of directives.
-/

set_option autoImplicit false

namespace Registrar

/-- The kinds of declarations that an annotation can be attached to. -/
inductive Target where
  | translationUnit
  | «namespace»
  | «class»
  | classTemplate
  | functionTemplate
  | enum
  | enumerator
  | function
  | method
  | constructor
  | destructor
  | operator
  | conversionFunction
  | field
  | «variable»
  | typeAlias
  | manualBlock
  deriving DecidableEq

namespace Target

/-- All kinds of declarations. -/
def all : List Target :=
  [translationUnit, «namespace», «class», classTemplate, functionTemplate, enum, enumerator,
    function, method, constructor, destructor, operator, conversionFunction, field, «variable»,
    typeAlias, manualBlock]

/-- Whether such declarations take arguments that directives can refer to. -/
def isCallable : Target → Bool
  | function | method | constructor | operator | conversionFunction | functionTemplate => true
  | _ => false

/-- The kind in a sentence. -/
def description : Target → String
  | translationUnit => "the translation unit"
  | «namespace» => "a namespace"
  | «class» => "a class"
  | classTemplate => "a class template"
  | functionTemplate => "a function template"
  | enum => "an enum"
  | enumerator => "an enumerator"
  | function => "a function"
  | method => "a method"
  | constructor => "a constructor"
  | destructor => "a destructor"
  | operator => "an operator"
  | conversionFunction => "a conversion function"
  | field => "a field"
  | «variable» => "a variable"
  | typeAlias => "a type alias"
  | manualBlock => "a manual block"

end Target

inductive DirectiveKind where
  | visible
  | hidden
  | exposeAs
  | module
  | onlyExposeIn
  | exposeHere
  | encourage
  | exposeInstantiations
  | arithmetic
  | exportValues
  | dynamicAttributes
  | holderType
  | hideBase
  | inlineBase
  | keepAlive
  | noConversion
  | required
  | returnValuePolicy
  | getterFor
  | setterFor
  | implicitConversion
  | readonly
  | manual
  | early
  | postamble
  | before
  | after
  deriving DecidableEq

namespace DirectiveKind

def all : List DirectiveKind :=
  [visible, hidden, exposeAs, module, onlyExposeIn, exposeHere, encourage,
    exposeInstantiations, arithmetic, exportValues, dynamicAttributes, holderType, hideBase,
    inlineBase, keepAlive, noConversion, required, returnValuePolicy, getterFor, setterFor,
    implicitConversion, readonly, manual, early, postamble, before, after]

def name : DirectiveKind → String
  | visible => "visible"
  | hidden => "hidden"
  | exposeAs => "expose_as"
  | module => "module"
  | onlyExposeIn => "only_expose_in"
  | exposeHere => "expose_here"
  | encourage => "encourage"
  | exposeInstantiations => "expose_instantiations"
  | arithmetic => "arithmetic"
  | exportValues => "export_values"
  | dynamicAttributes => "dynamic_attr"
  | holderType => "holder_type"
  | hideBase => "hide_base"
  | inlineBase => "inline_base"
  | keepAlive => "keep_alive"
  | noConversion => "noconvert"
  | required => "required"
  | returnValuePolicy => "return_value_policy"
  | getterFor => "getter_for"
  | setterFor => "setter_for"
  | implicitConversion => "implicit_conversion"
  | readonly => "readonly"
  | manual => "manual"
  | early => "early"
  | postamble => "postamble"
  | before => "before"
  | after => "after"

/-- The directive with the spelling. One directive has a second, shorter one. -/
def ofName? (name : String) : Option DirectiveKind :=
  if name == "name" then some exposeAs else all.find? fun kind => kind.name == name

/-- Whether the directive never takes arguments. -/
def isFlag : DirectiveKind → Bool
  | hidden | encourage | manual | early | postamble => true
  | _ => false

/-- Whether the directive may be attached to such declarations. -/
def appliesTo (kind : DirectiveKind) (target : Target) : Bool :=
  match kind with
  | visible | hidden => target != .translationUnit
  | exposeAs =>
      target != .translationUnit && target != .manualBlock && target != .destructor
        && target != .namespace
  | module | onlyExposeIn => target == .namespace
  | exposeHere => [Target.typeAlias, .namespace, .class].contains target
  | encourage => target == .typeAlias
  | exposeInstantiations => [Target.classTemplate, .functionTemplate].contains target
  | arithmetic | exportValues => target == .enum
  | dynamicAttributes | holderType | hideBase | inlineBase =>
      [Target.class, .classTemplate].contains target
  | keepAlive | noConversion | required | returnValuePolicy => target.isCallable
  | getterFor | setterFor => target == .method
  | implicitConversion => target == .constructor
  | readonly => [Target.field, .variable].contains target
  | manual | early | postamble | before | after => target == .manualBlock

end DirectiveKind

end Registrar
