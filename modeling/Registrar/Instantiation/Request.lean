import Registrar.Graph.Basic

/-!
Contract: instantiations and who asks for them.

Owns: what makes two instantiations the same, and whether a template asks for
one of its instantiations.

Does not own: under which names they are exposed.
-/

set_option autoImplicit false

namespace Registrar

/-- The identity of an instantiation: its template and its arguments, each
spelled without needless blanks. -/
structure InstantiationKey where
  template : String
  arguments : List String
  deriving DecidableEq

namespace InstantiationKey

/-- The arguments of an instantiation without needless blanks. -/
def argumentsOf (use : TemplateUse) : List String :=
  use.arguments.map fun argument => Spelling.normalize argument.spelling

/-- The key of an instantiation. A leading separator says nothing. -/
def ofUse (use : TemplateUse) : InstantiationKey :=
  ⟨Spelling.normalize (QualifiedName.relative use.template), argumentsOf use⟩

def text (key : InstantiationKey) : String :=
  key.template ++ "<" ++ ", ".intercalate key.arguments ++ ">"

end InstantiationKey

/-- Why an instantiation is exposed. -/
inductive InstantiationRequest where
  /-- The source asks for it. -/
  | explicitInstantiation
  /-- The template lists it. -/
  | listed
  /-- The template asks for all. -/
  | all
  /-- An alias leads to it. -/
  | typeAlias
  deriving DecidableEq

namespace InstantiationRequest

/-- The strength of the request; the strongest has the least. -/
def rank : InstantiationRequest → Nat
  | explicitInstantiation => 0
  | listed => 1
  | all => 2
  | typeAlias => 3

def name : InstantiationRequest → String
  | explicitInstantiation => "explicit-instantiation"
  | listed => "expose-some"
  | all => "expose-all"
  | typeAlias => "alias"

def stronger (left right : InstantiationRequest) : InstantiationRequest :=
  if right.rank < left.rank then right else left

/-- How a selection of instantiations asks for one, if it does. -/
def bySelection? (selection : InstantiationSelection) (use : TemplateUse) :
    Option InstantiationRequest :=
  match selection with
  | .all => some all
  | .only lists =>
      if lists.any fun list => Spelling.splitArguments list == InstantiationKey.argumentsOf use
      then some listed else none

/-- How the template of a node asks for the node, if it does. -/
def byTemplate? (graph : Graph) (node : Node) : Option InstantiationRequest := do
  let use ← node.kind.template?
  let template ← node.template.bind graph.node?
  let selection ← template.marking.instantiations
  bySelection? selection use

end InstantiationRequest

end Registrar
