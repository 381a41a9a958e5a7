import Registrar.Marking.Payload

/-!
Contract: the annotation of one declaration.

Owns: what the directives of a declaration add up to, and which combinations
of them cannot hold together.

Does not own: how annotations of redeclarations are merged.
-/

set_option autoImplicit false

namespace Registrar

/-- Where a declaration is moved. -/
inductive Relocation where
  /-- The target of an alias is exposed where the alias is, under its name. -/
  | here
  /-- A namespace or class is exposed inside the named context. -/
  | into (context : String)
  deriving DecidableEq

/-- Which instantiations of a template are exposed. -/
inductive InstantiationSelection where
  | all
  /-- Those with one of the argument lists, each as it is spelled. -/
  | only (argumentLists : List String)
  deriving DecidableEq

/-- Where a manual block stands in the order of registrations. -/
inductive Placement where
  /-- Before everything else. -/
  | early
  /-- After everything else. -/
  | postamble
  /-- Before the named member of its context. -/
  | before (member : String)
  /-- After the named member of its context. -/
  | after (member : String)
  deriving DecidableEq

def Placement.kind : Placement → DirectiveKind
  | early => .early
  | postamble => .postamble
  | before _ => .before
  | after _ => .after

/-- What the directives of a declaration say. An absent value is inherited or
left to the host. -/
structure Marking where
  visible : Option Bool := none
  exposeAs : Option String := none
  /-- The namespace is a module of its own. -/
  isModule : Bool := false
  moduleName : Option String := none
  /-- The modules in which alone the namespace is exposed, if there are any. -/
  onlyExposeIn : List String := []
  exposeHere : Option Relocation := none
  /-- The target of the alias is exposed where it is declared. -/
  encourage : Bool := false
  instantiations : Option InstantiationSelection := none
  arithmetic : Option Bool := none
  exportValues : Option Bool := none
  dynamicAttributes : Option Bool := none
  holderType : Option String := none
  hideBase : Option BaseSelection := none
  inlineBase : Option BaseSelection := none
  keepAlive : List (ArgumentRef × ArgumentRef) := []
  noConversion : Option ArgumentSelection := none
  required : List ArgumentRef := []
  returnPolicy : Option ReturnPolicy := none
  getterFor : List String := []
  setterFor : List String := []
  implicitConversion : Option Bool := none
  readonly : Option Bool := none
  manual : Bool := false
  placement : Option Placement := none
  deriving DecidableEq

namespace Marking

/-- The annotation of a declaration without directives. -/
def empty : Marking := {}

/-- Whether nothing is set. -/
def isEmpty (marking : Marking) : Bool :=
  marking == empty

/-! ## Directives in order -/

/-- Where a declaration of the given kind is moved. An alias is moved nowhere
else than where it is, and anything else only into a named context. -/
def relocation (target : Target) (context : Option String) : Except Cause Relocation :=
  match target, context with
  | .typeAlias, none => .ok .here
  | .typeAlias, some _ =>
      .error (.badValue DirectiveKind.exposeHere.name
        "aliases are exposed where they are declared; no target context is accepted")
  | _, some context => .ok (.into context)
  | _, none =>
      .error (.badValue DirectiveKind.exposeHere.name
        "expected the qualified name of the target context")

/-- Places a manual block, which can be done once. -/
def place (marking : Marking) (placement : Placement) : Except Cause Marking :=
  let placed := { marking with placement := some placement }
  match marking.placement with
  | none => .ok placed
  | some previous =>
      if previous = placement then .ok placed
      else .error (.conflictingDirectives previous.kind.name placement.kind.name)

/-- The selection together with further argument lists. -/
def selectInstantiations (previous : Option InstantiationSelection)
    (argumentLists : Option (List String)) : InstantiationSelection :=
  match argumentLists, previous with
  | none, _ => .all
  | some _, some .all => .all
  | some lists, some (.only earlier) => .only (earlier ++ lists)
  | some lists, none => .only lists

/-- The selection of bases together with a further one. -/
def selectBases (previous : Option BaseSelection) (selection : BaseSelection) :
    BaseSelection :=
  match previous with
  | none => selection
  | some earlier => earlier.union selection

/-- The annotation after one more directive. A later value replaces an earlier
one, and lists grow. -/
def add (marking : Marking) (target : Target) :
    Directive → Except Cause Marking
  | .visible value => .ok { marking with visible := value }
  | .hidden => .ok { marking with visible := some false }
  | .exposeAs name => .ok { marking with exposeAs := name }
  | .module name => .ok { marking with isModule := true, moduleName := name }
  | .onlyExposeIn modules =>
      .ok { marking with onlyExposeIn := marking.onlyExposeIn ++ modules }
  | .exposeHere context =>
      (relocation target context).map fun place => { marking with exposeHere := some place }
  | .encourage => .ok { marking with encourage := true }
  | .exposeInstantiations argumentLists =>
      .ok { marking with
        instantiations := some (selectInstantiations marking.instantiations argumentLists) }
  | .arithmetic value => .ok { marking with arithmetic := some value }
  | .exportValues value => .ok { marking with exportValues := value }
  | .dynamicAttributes value => .ok { marking with dynamicAttributes := some value }
  | .holderType type => .ok { marking with holderType := some type }
  | .hideBase selection =>
      .ok { marking with hideBase := some (selectBases marking.hideBase selection) }
  | .inlineBase selection =>
      .ok { marking with inlineBase := some (selectBases marking.inlineBase selection) }
  | .keepAlive nurse patient =>
      .ok { marking with keepAlive := marking.keepAlive ++ [(nurse, patient)] }
  | .noConversion selection => .ok { marking with noConversion := some selection }
  | .required references =>
      .ok { marking with required := marking.required ++ references }
  | .returnValuePolicy policy => .ok { marking with returnPolicy := some policy }
  | .getterFor properties =>
      .ok { marking with getterFor := marking.getterFor ++ properties }
  | .setterFor properties =>
      .ok { marking with setterFor := marking.setterFor ++ properties }
  | .implicitConversion value => .ok { marking with implicitConversion := some value }
  | .readonly value => .ok { marking with readonly := some value }
  | .manual => .ok { marking with manual := true }
  | .early => marking.place .early
  | .postamble => marking.place .postamble
  | .before member => marking.place (.before member)
  | .after member => marking.place (.after member)

/-- The annotation after further directives, each of which must apply to the
kind of declaration. -/
def addAll (marking : Marking) (target : Target) :
    List Directive → Except Cause Marking
  | [] => .ok marking
  | directive :: rest =>
      if directive.kind.appliesTo target then
        match marking.add target directive with
        | .ok extended => extended.addAll target rest
        | .error cause => .error cause
      else .error (.invalidForDeclaration directive.kind.name target.description)

/-- What the directives say together. An alias does not both move its target
and leave it in place. -/
def ofDirectives (directives : List Directive) (target : Target) :
    Except Cause Marking :=
  match empty.addAll target directives with
  | .error cause => .error cause
  | .ok marking =>
      if marking.encourage && marking.exposeHere.isSome then
        .error (.conflictingDirectives DirectiveKind.exposeHere.name
          DirectiveKind.encourage.name)
      else .ok marking

/-! ## Payloads -/

/-- The directives that are written, up to the first that does not fit the
schema. -/
def checkCalls : List Call → Except Cause (List Directive)
  | [] => .ok []
  | call :: rest => do
      let first ← call.directive
      let others ← checkCalls rest
      return first :: others

def payloadDirectives : List Payload → Except Cause (List Directive)
  | [] => .ok []
  | payload :: rest => do
      let calls ← payload.calls
      let first ← checkCalls calls
      let others ← payloadDirectives rest
      return first ++ others

/-- The annotation that the payloads of a declaration hold. -/
def ofPayloads (payloads : List Payload) (target : Target) : Except Cause Marking :=
  match payloadDirectives payloads with
  | .error cause => .error cause
  | .ok directives => ofDirectives directives target

end Marking

end Registrar
