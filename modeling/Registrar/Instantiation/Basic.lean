import Registrar.Identifier
import Registrar.Visibility

/-!
Contract: the instantiations that are exposed.

Owns: the name of each exposed instantiation, why it is exposed, and the
conflicts between names.

Does not own: whether an instantiation is visible.
-/

set_option autoImplicit false

namespace Registrar

structure Instantiation where
  key : InstantiationKey
  node : Nat
  /-- The name under which it is exposed. -/
  name : String
  /-- Everything that asks for it. -/
  requests : List InstantiationRequest
  /-- The members that are emitted. -/
  members : List Nat

namespace Instantiation

def origin (instantiation : Instantiation) : InstantiationRequest :=
  instantiation.requests.foldl InstantiationRequest.stronger .typeAlias

/-! ## Names -/

/-- The name that is made from the spelling: that of the template for a
function, and an identifier with the arguments for a class. -/
def spelledName (node : Node) (key : InstantiationKey) : String :=
  let simple := QualifiedName.lastComponent key.template
  match node.kind with
  | .function _ _ => simple
  | _ => Identifier.sanitize (simple ++ "<" ++ ", ".intercalate key.arguments ++ ">")

/-- The name of an instantiation: its own choice, that of the alias that moved
it, that of its template, or one made from the spelling. -/
def canonicalName (graph : Graph) (visibility : Visibility) (node : Node)
    (key : InstantiationKey) : String :=
  match node.marking.exposeAs with
  | some name => name
  | none =>
      if node.relocatedByAlias then visibility.exposedName node.id
      else
        match (node.template.bind graph.node?).bind fun template =>
            template.marking.exposeAs with
        | some name => name
        | none => spelledName node key

/-- Everything that asks for an instantiation. An alias is named if nothing else
does, or if it moved the instantiation. -/
def requestsFor (graph : Graph) (node : Node) : List InstantiationRequest :=
  let asked :=
    (if node.explicitlyInstantiated then [InstantiationRequest.explicitInstantiation] else [])
      ++ (InstantiationRequest.byTemplate? graph node).toList
  if asked.isEmpty || node.relocatedByAlias then asked ++ [.typeAlias] else asked

/-- The exposed instantiation that a node is, if it is one. -/
def ofNode? (graph : Graph) (visibility : Visibility) (node : Node) : Option Instantiation :=
  node.kind.template?.map fun use =>
    let key := InstantiationKey.ofUse use
    { key
      node := node.id
      name := canonicalName graph visibility node key
      requests := requestsFor graph node
      members := node.children.filter visibility.isEmitted }

/-! ## Inherited directives -/

/-- Whether an annotation says how a callable is to be called. -/
def directsCalls (marking : Marking) : Bool :=
  !marking.keepAlive.isEmpty || marking.noConversion.isSome || !marking.required.isEmpty
    || marking.returnPolicy.isSome

/-- The annotation that says how a callable is to be called: its own, or that of
its template if its own says nothing of it. -/
def callMarking (graph : Graph) (node : Node) : Marking :=
  match node.template.bind graph.node? with
  | some template =>
      if directsCalls node.marking then node.marking else template.marking
  | none => node.marking

/-- An instantiation inherits a reference that names none of its arguments. -/
def inheritedFault (node template : Node) (cause : Cause) : Fault :=
  let note : Note :=
    { message := "directive inherited from '" ++ template.displayName ++ "'"
      location := some template.location }
  ⟨cause, some
    { declaration := some node.displayName, location := some node.location, notes := [note] }⟩

/-- The references that a function takes over from its template and that name
none of its arguments. -/
def inheritedFaults (graph : Graph) (node : Node) : List Fault :=
  match node.template.bind graph.node?, node.kind.signature? with
  | some template, some signature =>
      if directsCalls node.marking then []
      else
        (Examination.unresolved (Examination.argumentReferences template.marking) signature
          node.kind.hasThis).map (inheritedFault node template)
  | _, _ => []

/-! ## Conflicts -/

/-- Two explicit instantiations of one key must be told apart by a name. -/
def repeatedFault? (unit : TranslationUnit) (node : Node) (instantiation : Instantiation) :
    Option Fault :=
  if node.marking.exposeAs.isSome then none
  else
    match (node.declarations.filterMap unit.get?).filter Entity.asksForInstantiation with
    | first :: second :: _ =>
        let cause := Cause.duplicateInstantiationName instantiation.name
          instantiation.key.text first.location instantiation.key.text second.location
        some ((Fault.ofCause cause).located node.displayName second.location)
    | _ => none

/-- Two instantiations have one name in one context. -/
def collision (graph : Graph) (first second : Instantiation) : Option Fault := do
  let firstNode ← graph.node? first.node
  let secondNode ← graph.node? second.node
  let cause := Cause.duplicateInstantiationName second.name first.key.text firstNode.location
    second.key.text secondNode.location
  return (Fault.ofCause cause).located secondNode.displayName secondNode.location

/-- Where the name of an instantiation must be unique. Functions of one name are
overloads, and need no such place. -/
def nameSpace? (graph : Graph) (instantiation : Instantiation) : Option (Nat × String) := do
  let node ← graph.node? instantiation.node
  match node.kind with
  | .function _ _ => none
  | _ => return (node.parent.getD Graph.root, instantiation.name)

/-- The instantiations whose name an earlier one has in the same context. -/
def collisionsFrom (graph : Graph) (earlier : List Instantiation) :
    List Instantiation → List Fault
  | [] => []
  | instantiation :: rest =>
      match nameSpace? graph instantiation with
      | none => collisionsFrom graph earlier rest
      | some place =>
          match earlier.find? fun other => nameSpace? graph other == some place with
          | none => collisionsFrom graph (earlier ++ [instantiation]) rest
          | some first =>
              (collision graph first instantiation).toList
                ++ collisionsFrom graph earlier rest

/-! ## Requests without instantiation -/

/-- Whether the unit holds an instantiation of the template with the arguments. -/
def exists? (graph : Graph) (template : Node) (arguments : List String) : Bool :=
  graph.nodes.any fun node =>
    node.template == some template.id
      && match node.kind.template? with
        | some use => InstantiationKey.argumentsOf use == arguments
        | none => false

/-- A template asks for an instantiation that the unit does not hold. -/
def unmatchedWarnings (graph : Graph) : List Diagnostic :=
  graph.nodes.flatMap fun template =>
    match template.marking.instantiations with
    | some (.only lists) =>
        (lists.filter fun list => !exists? graph template (Spelling.splitArguments list)).map
          fun list =>
            (Diagnostic.warning "unresolved-instantiation"
              ("no instantiation of '" ++ template.displayName ++ "' with arguments <" ++ list
                ++ "> exists in this translation unit")).located
              template.displayName template.location
    | _ => []

end Instantiation

/-- The exposed instantiations of a unit. -/
structure Instantiations where
  records : List Instantiation

namespace Instantiations

/-- The instantiations among the emitted nodes. -/
def collect (graph : Graph) (visibility : Visibility) : List Instantiation :=
  (graph.nodesOf visibility.emitted).filterMap (Instantiation.ofNode? graph visibility)

/-- What is wrong with single instantiations. -/
def ownFaults (unit : TranslationUnit) (graph : Graph) (instantiation : Instantiation) :
    List Fault :=
  match graph.node? instantiation.node with
  | none => []
  | some node =>
      (Instantiation.repeatedFault? unit node instantiation).toList
        ++ Instantiation.inheritedFaults graph node

/-- The exposed instantiations, or all conflicts among them. -/
def resolve (unit : TranslationUnit) (graph : Graph) (visibility : Visibility) :
    Except (List Fault) Instantiations :=
  let records := collect graph visibility
  let faults := records.flatMap (ownFaults unit graph)
    ++ Instantiation.collisionsFrom graph [] records
  if faults.isEmpty then .ok ⟨records⟩ else .error faults

/-- The decisions with the names of the instantiations. -/
def rename (instantiations : Instantiations) (visibility : Visibility) : Visibility :=
  instantiations.records.foldl
    (fun renamed record => renamed.rename record.node record.name) visibility

end Instantiations

end Registrar
