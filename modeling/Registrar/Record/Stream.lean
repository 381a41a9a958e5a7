import Registrar.Instantiation.Basic
import Registrar.Record.Basic
import Registrar.Schedule.Basic

/-!
Contract: the records of a schedule.

Owns: the identifiers of scopes, and the record that each item becomes.

Does not own: the order of the items.

A namespace that is no module opens no scope. What is in it registers in the
nearest scope around it.
-/

set_option autoImplicit false

namespace Registrar

namespace Record

/-! ## Scopes -/

def rootIdentifier : String := "root"

/-- The scopes that are open, and the identifiers that are left. -/
structure Scopes where
  opened : List (Nat × String)
  supply : Identifier.Supply

namespace Scopes

/-- No scope is open, and the identifier of the root is kept for it. -/
def start : Scopes := ⟨[], Identifier.Supply.empty.reserve rootIdentifier⟩

def identifier? (scopes : Scopes) (id : Nat) : Option String := scopes.opened.lookup id

/-- The identifier of the nearest open scope around a node. -/
def around (scopes : Scopes) (graph : Graph) (node : Node) : String :=
  ((graph.ancestors node).findSome? fun above => scopes.identifier? above.id).getD
    rootIdentifier

/-- The identifier that a node would have if it were unused. -/
def wanted (node : Node) : String :=
  "context" ++ Identifier.sanitize ("::" ++ node.qualifiedName)

def enter (scopes : Scopes) (node : Node) : String × Scopes :=
  if node.id = Graph.root then
    (rootIdentifier, { scopes with opened := scopes.opened ++ [(node.id, rootIdentifier)] })
  else
    let (identifier, supply) := scopes.supply.take (wanted node)
    (identifier, ⟨scopes.opened ++ [(node.id, identifier)], supply⟩)

end Scopes

/-! ## Callables -/

/-- Whether one of the references names the argument with the number. -/
def refersTo (references : List ArgumentRef) (names : List String) (hasThis : Bool)
    (number : Nat) : Bool :=
  references.any fun reference => reference.resolve? names hasThis == some number

def isConverted (marking : Marking) (names : List String) (hasThis : Bool) (number : Nat) :
    Bool :=
  match marking.noConversion with
  | none => true
  | some .all => false
  | some (.only references) => !refersTo references names hasThis number

def parameters (signature : Signature) (marking : Marking) (hasThis : Bool) :
    List ParameterRecord :=
  let names := signature.parameterNames
  signature.parameters.mapIdx fun index parameter =>
    let number := ArgumentRef.firstParameter hasThis + index
    { name := parameter.name
      type := parameter.type
      hasDefault := parameter.defaultValue.isSome
      defaultValue := parameter.defaultValue
      convert := isConverted marking names hasThis number
      required := refersTo marking.required names hasThis number }

/-- The records of the pairs of which one argument keeps the other alive. -/
def keepAlive (signature : Signature) (marking : Marking) (hasThis : Bool) :
    List KeepAliveRecord :=
  let names := signature.parameterNames
  marking.keepAlive.filterMap fun (nurse, patient) => do
    let nurse ← nurse.resolve? names hasThis
    let patient ← patient.resolve? names hasThis
    return { nurse, patient }

/-- The documentation of a node, if records carry it. -/
def docOf (configuration : Configuration) (node : Node) : Option String :=
  if configuration.emitDocs && !node.docs.isEmpty then some ("\n".intercalate node.docs)
  else none

/-- The qualified name of the class from which a member was inlined. -/
def inlinedFrom (graph : Graph) (member : Member) : Option String :=
  (member.inlinedFrom.bind graph.node?).map fun node => node.qualifiedName

/-- Whether a method is static, and whether it is constant. -/
def qualifiers : DeclarationKind → Bool × Bool
  | .method _ isStatic isConst => (isStatic, isConst)
  | _ => (false, false)

/-- The record of a callable under a name. -/
def functionRecord? (groundwork : Groundwork) (configuration : Configuration) (scope : String)
    (member : Member) (node : Node) : Option FunctionRecord :=
  match node.kind.signature? with
  | none => none
  | some signature =>
      if signature.isDeleted then none
      else
        let marking := Instantiation.callMarking groundwork.graph node
        let hasThis := node.kind.hasThis
        some
          { scope
            name := groundwork.visibility.exposedName node.id
            qualifiedName := node.qualifiedName
            parameters := parameters signature marking hasThis
            returns := ⟨signature.returnType, marking.returnPolicy.getD .automatic⟩
            keepAlive := keepAlive signature marking hasThis
            isStatic := (qualifiers node.kind).1
            isConst := (qualifiers node.kind).2
            doc := docOf configuration node
            inlinedFrom := inlinedFrom groundwork.graph member }

/-- The record of an operator or a conversion: that of its slot, or of a function
if it has none. -/
def operatorRecord (groundwork : Groundwork) (context node : Node) (called : FunctionRecord) :
    Record :=
  match groundwork.operators.slot? node.id with
  | some slot => operator slot.name slot.reflected { called with name := slot.name }
  | none =>
      if context.kind.target == .class then method called else function called

def fieldRecord (groundwork : Groundwork) (configuration : Configuration) (scope : String)
    (node : Node) (type : String) (isConst isStatic : Bool) (inlinedFrom : Option String) :
    FieldRecord :=
  { scope
    name := groundwork.visibility.exposedName node.id
    qualifiedName := node.qualifiedName
    type
    readonly := isConst || node.marking.readonly == some true
    isStatic
    doc := docOf configuration node
    inlinedFrom }

/-! ## Items -/

def ofMember? (groundwork : Groundwork) (configuration : Configuration) (scope : String)
    (context : Node) (member : Member) : Option Record := do
  let node ← groundwork.graph.node? member.node
  match node.kind with
  | .method _ _ _ =>
      return method (← functionRecord? groundwork configuration scope member node)
  | .function _ _ =>
      return function (← functionRecord? groundwork configuration scope member node)
  | .operator _ _ _ | .conversionFunction _ =>
      return operatorRecord groundwork context node
        (← functionRecord? groundwork configuration scope member node)
  | .field type isConst isStatic =>
      return field (fieldRecord groundwork configuration scope node type isConst isStatic
        (inlinedFrom groundwork.graph member))
  | .variable type isConst =>
      return .variable (fieldRecord groundwork configuration scope node type isConst true none)
  | .enumerator value =>
      return enumerator
        { scope
          name := groundwork.visibility.exposedName node.id
          qualifiedName := node.qualifiedName
          value
          doc := docOf configuration node }
  | _ => none

/-- The record of a constructor among its overloads. -/
def constructorRecord? (configuration : Configuration) (node : Node) :
    Option ConstructorRecord :=
  match node.kind with
  | .constructor signature isInherited =>
      if signature.isDeleted then none
      else
        some
          { qualifiedName := node.qualifiedName
            parameters := parameters signature node.marking true
            keepAlive := keepAlive signature node.marking true
            implicitConversion := node.marking.implicitConversion == some true
            isInherited
            doc := docOf configuration node }
  | _ => none

def propertyRecord? (groundwork : Groundwork) (configuration : Configuration) (scope : String)
    (context : Node) (name : String) : Option Record := do
  let property ← (groundwork.properties.get context.id).find? fun property =>
    property.name == name
  let getter ← groundwork.graph.node? property.getter
  let setter := (property.setter.bind groundwork.graph.node?).map fun node =>
    node.qualifiedName
  return .property
    { scope, name := property.name, getter := getter.qualifiedName, setter
      doc := docOf configuration getter }

def ofItem? (groundwork : Groundwork) (configuration : Configuration) (scope : String)
    (context : Node) : Item → Option Record
  | .member member => ofMember? groundwork configuration scope context member
  | .constructors nodes =>
      some (constructors scope
        ((groundwork.graph.nodesOf nodes).filterMap (constructorRecord? configuration)))
  | .property name => propertyRecord? groundwork configuration scope context name
  | .manualBlock id => do
      let node ← groundwork.graph.node? id
      match node.kind with
      | .manualBlock body => some (.manualBlock scope body)
      | _ => none

def ofItems (groundwork : Groundwork) (configuration : Configuration) (scope : String)
    (context : Node) (items : List Item) : List Record :=
  items.filterMap (ofItem? groundwork configuration scope context)

/-! ## Units -/

/-- What a context is to the host, if it opens a scope that is no enum. -/
def sortOf? (groundwork : Groundwork) (scopes : Scopes) (node : Node) : Option ContextSort :=
  match node.kind with
  | .translationUnit => some .root
  | .namespace _ => if node.isModule then some .module else none
  | .class _ _ =>
      some (.class
        ((groundwork.inheritance.registered node.id).filterMap scopes.identifier?)
        node.marking.holderType (node.marking.dynamicAttributes.getD false))
  | _ => none

def openRecord (groundwork : Groundwork) (configuration : Configuration) (node : Node)
    (identifier : String) (scope : Option String) (sort : ContextSort) : Record :=
  contextOpen
    { identifier, scope
      qualifiedName := node.qualifiedName
      exposedName := groundwork.visibility.exposedName node.id
      sort
      doc := docOf configuration node }

def enumRecord (groundwork : Groundwork) (configuration : Configuration) (node : Node)
    (identifier scope : String) (isScoped : Bool) : EnumRecord :=
  { identifier, scope
    qualifiedName := node.qualifiedName
    exposedName := groundwork.visibility.exposedName node.id
    isScoped
    arithmetic := node.marking.arithmetic.getD false
    exportValues := node.marking.exportValues.getD (!isScoped)
    doc := docOf configuration node }

/-- The records of a context with its items, and the scopes after it. -/
def ofContext (groundwork : Groundwork) (configuration : Configuration) (scopes : Scopes)
    (node : Node) (items : List Item) : List Record × Scopes :=
  let scope := scopes.around groundwork.graph node
  match node.kind, sortOf? groundwork scopes node with
  | .enum isScoped, _ =>
      let (identifier, entered) := scopes.enter node
      let opened := enumRecord groundwork configuration node identifier scope isScoped
      (enum opened :: ofItems groundwork configuration identifier node items
        ++ [contextClose identifier opened.exportValues], entered)
  | _, some sort =>
      let (identifier, entered) := scopes.enter node
      let outer := if node.id = Graph.root then none else some scope
      (openRecord groundwork configuration node identifier outer sort
        :: ofItems groundwork configuration identifier node items
        ++ [contextClose identifier false], entered)
  | _, none => (ofItems groundwork configuration scope node items, scopes)

def ofAlias (groundwork : Groundwork) (scopes : Scopes) (node target : Node) : Record :=
  .typeAlias
    { scope := scopes.around groundwork.graph node
      name := groundwork.visibility.exposedName node.id
      qualifiedName := node.qualifiedName
      target := scopes.identifier? target.id
      targetQualifiedName := target.qualifiedName }

/-- The records of a unit, and the scopes after it. -/
def ofUnit (groundwork : Groundwork) (configuration : Configuration)
    (aliasTargets : List (Nat × Nat)) (scopes : Scopes) (unit : ScheduledUnit) :
    List Record × Scopes :=
  let graph := groundwork.graph
  match unit.id with
  | .early | .postamble =>
      match graph.node? Graph.root with
      | some root =>
          (ofItems groundwork configuration rootIdentifier root unit.items, scopes)
      | none => ([], scopes)
  | .context id =>
      match graph.node? id with
      | some node => ofContext groundwork configuration scopes node unit.items
      | none => ([], scopes)
  | .typeAlias id =>
      match graph.node? id, (aliasTargets.lookup id).bind graph.node? with
      | some node, some target => ([ofAlias groundwork scopes node target], scopes)
      | _, _ => ([], scopes)

def ofUnits (groundwork : Groundwork) (configuration : Configuration)
    (aliasTargets : List (Nat × Nat)) (scopes : Scopes) : List ScheduledUnit → List Record
  | [] => []
  | unit :: rest =>
      let (records, after) := ofUnit groundwork configuration aliasTargets scopes unit
      records ++ ofUnits groundwork configuration aliasTargets after rest

def ofSchedule (groundwork : Groundwork) (configuration : Configuration)
    (schedule : Schedule) : List Record :=
  ofUnits groundwork configuration schedule.aliasTargets Scopes.start schedule.units

end Record

end Registrar
