import Registrar.Operator.Table
import Registrar.Property
import Registrar.TopologicalOrder

/-!
Contract: the registrations inside one context.

Owns: which members, constructors, properties and manual blocks a context has,
and the order of these items, in which manual blocks stand by their anchors.

Does not own: the order of the contexts.
-/

set_option autoImplicit false

namespace Registrar

/-- Everything that is known before registrations are put in order. -/
structure Groundwork where
  graph : Graph
  visibility : Visibility
  inheritance : Inheritance
  properties : PropertyTable
  operators : OperatorTable

/-- One registration inside a context. -/
inductive Item where
  | member (used : Member)
  /-- All constructors of a class, which are overloads of one another. -/
  | constructors (nodes : List Nat)
  | property (name : String)
  | manualBlock (node : Nat)
  deriving DecidableEq

structure PlacedItem where
  item : Item
  order : Nat
  deriving DecidableEq

namespace Item

/-! ## Collecting -/

def emittedChildren (groundwork : Groundwork) (node : Node) : List Node :=
  (groundwork.graph.childrenOf node).filter fun child =>
    groundwork.visibility.isEmitted child.id

/-- A member of the context itself. -/
def own (node : Node) : PlacedItem := ⟨.member { node := node.id }, node.order⟩

/-- Whether a child of a namespace is registered with it. A free operator is
registered with its class, unless it has a name of its own. -/
def isNamespaceMember (operators : OperatorTable) (node : Node) : Bool :=
  match node.kind with
  | .function signature _ => !signature.isDeleted
  | .variable _ _ => true
  | .operator _ signature _ =>
      !signature.isDeleted && (operators.owner? node.id).isNone && node.marking.exposeAs.isSome
  | _ => false

/-- Whether a member of a class is registered. An accessor is a property, unless
it asks to be visible itself. -/
def isClassMember (operators : OperatorTable) (node : Node) : Bool :=
  let hasPlace := node.marking.exposeAs.isSome || (operators.slot? node.id).isSome
  match node.kind with
  | .method signature _ _ =>
      !signature.isDeleted
        && (!Property.isAccessor node || node.marking.visible == some true)
  | .field _ _ _ => true
  | .operator _ signature _ => !signature.isDeleted && hasPlace
  | .conversionFunction signature => !signature.isDeleted && hasPlace
  | _ => false

/-- Whether the node is a constructor that can be called. -/
def isConstructor (node : Node) : Bool :=
  match node.kind with
  | .constructor signature _ => !signature.isDeleted
  | _ => false

def classMembers (groundwork : Groundwork) (node : Node) : List PlacedItem :=
  (groundwork.inheritance.members groundwork.graph groundwork.visibility node).filterMap
    fun member =>
      match groundwork.graph.node? member.node with
      | some declared =>
          if isClassMember groundwork.operators declared then
            some ⟨.member member, declared.order⟩
          else none
      | none => none

/-- The constructors of a class, in the place of the first. -/
def constructorsOf (groundwork : Groundwork) (node : Node) : List PlacedItem :=
  let nodes := (emittedChildren groundwork node).filter isConstructor
  match (nodes.map fun constructor => constructor.order).min? with
  | some first => [⟨.constructors (nodes.map fun constructor => constructor.id), first⟩]
  | none => []

/-- The properties of a class, in the places of their getters. -/
def propertiesOf (groundwork : Groundwork) (node : Node) : List PlacedItem :=
  (groundwork.properties.get node.id).map fun property =>
    ⟨.property property.name, property.order⟩

def attachedOperators (groundwork : Groundwork) (node : Node) : List PlacedItem :=
  (groundwork.graph.nodesOf (groundwork.operators.attachedTo node.id)).map own

/-- The registrations of a context, apart from its manual blocks. -/
def registrationsOf (groundwork : Groundwork) (node : Node) : List PlacedItem :=
  match node.kind with
  | .translationUnit | .namespace _ =>
      ((emittedChildren groundwork node).filter
        (isNamespaceMember groundwork.operators)).map own
  | .class _ _ =>
      classMembers groundwork node ++ constructorsOf groundwork node
        ++ propertiesOf groundwork node ++ attachedOperators groundwork node
  | .enum _ =>
      ((emittedChildren groundwork node).filter fun child =>
        child.kind.target == .enumerator).map own
  | _ => []

def isManualBlock (node : Node) : Bool := node.kind.target == .manualBlock

/-- Whether the node is a block that stands among the items of its context. -/
def isInnerBlock (node : Node) : Bool :=
  isManualBlock node
    && node.marking.placement != some .early && node.marking.placement != some .postamble

/-- The manual blocks among the items of a context. -/
def blocksOf (groundwork : Groundwork) (node : Node) : List PlacedItem :=
  ((emittedChildren groundwork node).filter isInnerBlock).map fun block =>
    ⟨.manualBlock block.id, block.order⟩

/-- All items of a context, not yet in order. -/
def collect (groundwork : Groundwork) (node : Node) : List PlacedItem :=
  registrationsOf groundwork node ++ blocksOf groundwork node

/-! ## Ordering -/

def name? (visibility : Visibility) : Item → Option String
  | .member used => some (visibility.exposedName used.node)
  | .constructors _ => some "__init__"
  | .property name => some name
  | .manualBlock _ => none

inductive Side where
  | before
  | after
  deriving DecidableEq

/-- The anchor of a manual block, and on which side of it the block stands. -/
def anchor? (graph : Graph) : Item → Option (String × Side)
  | .manualBlock id =>
      match (graph.node? id).bind fun node => node.marking.placement with
      | some (.before name) => some (name, .before)
      | some (.after name) => some (name, .after)
      | _ => none
  | _ => none

structure Anchoring where
  /-- The node of the block. -/
  node : Nat
  /-- The place of the block in the list of items. -/
  place : Nat
  name : String
  side : Side
  /-- The places of the anchors. -/
  anchors : List Nat

def placesOf (names : List (Option String)) (name : String) : List Nat :=
  (names.zipIdx.filter fun entry => entry.1 == some name).map Prod.snd

def anchorings (graph : Graph) (visibility : Visibility) (items : List PlacedItem) :
    List Anchoring :=
  let names := items.map fun placed => placed.item.name? visibility
  items.zipIdx.filterMap fun (placed, place) =>
    match placed.item, placed.item.anchor? graph with
    | .manualBlock node, some (name, side) =>
        some { node, place, name, side, anchors := placesOf names name }
    | _, _ => none

/-- The fault of a block whose anchor is no item of its context. -/
def anchorFault? (graph : Graph) (anchoring : Anchoring) : Option Fault :=
  if anchoring.anchors.isEmpty then
    (graph.node? anchoring.node).map fun node =>
      (Fault.ofCause (.unknownAnchor anchoring.name)).located node.displayName node.location
  else none

/-- The item at a place is sorted by its order, and a block by the least order of
its anchors. -/
def keyAt (orders : List Nat) (anchorings : List Anchoring) (place : Nat) : Nat :=
  let orderAt (place : Nat) : Nat := orders.getD place 0
  match anchorings.find? fun anchoring => anchoring.place == place with
  | none => orderAt place
  | some anchoring => ((anchoring.anchors.map orderAt).min?).getD (orderAt place)

/-- The places that the one given follows: the blocks that stand before it, and
its anchors if it is that of a block that stands after them. -/
def predecessors (anchorings : List Anchoring) (place : Nat) : List Nat :=
  anchorings.flatMap fun anchoring =>
    match anchoring.side with
    | .before => if anchoring.anchors.contains place then [anchoring.place] else []
    | .after => if anchoring.place == place then anchoring.anchors else []

/-- What an item is called when it is part of a circle. -/
def label (visibility : Visibility) (placed : PlacedItem) : String :=
  (placed.item.name? visibility).getD "<manual block>"

/-- The items in source order, with manual blocks by their anchors. -/
def inOrder (graph : Graph) (visibility : Visibility) (items : List PlacedItem) :
    Except (List Fault) (List Item) :=
  let anchorings := anchorings graph visibility items
  let faults := anchorings.filterMap (anchorFault? graph)
  if !faults.isEmpty then .error faults
  else
    match TopologicalOrder.order (keyAt (items.map PlacedItem.order) anchorings)
        (predecessors anchorings) (List.range items.length) with
    | .ok places => .ok ((places.filterMap fun place => items[place]?).map PlacedItem.item)
    | .error circle =>
        let participants := (circle.filterMap fun place => items[place]?).map
          (label visibility)
        .error [Fault.ofCause (.cyclicDependency participants)]

def ofContext (groundwork : Groundwork) (node : Node) : Except (List Fault) (List Item) :=
  inOrder groundwork.graph groundwork.visibility (collect groundwork node)

end Item

end Registrar
