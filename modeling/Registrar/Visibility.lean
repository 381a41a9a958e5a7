import Registrar.Configuration
import Registrar.Instantiation.Request

/-!
Contract: what is exposed.

Owns: which nodes are visible, under which name and in which context, and which
of them are emitted.

Does not own: the names of instantiations.

A node that says nothing of its visibility has that of the node around it, and
the root is hidden, so nothing is visible unless something above it asks for
it. A visible class is emitted if the classes around it are, and a namespace if
something in it is, or if it asks for it.
-/

set_option autoImplicit false

namespace Registrar

structure Decision where
  visible : Bool
  /-- The node that the node is registered in. -/
  context : Nat
  exposedName : String

/-- What is decided for all nodes, and which of them are emitted. -/
structure Visibility where
  decisions : List Decision
  /-- The emitted nodes, in ascending order. -/
  emitted : List Nat

namespace Visibility

/-! ## Visible nodes -/

/-- Whether the node is a namespace that is kept to other modules. -/
def restricts (configuration : Configuration) (node : Node) : Bool :=
  node.kind.target == .namespace
    && !node.marking.onlyExposeIn.isEmpty
    && !node.marking.onlyExposeIn.contains configuration.moduleName

/-- The targets of the aliases that encourage their exposure. -/
def encouraged (graph : Graph) : List Nat :=
  graph.nodes.filterMap fun node =>
    if node.marking.encourage then
      match node.kind with
      | .typeAlias (some target) => graph.resolveType target
      | _ => none
    else none

/-- Whether the node is an instantiation that was made because it was used. -/
def isImplicitInstantiation (node : Node) : Bool :=
  node.kind.template?.isSome && !node.explicitlyInstantiated

/-- The visibility of an instantiation that appears on request only: what its
template says, or else what it inherits. -/
def onRequest (graph : Graph) (node : Node) (inherited : Bool) : Bool :=
  (InstantiationRequest.byTemplate? graph node).isSome
    && ((node.template.bind graph.node?).bind fun template =>
      template.marking.visible).getD inherited

/-- Whether a node is visible, given the encouraged nodes, what it inherits, and
whether it, or a node around it, is kept to other modules. -/
def decide (graph : Graph) (encouraged : List Nat) (node : Node)
    (inherited restricted : Bool) : Bool :=
  match node.kind with
  | .translationUnit | .destructor => false
  | kind =>
      if node.access != .public || restricted then false
      else
        match kind, node.marking.visible with
        | .typeAlias _, explicit => explicit.getD false
        | .manualBlock _, _ => true
        | _, some explicit => explicit
        | _, none =>
            if encouraged.contains node.id then true
            else if isImplicitInstantiation node && !node.relocatedByAlias then
              onRequest graph node inherited
            else inherited

/-- What an alias that moves a node hands down to it. -/
def handedDown (graph : Graph) (mover : Nat) : Bool :=
  ((graph.node? mover).bind fun node => node.marking.visible).getD false

/-- Whether the first node of a way up to the root is visible. It inherits from
the rest of the way, or from the alias that moved it. -/
def visibleAlong (graph : Graph) (configuration : Configuration) (encouraged : List Nat) :
    List Node → Bool
  | [] => false
  | node :: above =>
      let inherited := match node.relocatingAlias? with
        | some mover => handedDown graph mover
        | none => visibleAlong graph configuration encouraged above
      decide graph encouraged node inherited ((node :: above).any (restricts configuration))

/-- A node and the nodes around it, nearest first. -/
def wayUp (graph : Graph) (node : Node) : List Node := node :: graph.ancestors node

/-- The name of a node: its own choice, or that of the alias that moved it, or
the one it has in the source. -/
def nameOf (graph : Graph) (configuration : Configuration) (node : Node) : String :=
  match node.marking.exposeAs, node.relocatingAlias?.bind graph.node? with
  | some name, _ => name
  | none, some mover => mover.marking.exposeAs.getD mover.name
  | none, none =>
      match node.kind with
      | .translationUnit => configuration.moduleName
      | .namespace _ => node.marking.moduleName.getD node.name
      | _ => node.name

def decisionOf (graph : Graph) (configuration : Configuration) (encouraged : List Nat)
    (node : Node) : Decision :=
  { visible := visibleAlong graph configuration encouraged (wayUp graph node)
    context := node.parent.getD Graph.root
    exposedName := nameOf graph configuration node }

/-! ## Emitted nodes -/

/-- Whether the nodes around a node, nearest first, let it be emitted: the
classes among them are visible and none is a template. -/
def scopeOpen (isVisible : Node → Bool) : List Node → Bool
  | [] => true
  | scope :: above =>
      match scope.kind with
      | .translationUnit => true
      | .namespace _ => scopeOpen isVisible above
      | .class _ _ | .enum _ => scopeOpen isVisible above && isVisible scope
      | _ => false

/-- Whether a node is emitted in a scope that lets it be. A namespace leaves the
scope as it is for what is in it, and is looked into down to a depth. -/
def emitsInScope (graph : Graph) (isVisible : Node → Bool) : Nat → Node → Bool
  | 0, _ => false
  | depth + 1, node =>
      match node.kind with
      | .namespace _ =>
          (graph.childrenOf node).any (emitsInScope graph isVisible depth)
            || (isVisible node && node.marking.visible == some true)
      | .classTemplate | .functionTemplate => false
      | .typeAlias _ => isVisible node && node.relocates.isNone
      | _ => isVisible node

def emits (graph : Graph) (isVisible : Node → Bool) (node : Node) : Bool :=
  node.kind.target == .translationUnit
    || (scopeOpen isVisible (graph.ancestors node)
      && emitsInScope graph isVisible graph.size node)

/-! ## The table -/

/-- What is decided for a node of the graph. -/
def decision? (visibility : Visibility) (id : Nat) : Option Decision :=
  visibility.decisions[id]?

def isVisible (visibility : Visibility) (id : Nat) : Bool :=
  match visibility.decision? id with
  | some decision => decision.visible
  | none => false

def isEmitted (visibility : Visibility) (id : Nat) : Bool :=
  visibility.emitted.contains id

/-- Whether a node is visible and nothing comes of it: an empty namespace, or a
node inside one that is not emitted. -/
def isPruned (visibility : Visibility) (id : Nat) : Bool :=
  visibility.isVisible id && !visibility.isEmitted id

def exposedName (visibility : Visibility) (id : Nat) : String :=
  ((visibility.decision? id).map Decision.exposedName).getD ""

/-- The same decisions with another name for one node. -/
def rename (visibility : Visibility) (id : Nat) (name : String) : Visibility :=
  { visibility with
    decisions := visibility.decisions.modify id fun decision =>
      { decision with exposedName := name } }

/-- The decisions for all nodes of a graph. -/
def ofGraph (graph : Graph) (configuration : Configuration) : Visibility :=
  let decisions := graph.nodes.map (decisionOf graph configuration (encouraged graph))
  let undecided : Visibility := ⟨decisions, []⟩
  let isVisible (node : Node) : Bool := undecided.isVisible node.id
  { decisions
    emitted := (graph.nodes.filter (emits graph isVisible)).map fun node => node.id }

end Visibility

end Registrar
