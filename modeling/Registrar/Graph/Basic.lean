import Registrar.Graph.Relocation

/-!
Contract: the graph of a unit.

Owns: the entities of a unit with their places after all moves, the circles
that moves may bring about, and walking the tree that is left when there are
none.

Does not own: what is exposed.
-/

set_option autoImplicit false

namespace Registrar

structure Node extends Entity where
  /-- The node around this one. -/
  parent : Option Nat
  /-- The nodes directly below this one, in source order. -/
  children : List Nat
  /-- The template that this node instantiates, if the unit holds it. -/
  template : Option Nat
  /-- The node that asked for this one to be moved. -/
  relocatedBy : Option Nat
  /-- The other node that this one moved. -/
  relocates : Option Nat

namespace Node

/-- Whether the node is a namespace that opens a module. -/
def isModule (node : Node) : Bool :=
  node.kind.target == .namespace && node.marking.isModule

/-- Whether the node is a namespace that opens no scope of its own. -/
def isTransparent (node : Node) : Bool :=
  node.kind.target == .namespace && !node.marking.isModule

def relocatingAlias? (node : Node) : Option Nat :=
  node.relocatedBy.filter fun requestedBy => requestedBy != node.id

def relocatedByAlias (node : Node) : Bool := node.relocatingAlias?.isSome

end Node

/-! ## Places -/

namespace Entity

def parentAfter (moves : List Move) (entity : Entity) : Option Nat :=
  match Move.find? moves entity.id with
  | some move => move.parent
  | none => entity.lexicalParent

/-- Whether one entity comes before another in the source, or is it. -/
def sourceOrder (left right : Entity) : Bool :=
  decide (left.order < right.order) || (left.order == right.order && decide (left.id ≤ right.id))

/-- The entities directly below one after the moves, in source order. -/
def childrenAfter (entities : List Entity) (moves : List Move) (id : Nat) : List Nat :=
  ((entities.filter fun entity => entity.parentAfter moves == some id).mergeSort
    sourceOrder).map Entity.id

def templateIn? (entities : List Entity) (entity : Entity) : Option Nat :=
  (entity.kind.template?.bind fun use => lookup entities use.template).filter fun id =>
    match entities[id]? with
    | some found => [Target.classTemplate, .functionTemplate].contains found.kind.target
    | none => false

def place (entities : List Entity) (moves : List Move) (entity : Entity) : Node :=
  { entity with
    parent := entity.parentAfter moves
    children := childrenAfter entities moves entity.id
    template := entity.templateIn? entities
    relocatedBy := (Move.find? moves entity.id).map Move.requestedBy
    relocates := (moves.find? fun move =>
      move.requestedBy == entity.id && move.target != entity.id).map Move.target }

end Entity

/-! ## Circles -/

namespace ParentLinks

/-- The steps from a node upwards, at most so many. Nothing is above the root. -/
def walk (parentOf : Nat → Option Nat) : Nat → Nat → List Nat
  | 0, _ => []
  | steps + 1, id =>
      if id = 0 then []
      else
        match parentOf id with
        | none => []
        | some parent => parent :: walk parentOf steps parent

/-- The nodes of the circle that the way up from a node ends in, from some node
of it on. A way of as many steps as there are nodes has reached the circle, or
has ended. -/
def circleAbove (parentOf : Nat → Option Nat) (size start : Nat) : List Nat :=
  match (walk parentOf size start)[size - 1]? with
  | none => []
  | some reached =>
      let round := walk parentOf size reached
      if round.contains reached then
        reached :: round.takeWhile fun id => id != reached
      else []

end ParentLinks

/-- The nodes of a graph that is not yet known to be a tree. -/
abbrev Arena := List Node

namespace Arena

def parentOf (arena : Arena) (id : Nat) : Option Nat :=
  (arena[id]?).bind Node.parent

/-- The circle that the way up from a node ends in, in source order. -/
def circleAbove (arena : Arena) (start : Nat) : List Node :=
  ((ParentLinks.circleAbove arena.parentOf arena.length start).filterMap fun id =>
    arena[id]?).mergeSort fun left right => Entity.sourceOrder left.toEntity right.toEntity

/-- The nodes of a circle depend on each other. -/
def circleFault? : List Node → Option Fault
  | [] => none
  | first :: others =>
      some ((Fault.ofCause (.cyclicDependency
        ((first :: others).map fun node => node.displayName))).located
          first.displayName first.location)

/-- The circles of the graph, each once, in the order in which ways up from the
nodes lead to them. -/
def circles (arena : Arena) : List (List Nat) :=
  ((List.range arena.length).map fun start =>
    (arena.circleAbove start).map fun node => node.id).eraseDups

def circleFaults (arena : Arena) : List Fault :=
  arena.circles.filterMap fun circle =>
    circleFault? (circle.filterMap fun id => arena[id]?)

end Arena

/-! ## The graph -/

/-- The nodes of a unit, each at the place of its number. The root comes first. -/
structure Graph where
  nodes : List Node

namespace Graph

/-- The graph of a unit, or all that keeps it from being a tree. -/
def ofUnit (unit : TranslationUnit) (table : MarkingTable) : Except (List Fault) Graph :=
  let groups := Group.ofDeclarations unit.declarations
  let (entities, conflicts) := Entity.ofGroups table groups
  let (moves, moveFaults) := Move.ofEntities entities
  let arena : Arena := entities.map (Entity.place entities moves)
  let faults := conflicts ++ moveFaults ++ arena.circleFaults
  if faults.isEmpty then .ok ⟨arena⟩ else .error faults

def root : Nat := 0

/-- How many nodes there are. -/
def size (graph : Graph) : Nat := graph.nodes.length

/-- Whether there is nothing below the root. -/
def isEmpty (graph : Graph) : Bool := graph.size ≤ 1

def node? (graph : Graph) (id : Nat) : Option Node := graph.nodes[id]?

def nodesOf (graph : Graph) (ids : List Nat) : List Node := ids.filterMap graph.node?

def nodeOf? (graph : Graph) (declaration : Nat) : Option Nat :=
  (graph.nodes.find? fun node => node.declarations.contains declaration).map fun node => node.id

def entities (graph : Graph) : List Entity := graph.nodes.map Node.toEntity

def lookup (graph : Graph) (qualifiedName : String) : Option Nat :=
  Entity.lookup graph.entities qualifiedName

def resolveType (graph : Graph) (qualifiedName : String) : Option Nat :=
  Entity.resolveType graph.entities qualifiedName

/-- The nodes around a node, nearest first, at most so many. -/
def ancestorsWithin (graph : Graph) : Nat → Node → List Node
  | 0, _ => []
  | steps + 1, node =>
      match node.parent.bind graph.node? with
      | none => []
      | some parent => parent :: graph.ancestorsWithin steps parent

/-- The nodes around a node, nearest first. In a tree there are fewer than
nodes. -/
def ancestors (graph : Graph) (node : Node) : List Node :=
  graph.ancestorsWithin graph.size node

/-- A node and those below it, parents before children, down to a depth. -/
def preOrderWithin (graph : Graph) : Nat → Node → List Node
  | 0, _ => []
  | depth + 1, node =>
      node :: (graph.nodesOf node.children).flatMap (graph.preOrderWithin depth)

/-- All nodes, parents before children. -/
def preOrder (graph : Graph) : List Node :=
  (graph.nodesOf [root]).flatMap (graph.preOrderWithin graph.size)

/-- The nodes directly below a node. -/
def childrenOf (graph : Graph) (node : Node) : List Node := graph.nodesOf node.children

end Graph

end Registrar
