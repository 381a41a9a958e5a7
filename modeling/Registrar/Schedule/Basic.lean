import Registrar.Schedule.Item

/-!
Contract: the order of all registrations.

Owns: which contexts and aliases are registered one after the other, each after
the context around it, its supertypes, and the target of an alias.

Does not own: what is written for them.
-/

set_option autoImplicit false

namespace Registrar

/-- What is registered in one go. -/
inductive UnitId where
  /-- The manual blocks before everything else. -/
  | early
  /-- A context with its items. -/
  | context (node : Nat)
  | typeAlias (node : Nat)
  /-- The manual blocks after everything else. -/
  | postamble
  deriving DecidableEq

namespace UnitId

def rank : UnitId → Nat
  | early => 0
  | context _ => 1
  | typeAlias _ => 2
  | postamble => 3

def node? : UnitId → Option Nat
  | context node => some node
  | typeAlias node => some node
  | _ => none

/-- Units are ordered by sort, and then by node. -/
def le (left right : UnitId) : Bool :=
  decide (left.rank < right.rank)
    || (left.rank == right.rank && decide (left.node?.getD 0 ≤ right.node?.getD 0))

instance : LE UnitId := ⟨fun left right => le left right = true⟩

instance : DecidableLE UnitId := fun left right =>
  inferInstanceAs (Decidable (le left right = true))

end UnitId

/-- A unit with its items in order. -/
structure ScheduledUnit where
  id : UnitId
  items : List Item

structure Schedule where
  units : List ScheduledUnit
  /-- The class or enum that each alias stands for, which may be registered by
  another module. -/
  aliasTargets : List (Nat × Nat)

namespace Schedule

/-! ## Aliases -/

/-- The target of an alias as written. -/
def aliasSpelling? (node : Node) : Option String :=
  match node.kind with
  | .typeAlias target => target
  | _ => none

/-- The class or enum that an alias stands for. -/
def aliasTarget? (graph : Graph) (node : Node) : Option Nat :=
  ((aliasSpelling? node).bind graph.resolveType).filter fun id =>
    match graph.node? id with
    | some found => [Target.class, .enum].contains found.kind.target
    | none => false

def emittedAliases (graph : Graph) (visibility : Visibility) : List Node :=
  (graph.nodesOf visibility.emitted).filter fun node => node.kind.target == .typeAlias

/-- The warning for an alias that stands for no class or enum. -/
def unresolvedWarning (node : Node) : Diagnostic :=
  (Diagnostic.warning "unresolved-alias-target"
    ("alias target '" ++ (aliasSpelling? node).getD "<unresolved>"
      ++ "' does not name a known class or enum; the alias is omitted")).located
    node.displayName node.location

/-- The warnings for all aliases that stand for no class or enum. -/
def warnings (graph : Graph) (visibility : Visibility) : List Diagnostic :=
  ((emittedAliases graph visibility).filter fun node =>
    (aliasTarget? graph node).isNone).map unresolvedWarning

/-- What the other aliases stand for. -/
def targets (graph : Graph) (visibility : Visibility) : List (Nat × Nat) :=
  (emittedAliases graph visibility).filterMap fun node =>
    (aliasTarget? graph node).map fun target => (node.id, target)

/-! ## Units -/

def unitOf? (graph : Graph) (node : Node) : Option UnitId :=
  if node.kind.isContext then some (.context node.id)
  else if node.kind.target == .typeAlias && (aliasTarget? graph node).isSome then
    some (.typeAlias node.id)
  else none

/-- The units of all emitted nodes. -/
def unitsOf (graph : Graph) (visibility : Visibility) : List UnitId :=
  (graph.nodesOf visibility.emitted).filterMap (unitOf? graph)

def orderOf (graph : Graph) (unit : UnitId) : Nat :=
  ((unit.node?.bind graph.node?).map fun node => node.order).getD 0

/-- The context around a node. -/
def parentOf (graph : Graph) (id : Nat) : List Nat :=
  ((graph.node? id).bind Node.parent).toList

/-- The units that a unit follows: that of the context around it, those of the
supertypes of a class, and that of the target of an alias. -/
def dependencies (groundwork : Groundwork) (targets : List (Nat × Nat)) :
    UnitId → List UnitId
  | .context id =>
      (parentOf groundwork.graph id ++ groundwork.inheritance.registered id).map .context
  | .typeAlias id =>
      (parentOf groundwork.graph id ++ (targets.lookup id).toList).map .context
  | _ => []

/-- Units depend on each other. -/
def circleFault (graph : Graph) (circle : List UnitId) : Fault :=
  let nodes := graph.nodesOf (circle.filterMap UnitId.node?)
  let fault := Fault.ofCause (.cyclicDependency (nodes.map fun node => node.displayName))
  match nodes with
  | [] => fault
  | first :: _ => fault.located first.displayName first.location

/-- The emitted manual blocks at the root with the placement. -/
def rootBlocks (groundwork : Groundwork) (placement : Placement) : List Item :=
  match groundwork.graph.node? Graph.root with
  | none => []
  | some root =>
      ((Item.emittedChildren groundwork root).filter fun node =>
        Item.isManualBlock node && node.marking.placement == some placement).map
          fun node => .manualBlock node.id

def blockUnit (groundwork : Groundwork) (id : UnitId) (placement : Placement) :
    List ScheduledUnit :=
  let items := rootBlocks groundwork placement
  if items.isEmpty then [] else [⟨id, items⟩]

def itemsOf (groundwork : Groundwork) : UnitId → Except (List Fault) (List Item)
  | .context id =>
      match groundwork.graph.node? id with
      | some node => Item.ofContext groundwork node
      | none => .ok []
  | _ => .ok []

/-- The units with their items, and the faults in those without. -/
def schedule (groundwork : Groundwork) : List UnitId → List ScheduledUnit × List Fault
  | [] => ([], [])
  | id :: rest =>
      let (units, faults) := schedule groundwork rest
      match itemsOf groundwork id with
      | .ok items => (⟨id, items⟩ :: units, faults)
      | .error found => (units, found ++ faults)

/-- The schedule, or everything that keeps registrations from being put in
order. -/
def ofGroundwork (groundwork : Groundwork) : Except (List Fault) Schedule :=
  let graph := groundwork.graph
  let targets := targets graph groundwork.visibility
  match TopologicalOrder.order (orderOf graph) (dependencies groundwork targets)
      (unitsOf graph groundwork.visibility) with
  | .error circle => .error [circleFault graph circle]
  | .ok ordered =>
      let (units, faults) := schedule groundwork ordered
      if faults.isEmpty then
        .ok
          { units := blockUnit groundwork .early .early ++ units
              ++ blockUnit groundwork .postamble .postamble
            aliasTargets := targets }
      else .error faults

end Schedule

end Registrar
