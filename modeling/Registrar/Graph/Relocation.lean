import Registrar.Graph.Entity

/-!
Contract: entities that are exposed elsewhere than declared.

Owns: which entity asks for which other to be moved where, and that each is
moved once.

Does not own: whether the entities still form a tree.
-/

set_option autoImplicit false

namespace Registrar

/-- One entity is moved below another, or to where nothing is around it, on the
request of an entity, which may be itself. -/
structure Move where
  target : Nat
  parent : Option Nat
  requestedBy : Nat
  deriving DecidableEq

namespace Move

/-- The move that an alias asks for: its target comes to where the alias is. A
target that is not known stays where it is. -/
def ofAlias? (entities : List Entity) (entity : Entity) : Option Move :=
  match entity.kind with
  | .typeAlias (some spelling) =>
      (Entity.resolveType entities spelling).map fun target =>
        ⟨target, entity.lexicalParent, entity.id⟩
  | _ => none

/-- The context with the qualified name. -/
def destination? (entities : List Entity) (context : String) : Option Nat :=
  (Entity.lookup entities context).filter fun id =>
    match entities[id]? with
    | some entity => entity.kind.isContext
    | none => false

/-- The move that an entity asks for, if it asks for one. -/
def requested (entities : List Entity) (entity : Entity) : Except Fault (Option Move) :=
  match entity.marking.exposeHere with
  | none => .ok none
  | some .here => .ok (ofAlias? entities entity)
  | some (.into context) =>
      match destination? entities context with
      | some destination => .ok (some ⟨entity.id, some destination, entity.id⟩)
      | none =>
          .error ((Fault.ofCause (.unreachableExposure entity.displayName context)).located
            entity.displayName entity.location)

/-- An entity asks for a move of what was moved before. -/
def repeatedFault (entities : List Entity) (entity : Entity) (move earlier : Move) : Fault :=
  let nameOf (id : Nat) : String := ((entities[id]?).map Entity.displayName).getD ""
  let note : Note :=
    { message := "first exposed by '" ++ nameOf earlier.requestedBy ++ "'"
      location := (entities[earlier.requestedBy]?).map Entity.location }
  let fault : Fault :=
    ⟨.alreadyExposedElsewhere (nameOf move.target), some { notes := [note] }⟩
  fault.located entity.displayName entity.location

/-- The move of an entity among given ones. -/
def find? (moves : List Move) (id : Nat) : Option Move :=
  List.find? (fun move => move.target == id) moves

/-- Makes the moves that further entities ask for, after the given ones. The
first move of an entity is made, and any other is a fault. -/
def makeAll (entities : List Entity) (moves : List Move) :
    List Entity → List Move × List Fault
  | [] => (moves, [])
  | entity :: rest =>
      match requested entities entity with
      | .error fault =>
          let (made, faults) := makeAll entities moves rest
          (made, fault :: faults)
      | .ok none => makeAll entities moves rest
      | .ok (some move) =>
          match find? moves move.target with
          | none => makeAll entities (moves ++ [move]) rest
          | some earlier =>
              let (made, faults) := makeAll entities moves rest
              (made, repeatedFault entities entity move earlier :: faults)

/-- The moves that the entities ask for, and the faults among them. -/
def ofEntities (entities : List Entity) : List Move × List Fault :=
  makeAll entities [] entities

end Move

end Registrar
