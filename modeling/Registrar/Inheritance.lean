import Registrar.Visibility

/-!
Contract: what classes take from their bases.

Owns: whether a base is kept, hidden or inlined, the supertypes that a class is
registered with, and the members that it takes from inlined bases.

Does not own: what becomes of the members.

A kept base is a supertype. An inlined base hands on its supertypes, its own
members, and the members that it takes itself. A member gives way to one of the
same name in the class that takes it.
-/

set_option autoImplicit false

namespace Registrar

/-- What a class does with a base. -/
inductive BaseMode where
  /-- The base is a supertype. -/
  | keep
  /-- The base is not mentioned. -/
  | hide
  /-- The members of the base join those of the class. -/
  | inline
  deriving DecidableEq

/-- A base of a class, with what the class does with it. -/
structure BaseUse where
  /-- The class that the base is, if the unit holds it. -/
  node : Option Nat
  /-- The base as the class names it. -/
  spelling : String
  access : Access
  mode : BaseMode

structure Member where
  node : Nat
  /-- The class that declares the member, if it is another one. -/
  inlinedFrom : Option Nat := none
  deriving DecidableEq

structure ClassBases where
  bases : List BaseUse := []
  /-- The supertypes, in the order of the bases. -/
  registered : List Nat := []
  /-- The members from inlined bases. -/
  inherited : List Member := []

namespace Inheritance

/-- Whether declarations of the kind are members of a class. -/
def isMemberKind : DeclarationKind → Bool
  | .method _ _ _ | .field _ _ _ | .operator _ _ _ | .conversionFunction _ => true
  | _ => false

/-! ## Bases -/

/-- Whether a selection of bases selects one with the names. -/
def selects (selection : Option BaseSelection) (names : List String) : Bool :=
  match selection with
  | none => false
  | some .all => true
  | some (.named patterns) =>
      patterns.any fun pattern => names.any (QualifiedName.refersTo pattern)

def classNamed? (graph : Graph) (name : String) : Option Node :=
  ((graph.resolveType name).bind graph.node?).filter fun node =>
    node.kind.target == .class

/-- The names under which a base can be selected: as it is written, and that of
the class it stands for. -/
def namesOf (graph : Graph) (base : BaseClause) : List String :=
  base.qualifiedName
    :: ((classNamed? graph base.qualifiedName).map fun node => node.qualifiedName).toList

/-- What a class does with a base. To inline goes before to hide. -/
def modeOf (graph : Graph) (marking : Marking) (base : BaseClause) : BaseMode :=
  if selects marking.inlineBase (namesOf graph base) then .inline
  else if selects marking.hideBase (namesOf graph base) then .hide
  else .keep

def basesOf (node : Node) : List BaseClause :=
  match node.kind with
  | .class bases _ => bases
  | _ => []

/-- The bases of a class, with what the class does with them. -/
def usesOf (graph : Graph) (node : Node) : List BaseUse :=
  (basesOf node).map fun base =>
    { node := (classNamed? graph base.qualifiedName).map fun found => found.id
      spelling := base.qualifiedName
      access := base.access
      mode := modeOf graph node.marking base }

def patternsOf : Option BaseSelection → List String
  | some (.named patterns) => patterns
  | _ => []

/-- The warnings for patterns that name no base of a class. -/
def unknownBases (graph : Graph) (configuration : Configuration) (node : Node) :
    List Diagnostic :=
  if configuration.warnOnUnknownBase then
    let patterns := patternsOf node.marking.hideBase ++ patternsOf node.marking.inlineBase
    let names := (basesOf node).flatMap (namesOf graph)
    (patterns.filter fun pattern => !names.any (QualifiedName.refersTo pattern)).map
      fun pattern =>
        (Diagnostic.warning "unknown-base"
          ("'" ++ pattern ++ "' is not a base of '" ++ node.displayName ++ "'")).located
            node.displayName node.location
  else []

/-! ## Members -/

/-- The own members of a base that a class takes: public ones that are not
hidden. Whether the base is visible does not matter. -/
def inlinableMembers (graph : Graph) (base : Node) : List Nat :=
  ((graph.childrenOf base).filter fun member =>
    isMemberKind member.kind && member.access == .public
      && member.marking.visible != some false).map fun member => member.id

def ownNames (graph : Graph) (visibility : Visibility) (node : Node) : List String :=
  ((graph.childrenOf node).filter fun member => isMemberKind member.kind).map
    fun member => visibility.exposedName member.id

def register (gained : ClassBases) (supertype : Nat) : ClassBases :=
  if gained.registered.contains supertype then gained
  else { gained with registered := gained.registered ++ [supertype] }

/-- Adds a member that is not there, unless its name is taken. -/
def inherit (visibility : Visibility) (taken : List String) (gained : ClassBases)
    (member : Member) : ClassBases :=
  if taken.contains (visibility.exposedName member.node)
      || gained.inherited.any (fun other => other.node == member.node) then gained
  else { gained with inherited := gained.inherited ++ [member] }

def absorb (graph : Graph) (visibility : Visibility) (taken : List String)
    (gained : ClassBases) (base : Nat) (handedOn : ClassBases) : ClassBases :=
  let own := ((graph.node? base).map fun node =>
    (inlinableMembers graph node).map fun member =>
      ({ node := member, inlinedFrom := some base } : Member)).getD []
  (own ++ handedOn.inherited).foldl (inherit visibility taken)
    (handedOn.registered.foldl register gained)

/-! ## Following the bases -/

/-- What is known while the bases are followed. -/
structure Progress where
  /-- The classes that are done. -/
  done : List (Nat × ClassBases) := []
  warnings : List Diagnostic := []

/-- What a class that is done takes from its bases. -/
def Progress.find? (progress : Progress) (id : Nat) : Option ClassBases :=
  (progress.done.find? fun entry => entry.1 == id).map (·.2)

/-- A class is inlined into itself along the classes of a path. -/
def cycleFault (graph : Graph) (path : List Nat) (id : Nat) : Fault :=
  let nameOf (id : Nat) : String :=
    ((graph.node? id).map fun node => node.displayName).getD ""
  let classes := (path.dropWhile fun other => other != id) ++ [id]
  let fault := Fault.ofCause (.baseClassCycle (classes.map nameOf))
  match graph.node? id with
  | some node => fault.located node.displayName node.location
  | none => fault

/-- Takes what the bases of a class have to give, one after the other, where
`follow` finds what an inlined base hands on. -/
def takeBases (graph : Graph) (visibility : Visibility) (taken : List String)
    (follow : Nat → Progress → Except Fault ClassBases × Progress) :
    List BaseUse → ClassBases → Progress → Except Fault ClassBases × Progress
  | [], gained, progress => (.ok gained, progress)
  | use :: rest, gained, progress =>
      match use.node, use.mode with
      | some base, .keep =>
          let kept := use.access == .public && visibility.isEmitted base
          takeBases graph visibility taken follow rest
            (if kept then register gained base else gained) progress
      | some base, .inline =>
          match follow base progress with
          | (.error fault, after) => (.error fault, after)
          | (.ok handedOn, after) =>
              takeBases graph visibility taken follow rest
                (absorb graph visibility taken gained base handedOn) after
      | _, _ => takeBases graph visibility taken follow rest gained progress

/-- What a class takes from its bases, at the end of a path of classes that are
inlined each into the one before. A path is no longer than there are nodes. -/
def follow (graph : Graph) (visibility : Visibility) (configuration : Configuration) :
    Nat → List Nat → Nat → Progress → Except Fault ClassBases × Progress
  | 0, path, id, progress => (.error (cycleFault graph path id), progress)
  | budget + 1, path, id, progress =>
      match progress.find? id with
      | some gained => (.ok gained, progress)
      | none =>
          if path.contains id then (.error (cycleFault graph path id), progress)
          else
            match graph.node? id with
            | none => (.ok {}, progress)
            | some node =>
                let uses := usesOf graph node
                let warned := { progress with
                  warnings := progress.warnings ++ unknownBases graph configuration node }
                match takeBases graph visibility (ownNames graph visibility node)
                    (follow graph visibility configuration budget (path ++ [id]))
                    uses { bases := uses } warned with
                | (.ok gained, after) =>
                    (.ok gained, { after with done := after.done ++ [(id, gained)] })
                | failed => failed

/-! ## All classes -/

def classesOf (fault : Fault) : List String :=
  match fault.cause with
  | .baseClassCycle classes => classes
  | _ => []

/-- Whether two faults name the same classes. -/
def sameCycle (left right : Fault) : Bool :=
  (classesOf left).all (classesOf right).contains
    && (classesOf right).all (classesOf left).contains

/-- Adds a fault, unless one with the same classes is there. -/
def addFault (faults : List Fault) (fault : Fault) : List Fault :=
  if faults.any (sameCycle fault) then faults else faults ++ [fault]

/-- Follows the bases of each of the classes. -/
def followAll (graph : Graph) (visibility : Visibility) (configuration : Configuration)
    (faults : List Fault) (progress : Progress) : List Nat → List Fault × Progress
  | [] => (faults, progress)
  | id :: rest =>
      match follow graph visibility configuration (graph.size + 1) [] id progress with
      | (.ok _, after) => followAll graph visibility configuration faults after rest
      | (.error fault, after) =>
          followAll graph visibility configuration (addFault faults fault) after rest

end Inheritance

/-- What the classes of a unit take from their bases. -/
structure Inheritance where
  /-- The classes that were looked at, in ascending order. -/
  classes : List (Nat × ClassBases)

namespace Inheritance

def emittedClasses (graph : Graph) (visibility : Visibility) : List Nat :=
  ((graph.nodesOf visibility.emitted).filter fun node => node.kind.target == .class).map
    fun node => node.id

/-- What the emitted classes take from their bases, or the circles among inlined
bases, and the warnings in either case. -/
def ofGraph (graph : Graph) (visibility : Visibility) (configuration : Configuration) :
    Except (List Fault) Inheritance × List Diagnostic :=
  let (faults, progress) :=
    followAll graph visibility configuration [] {} (emittedClasses graph visibility)
  if faults.isEmpty then
    (.ok ⟨progress.done.mergeSort fun left right => left.1 ≤ right.1⟩, progress.warnings)
  else (.error faults, progress.warnings)

def get? (inheritance : Inheritance) (id : Nat) : Option ClassBases :=
  (inheritance.classes.find? fun entry => entry.1 == id).map (·.2)

/-- The supertypes of a class. -/
def registered (inheritance : Inheritance) (id : Nat) : List Nat :=
  ((inheritance.get? id).map ClassBases.registered).getD []

/-- The members that a class takes from inlined bases. -/
def inherited (inheritance : Inheritance) (id : Nat) : List Member :=
  ((inheritance.get? id).map ClassBases.inherited).getD []

/-- The nodes that some class takes from an inlined base. -/
def inlinedNodes (inheritance : Inheritance) : List Nat :=
  inheritance.classes.flatMap fun entry => entry.2.inherited.map Member.node

/-- The members of a class: its own that are emitted, and those from inlined
bases. -/
def members (inheritance : Inheritance) (graph : Graph) (visibility : Visibility)
    (node : Node) : List Member :=
  let own := (graph.childrenOf node).filter fun member =>
    isMemberKind member.kind && visibility.isEmitted member.id
  (own.map fun member => ({ node := member.id } : Member)) ++ inheritance.inherited node.id

end Inheritance

end Registrar
