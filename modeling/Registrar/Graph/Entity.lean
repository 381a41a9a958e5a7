import Registrar.Marking.Merge
import Registrar.MarkingTable
import Registrar.QualifiedName
import Registrar.Spelling

/-!
Contract: entities, each declared once or more often.

Owns: which declarations of a unit declare one entity, what is known of the
entity from all of them, and looking entities up by name.

Does not own: where an entity is exposed.
-/

set_option autoImplicit false

namespace Registrar

/-! ## Grouping -/

/-- The declarations of one entity. There is at least one. -/
structure Group where
  first : Declaration
  others : List Declaration

namespace Group

/-- All declarations, in the order of the unit. -/
def members (group : Group) : List Declaration := group.first :: group.others

def inSourceOrder (group : Group) : List Declaration :=
  group.members.mergeSort TranslationUnit.sourceOrder

/-- Adds a declaration to the group with its key, or in a group of its own. -/
def insert (key : String) (declaration : Declaration) : List Group → List Group
  | [] => [⟨declaration, []⟩]
  | group :: rest =>
      if group.first.mergeKey? == some key then
        { group with others := group.others ++ [declaration] } :: rest
      else group :: insert key declaration rest

/-- Adds a declaration to the groups. What has no key is alone. -/
def add (groups : List Group) (declaration : Declaration) : List Group :=
  match declaration.mergeKey? with
  | some key => insert key declaration groups
  | none => groups ++ [⟨declaration, []⟩]

/-- The groups of a list of declarations, in the order of their first members. -/
def ofDeclarations (declarations : List Declaration) : List Group :=
  declarations.foldl add []

/-- The number of the group that holds the declaration. -/
def indexOf? (groups : List Group) (id : Nat) : Option Nat :=
  groups.findIdx? fun group => group.members.any fun declaration => declaration.id == id

end Group

/-! ## Entities -/

/-- What is known of an entity from all its declarations. -/
structure Entity where
  /-- The number of the entity; that of the root is zero. -/
  id : Nat
  /-- The kind, from the most complete declaration. -/
  kind : DeclarationKind
  name : String
  qualifiedName : String
  /-- The declarations in source order. -/
  declarations : List Nat
  /-- The place in source order of the first declaration. -/
  order : Nat
  location : Location
  access : Access
  /-- The documentation of all declarations, without repetition. -/
  docs : List String
  /-- The annotations of all declarations, merged. -/
  marking : Marking
  /-- The entity around this one in the source. -/
  lexicalParent : Option Nat
  /-- Whether a declaration asks for the instantiation. -/
  explicitlyInstantiated : Bool

namespace Entity

/-- A name to show to a reader. -/
def displayName (entity : Entity) : String :=
  Registrar.displayName entity.qualifiedName entity.kind

/-- Whether a declaration is a class that lists its bases. -/
def listsBases (declaration : Declaration) : Bool :=
  match declaration.kind with
  | .class (_ :: _) _ => true
  | _ => false

/-- Whether a declaration asks for an instantiation. -/
def asksForInstantiation (declaration : Declaration) : Bool :=
  match declaration.kind.template? with
  | some use => use.origin == .explicit
  | none => false

/-- Merges the annotations of redeclarations into the first, and finds those
that contradict what was merged before. -/
def mergeMarkings (table : MarkingTable) (name : String) (marking : Marking) :
    List Declaration → Marking × List Fault
  | [] => (marking, [])
  | declaration :: rest =>
      let (merged, conflict) := marking.mergeRedeclaration (table.get declaration.id)
      let (final, faults) := mergeMarkings table name merged rest
      match conflict with
      | none => (final, faults)
      | some kind =>
          let fault := Fault.ofCause (.conflictingRedeclarations name kind.name)
          (final, fault.located declaration.displayName declaration.location :: faults)

/-- The documentation of the declarations, trimmed, without what is empty or
was there before. -/
def mergeDocs (declarations : List Declaration) : List String :=
  let written := declarations.filterMap fun declaration => declaration.doc.map Text.trim
  appendNew [] (written.filter fun doc => !doc.isEmpty)

/-- The entity that a group declares, and the faults in its annotations. -/
def ofGroup (table : MarkingTable) (groups : List Group) (id : Nat) (group : Group) :
    Entity × List Fault :=
  let declarations := group.inSourceOrder
  let primary := declarations.headD group.first
  let definition := (declarations.find? listsBases).getD primary
  let (marking, faults) :=
    mergeMarkings table primary.displayName (table.get primary.id) declarations.tail
  ({ id
     kind := definition.kind
     name := primary.name
     qualifiedName := primary.qualifiedName
     declarations := declarations.map Declaration.id
     order := primary.order
     location := primary.location
     access := primary.access
     docs := mergeDocs declarations
     marking
     lexicalParent := primary.parent.bind (Group.indexOf? groups)
     explicitlyInstantiated := declarations.any asksForInstantiation },
   faults)

/-- The entities of groups, numbered in order, and all faults. -/
def ofGroups (table : MarkingTable) (groups : List Group) : List Entity × List Fault :=
  let merged := groups.mapIdx (ofGroup table groups)
  (merged.map (·.1), merged.flatMap (·.2))

/-! ## Names -/

/-- Whether the entity can be looked up by name: it is a context, a template or
an alias. -/
def isNamed (entity : Entity) : Bool :=
  entity.kind.isContext
    || [Target.classTemplate, .functionTemplate, .typeAlias].contains entity.kind.target

def lookupName? (entity : Entity) : Option String :=
  if entity.isNamed && !entity.qualifiedName.isEmpty then
    some (Spelling.normalize entity.qualifiedName)
  else none

/-- The number of the first entity with the qualified name. A leading separator
says nothing, and the empty name is that of the root. -/
def lookup (entities : List Entity) (qualifiedName : String) : Option Nat :=
  let key := Spelling.normalize (QualifiedName.relative qualifiedName)
  if key.isEmpty then some 0
  else (entities.find? fun entity => entity.lookupName? == some key).map Entity.id

/-- The entity that aliases lead to in so many steps at most. -/
def followAliases (entities : List Entity) : Nat → Nat → Option Nat
  | 0, _ => none
  | steps + 1, id =>
      match (entities[id]?).map Entity.kind with
      | some (.typeAlias (some target)) =>
          (lookup entities target).bind (followAliases entities steps)
      | some (.typeAlias none) => none
      | some _ => some id
      | none => none

/-- The entity that a name of a type stands for, through all aliases. As many
steps as there are entities suffice, unless the aliases lead in a circle. -/
def resolveType (entities : List Entity) (qualifiedName : String) : Option Nat :=
  (lookup entities qualifiedName).bind (followAliases entities entities.length)

end Entity

end Registrar
