import Mathlib
import Registrar.Plan
import Registrar.Proofs.Graph.Circles
import Registrar.Proofs.Graph.Moves
import Registrar.Proofs.Merging.Conflicts
import Registrar.Proofs.Renumbering.Arena

/-!
Contract: where the entities of a unit come to be.

Owns: that where nothing is told of requests every entity is where the one request for it
asks, or stays where it is declared, and that what is told of the requests of a unit is one
for one the requests that are not granted.

Does not own: what is told of a single request, and the circles that moves bring about.
-/

set_option autoImplicit false

namespace Registrar

variable {entities : List Entity} {mover : Entity} {move : Move} {fault : Fault}

/-! ## Places -/

/-- The node is where the one entity that asks to move it wants it, and where it is declared
if there is none. -/
structure Node.IsPlaced (entities : List Entity) (node : Node) : Prop where
  moved : ∀ mover ∈ entities, ∀ place, mover.Relocates entities node.id place →
    node.parent = place ∧ node.relocatedBy = some mover.id
  stays : (∀ mover ∈ entities, ∀ place, ¬ mover.Relocates entities node.id place) →
    node.parent = node.lexicalParent ∧ node.relocatedBy = none
  relocates_iff : ∀ target, node.relocates = some target ↔
    node.marking.exposeHere = some .here ∧
      ∃ place, node.toEntity.Relocates entities target place

section Numbered

variable (numbered : ∀ (index : Nat) (entity : Entity), entities[index]? = some entity →
  entity.id = index) (noFaults : (Move.ofEntities entities).2 = [])

include numbered noFaults

namespace Move

omit noFaults in
/-- A move is asked for by the entity that it names. -/
theorem relocates_of_mem_ofEntities (member : mover ∈ entities)
    (made : move ∈ (ofEntities entities).1) (isMover : move.requestedBy = mover.id) :
    mover.Relocates entities move.target move.parent := by
  rcases mem_makeAll made with old | ⟨other, isOther, asks⟩
  · cases old
  · obtain ⟨relocates, isRequest⟩ := requested_eq_some_iff.mp asks
    have found := getElem?_of_numbered numbered isOther
    rw [← isRequest, isMover, getElem?_of_numbered numbered member,
      Option.some.injEq] at found
    rwa [found]

omit numbered in
/-- Where nothing is told, each request is granted. -/
theorem find?_ofEntities_of_relocates (member : mover ∈ entities) {target : Nat}
    {place : Option Nat} (relocates : mover.Relocates entities target place) :
    find? (ofEntities entities).1 target = some ⟨target, place, mover.id⟩ := by
  obtain ⟨asked, asks, isMade⟩ := exists_requested noFaults member
  rw [requested_eq_some_iff.mpr (⟨relocates, rfl⟩ :
    mover.Relocates entities (⟨target, place, mover.id⟩ : Move).target _ ∧ _),
    Except.ok.injEq] at asks
  exact isMade _ asks.symm

theorem place_isPlaced {entity : Entity} (member : entity ∈ entities) :
    (entity.place entities (ofEntities entities).1).IsPlaced entities where
  moved := by
    intro mover isMover place relocates
    have isMove := find?_ofEntities_of_relocates noFaults isMover relocates
    change entity.parentAfter _ = place ∧ (find? _ entity.id).map requestedBy = some mover.id
    rw [Entity.parentAfter]
    change find? _ entity.id = _ at isMove
    rw [isMove]
    exact ⟨rfl, rfl⟩
  stays := by
    intro noneAsks
    have noMove : find? (ofEntities entities).1 entity.id = none := by
      rw [ofEntities, find?_makeAll_eq]
      exact find?_requests_eq_none_iff.mpr noneAsks
    change entity.parentAfter _ = entity.lexicalParent ∧ (find? _ entity.id).map requestedBy = none
    rw [Entity.parentAfter, noMove]
    exact ⟨rfl, rfl⟩
  relocates_iff := by
    intro target
    let names (move : Move) : Bool := move.requestedBy == entity.id && move.target != entity.id
    have of_names {move : Move} (made : move ∈ (ofEntities entities).1)
        (isNamed : names move = true) :
        entity.Relocates entities move.target move.parent ∧ move.target ≠ entity.id := by
      rw [Bool.and_eq_true, beq_iff_eq, bne_iff_ne] at isNamed
      exact ⟨relocates_of_mem_ofEntities numbered member made isNamed.1, isNamed.2⟩
    change ((ofEntities entities).1.find? names).map Move.target = some target ↔
      entity.marking.exposeHere = some .here ∧ ∃ place, entity.Relocates entities target place
    constructor
    · intro isTarget
      obtain ⟨move, found, rfl⟩ := Option.map_eq_some_iff.mp isTarget
      obtain ⟨relocates, isOther⟩ :=
        of_names (List.mem_of_find?_eq_some found) (List.find?_some found)
      obtain ⟨_, _, isHere⟩ := relocates.exists_target numbered member
      exact ⟨isHere.mpr isOther, _, relocates⟩
    · rintro ⟨asks, place, relocates⟩
      obtain ⟨_, _, isHere⟩ := relocates.exists_target numbered member
      have isMade := List.mem_of_find?_eq_some
        (find?_ofEntities_of_relocates noFaults member relocates)
      have isNamed : names ⟨target, place, entity.id⟩ = true := by
        rw [Bool.and_eq_true, beq_iff_eq, bne_iff_ne]
        exact ⟨rfl, isHere.mp asks⟩
      obtain ⟨move, found⟩ :=
        Option.isSome_iff_exists.mp (List.find?_isSome.mpr ⟨_, isMade, isNamed⟩)
      obtain ⟨others, _⟩ := of_names (List.mem_of_find?_eq_some found) (List.find?_some found)
      rw [found, Option.map_some, (eq_of_relocates relocates others).1]

end Move

end Numbered

/-! ## Units -/

/-- The faults are one for one those told of the entities of which there is something to
tell, in the order of the entities. -/
def ToldOnce (entities : List Entity) (concerns : Entity → Prop) (Tells : Entity → Fault → Prop)
    (faults : List Fault) : Prop :=
  ∃ movers : List Entity, movers.Sublist entities ∧
    (∀ mover ∈ entities, mover ∈ movers ↔ concerns mover) ∧ List.Forall₂ Tells movers faults

/-- Each request to move an entity that was moved before is told of once, and each request for
a context that is not known. If there are none, every entity is where it is asked to be. -/
structure RelocatesExactly (unit : TranslationUnit) (table : MarkingTable) : Prop where
  repeated : ToldOnce (Entity.ofUnit unit table)
    (fun mover => ∃ target, mover.Repeats (Entity.ofUnit unit table) target)
    (TellsRepeated (Entity.ofUnit unit table))
    ((Plan.faultsOf (Graph.ofUnit unit table)).filter fun fault =>
      fault.cause.category == "already-exposed-elsewhere")
  unknown : ToldOnce (Entity.ofUnit unit table)
    (fun mover => ∃ context, mover.AsksForUnknown (Entity.ofUnit unit table) context)
    (TellsUnknown (Entity.ofUnit unit table))
    ((Plan.faultsOf (Graph.ofUnit unit table)).filter fun fault =>
      fault.cause.category == "unreachable-exposure")
  placed : (∀ fault ∈ Plan.faultsOf (Graph.ofUnit unit table),
      fault.cause.category ≠ "already-exposed-elsewhere" ∧
        fault.cause.category ≠ "unreachable-exposure") →
    ∀ node ∈ Arena.ofUnit unit table, node.IsPlaced (Entity.ofUnit unit table)
  nodes : ∀ graph, Graph.ofUnit unit table = .ok graph → graph.nodes = Arena.ofUnit unit table

section OfUnit

variable {unit : TranslationUnit} {table : MarkingTable}

theorem Graph.faultsOf_ofUnit :
    Plan.faultsOf (ofUnit unit table) =
      (Entity.ofGroups table (Group.ofDeclarations unit.declarations)).2 ++
          (Move.ofEntities (Entity.ofUnit unit table)).2 ++
        (Arena.ofUnit unit table).circleFaults := by
  simp only [ofUnit]
  split
  · rename_i noFaults
    exact (List.isEmpty_iff.mp noFaults).symm
  · rfl

/-- The nodes that are made of a unit are numbered and in range, so nothing but what is around
the root keeps them from being rooted. -/
theorem Arena.ofUnit_isRooted
    (outermost : ∃ root, (ofUnit unit table)[0]? = some root ∧ root.parent = none) :
    (ofUnit unit table).IsRooted where
  numbered := by
    intro index node found
    rw [List.getElem?_map, Option.map_eq_some_iff] at found
    obtain ⟨entity, isEntity, rfl⟩ := found
    exact Entity.id_of_getElem?_ofGroups isEntity
  inside := by
    intro node member parent around
    obtain ⟨entity, isEntity, rfl⟩ := List.mem_map.mp member
    rw [List.length_map]
    exact Entity.parentAfter_lt isEntity around
  outermost := outermost

theorem Entity.category_of_mem_ofGroups {groups : List Group}
    (listed : fault ∈ (ofGroups table groups).2) :
    fault.cause.category = "conflicting-redeclarations" := by
  obtain ⟨made, isMade, isOwn⟩ := List.mem_flatMap.mp listed
  obtain ⟨index, inside, rfl⟩ := List.mem_mapIdx.mp isMade
  obtain ⟨declaration, _, directive, rfl⟩ := eq_of_mem_mergeMarkings isOwn
  rfl

theorem Arena.category_of_mem_circleFaults {arena : Arena} (listed : fault ∈ arena.circleFaults) :
    fault.cause.category = "scheduling-error/cyclic-dependency" := by
  obtain ⟨circle, _, isFault⟩ := List.mem_filterMap.mp listed
  cases nodes : circle.filterMap fun id => arena[id]? with
  | nil =>
      rw [nodes] at isFault
      cases isFault
  | cons first others =>
      rw [nodes] at isFault
      rw [← Option.some.inj isFault]
      rfl

/-- Faults that are no conflicts of annotations and no circles are those of moves. -/
theorem Graph.filter_faultsOf_ofUnit {category : String}
    (noConflict : category ≠ "conflicting-redeclarations")
    (noCircle : category ≠ "scheduling-error/cyclic-dependency") :
    (Plan.faultsOf (ofUnit unit table)).filter (fun fault => fault.cause.category == category) =
      (Move.ofEntities (Entity.ofUnit unit table)).2.filter fun fault =>
        fault.cause.category == category := by
  have noneOf {faults : List Fault} {other : String} (different : category ≠ other)
      (areOther : ∀ fault ∈ faults, fault.cause.category = other) :
      faults.filter (fun fault => fault.cause.category == category) = [] := by
    rw [List.filter_eq_nil_iff]
    intro fault listed
    rw [areOther fault listed, beq_iff_eq]
    exact different.symm
  rw [faultsOf_ofUnit, List.filter_append, List.filter_append,
    noneOf noConflict fun _ => Entity.category_of_mem_ofGroups,
    noneOf noCircle fun _ => Arena.category_of_mem_circleFaults, List.nil_append, List.append_nil]

/-- What is made of items and passes a test is one for one made of some of them. -/
theorem forall₂_filter_filterMap {α β : Type} (make : α → Option β) (test : β → Bool)
    (items : List α) :
    List.Forall₂ (fun item value => make item = some value ∧ test value = true)
      (items.filter fun item => (make item).any test) ((items.filterMap make).filter test) := by
  induction items with
  | nil => exact .nil
  | cons item rest inductionHypothesis =>
      cases isMade : make item with
      | none => simpa [isMade] using inductionHypothesis
      | some value =>
          cases passes : test value with
          | false => simpa [isMade, passes] using inductionHypothesis
          | true => simpa [isMade, passes] using inductionHypothesis

theorem Move.toldOnce {entities : List Entity}
    (numbered : ∀ (index : Nat) (entity : Entity), entities[index]? = some entity →
      entity.id = index) {category : String} {concerns : Entity → Prop}
    {Tells : Entity → Fault → Prop}
    (tells_iff : ∀ mover ∈ entities, ∀ fault, fault? entities mover = some fault ∧
      fault.cause.category = category ↔ Tells mover fault)
    (concerns_iff : ∀ mover ∈ entities, (∃ fault, Tells mover fault) ↔ concerns mover) :
    ToldOnce entities concerns Tells ((ofEntities entities).2.filter fun fault =>
      fault.cause.category == category) := by
  rw [ofEntities_faults (Entity.ascending_of_numbered numbered)]
  refine ⟨_, List.filter_sublist, ?_, List.Forall₂.imp ?_ ((List.forall₂_and_left _ _).mpr
    ⟨fun _ => List.mem_of_mem_filter, forall₂_filter_filterMap (fault? entities) _ entities⟩)⟩
  · intro mover member
    rw [List.mem_filter, and_iff_right member, Option.any_eq_true, ← concerns_iff mover member]
    refine exists_congr fun fault => ?_
    rw [beq_iff_eq, tells_iff mover member fault]
  · rintro mover fault ⟨member, isFault, isCategory⟩
    exact (tells_iff mover member fault).mp ⟨isFault, beq_iff_eq.mp isCategory⟩

/-- The moves of a unit are made exactly as its annotations ask for them. -/
theorem Graph.ofUnit_relocatesExactly (unit : TranslationUnit) (table : MarkingTable) :
    RelocatesExactly unit table := by
  have numbered : ∀ (index : Nat) (entity : Entity),
      (Entity.ofUnit unit table)[index]? = some entity → entity.id = index :=
    fun _ _ => Entity.id_of_getElem?_ofGroups
  refine ⟨?_, ?_, ?_, fun graph built => (nodes_of_ofUnit built).1⟩
  · rw [filter_faultsOf_ofUnit (by decide) (by decide)]
    exact Move.toldOnce numbered (fun _ member _ => Move.fault?_repeated_iff numbered member)
      fun _ => Move.exists_tellsRepeated_iff numbered
  · rw [filter_faultsOf_ofUnit (by decide) (by decide)]
    refine Move.toldOnce numbered (fun _ member _ => Move.fault?_unknown_iff numbered member) ?_
    intro mover _
    exact ⟨fun ⟨_, context, asks, _⟩ => ⟨context, asks⟩,
      fun ⟨context, asks⟩ => ⟨_, context, asks, rfl⟩⟩
  · intro neither node member
    obtain ⟨entity, isEntity, rfl⟩ := List.mem_map.mp member
    refine Move.place_isPlaced numbered (Move.ofEntities_eq_nil_of_category numbered ?_) isEntity
    intro fault listed
    refine neither fault ?_
    rw [faultsOf_ofUnit]
    exact List.mem_append_left _ (List.mem_append_right _ listed)

end OfUnit

end Registrar
