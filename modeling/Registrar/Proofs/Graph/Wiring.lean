import Mathlib
import Registrar.Proofs.Graph.Grouping
import Registrar.Proofs.Graph.ParentLinks

/-!
Contract: how the nodes of a graph hang together.

Owns: that whatever asks to be moved is moved, that nodes are numbered by place,
that parents and children are each other's inverse, that every node but the root
has a parent, and that every way up comes to the root.

Does not own: that nothing is above the root, which moves may bring about.
-/

set_option autoImplicit false

namespace Registrar

/-- A result that passes a test is there. -/
theorem exists_ok_of_any {ε α : Type} {result : Except ε α} {test : α → Bool}
    (passed : result.toOption.any test = true) :
    ∃ value, result = .ok value ∧ test value = true := by
  cases result with
  | error => cases passed
  | ok value => exact ⟨value, rfl, passed⟩

theorem exists_error_iff_not_ok {ε α : Type} {result : Except ε α} :
    (∃ failure, result = .error failure) ↔ ¬ ∃ value, result = .ok value := by
  cases result <;> simp

/-! ## Moves -/

namespace Move

/-- A move that is made was made before, or some entity asks for it. -/
theorem mem_makeAll {entities rest : List Entity} {moves : List Move} {move : Move}
    (made : move ∈ (makeAll entities moves rest).1) :
    move ∈ moves ∨ ∃ entity ∈ rest, requested entities entity = .ok (some move) := by
  induction rest generalizing moves with
  | nil => exact .inl made
  | cons entity rest inductionHypothesis =>
      have later {earlier : List Move} (made : move ∈ (makeAll entities earlier rest).1) :
          move ∈ earlier ∨ ∃ other ∈ entity :: rest, requested entities other = .ok (some move) :=
        (inductionHypothesis made).imp_right fun ⟨other, member, asks⟩ =>
          ⟨other, List.mem_cons_of_mem _ member, asks⟩
      rw [makeAll] at made
      cases request : requested entities entity with
      | error fault =>
          simp only [request] at made
          exact later made
      | ok request? =>
          cases request? with
          | none =>
              simp only [request] at made
              exact later made
          | some asked =>
              simp only [request] at made
              cases earlier : find? moves asked.target with
              | some first =>
                  simp only [earlier] at made
                  exact later made
              | none =>
                  simp only [earlier] at made
                  rcases later made with before | asks
                  · rcases List.mem_append.mp before with old | new
                    · exact .inl old
                    · rw [List.mem_singleton.mp new]
                      exact .inr ⟨entity, List.mem_cons_self, request⟩
                  · exact .inr asks

/-- An entity asks for a move of what it is an alias of, to where it is itself,
or for one of itself, into a context that is looked up. -/
theorem requested_cases {entities : List Entity} {entity : Entity} {move : Move}
    (asks : requested entities entity = .ok (some move)) :
    (∃ spelling target, entity.marking.exposeHere = some .here ∧
      entity.kind = .typeAlias (some spelling) ∧
      Entity.resolveType entities spelling = some target ∧
      move = ⟨target, entity.lexicalParent, entity.id⟩) ∨
    ∃ context destination, entity.marking.exposeHere = some (.into context) ∧
      destination? entities context = some destination ∧
      move = ⟨entity.id, some destination, entity.id⟩ := by
  rw [requested] at asks
  cases exposeHere : entity.marking.exposeHere with
  | none => simp [exposeHere] at asks
  | some relocation =>
      cases relocation with
      | here =>
          simp only [exposeHere, Except.ok.injEq] at asks
          rw [ofAlias?] at asks
          split at asks
          · rename_i spelling isAlias
            obtain ⟨target, resolves, rfl⟩ := Option.map_eq_some_iff.mp asks
            exact .inl ⟨spelling, target, rfl, isAlias, resolves, rfl⟩
          · cases asks
      | into context =>
          simp only [exposeHere] at asks
          cases found : destination? entities context with
          | none => simp [found] at asks
          | some destination =>
              simp only [found, Except.ok.injEq, Option.some.injEq] at asks
              exact .inr ⟨context, destination, rfl, found, asks.symm⟩

/-- A move leads to where the alias that asks for it is, or into a context that
is looked up. -/
theorem parent_of_requested {entities : List Entity} {entity : Entity} {move : Move}
    (asks : requested entities entity = .ok (some move)) :
    (move.parent = entity.lexicalParent ∧ entity.kind.target = .typeAlias) ∨
      ∃ context destination, Entity.lookup entities context = some destination ∧
        move.parent = some destination := by
  rcases requested_cases asks with
    ⟨spelling, target, _, isAlias, _, rfl⟩ | ⟨context, destination, _, found, rfl⟩
  · exact .inl ⟨rfl, by rw [isAlias]; rfl⟩
  · rw [destination?, Option.filter_eq_some_iff] at found
    exact .inr ⟨context, destination, found.1, rfl⟩

/-- Moves are only added. -/
theorem exists_makeAll_eq (entities : List Entity) (moves : List Move) (rest : List Entity) :
    ∃ more, (makeAll entities moves rest).1 = moves ++ more := by
  induction rest generalizing moves with
  | nil => exact ⟨[], by simp [makeAll]⟩
  | cons entity rest inductionHypothesis =>
      rw [makeAll]
      split
      · exact inductionHypothesis moves
      · exact inductionHypothesis moves
      · rename_i move _
        split
        · obtain ⟨more, isAll⟩ := inductionHypothesis (moves ++ [move])
          exact ⟨move :: more, by simpa using isAll⟩
        · exact inductionHypothesis moves

theorem find?_makeAll {entities : List Entity} {moves : List Move} {rest : List Entity} {id : Nat}
    {move : Move} (found : find? moves id = some move) :
    find? (makeAll entities moves rest).1 id = some move := by
  obtain ⟨more, isAll⟩ := exists_makeAll_eq entities moves rest
  rw [isAll, find?, List.find?_append]
  rw [find?] at found
  rw [found, Option.some_or]

/-- Without faults, whatever an entity asks for is made. -/
theorem exists_requested {entities : List Entity} {moves : List Move} {rest : List Entity}
    (noFaults : (makeAll entities moves rest).2 = []) {entity : Entity} (member : entity ∈ rest) :
    ∃ asked, requested entities entity = .ok asked ∧ ∀ move, asked = some move →
      find? (makeAll entities moves rest).1 move.target = some move := by
  induction rest generalizing moves with
  | nil => cases member
  | cons first rest inductionHypothesis =>
      rw [makeAll] at noFaults ⊢
      cases request : requested entities first with
      | error fault =>
          simp only [request] at noFaults
          cases noFaults
      | ok asked =>
          rcases List.mem_cons.mp member with rfl | later
          · refine ⟨asked, request, ?_⟩
            rintro move rfl
            simp only [request] at noFaults ⊢
            cases earlier : find? moves move.target with
            | some other =>
                simp only [earlier] at noFaults
                cases noFaults
            | none =>
                refine find?_makeAll ?_
                rw [find?] at earlier ⊢
                simp [earlier]
          · cases asked with
            | none =>
                simp only [request] at noFaults ⊢
                exact inductionHypothesis noFaults later
            | some other =>
                simp only [request] at noFaults ⊢
                cases earlier : find? moves other.target with
                | some first =>
                    simp only [earlier] at noFaults
                    cases noFaults
                | none =>
                    simp only [earlier] at noFaults ⊢
                    exact inductionHypothesis noFaults later

end Move

namespace Entity

/-- What a name is looked up to is the root or some entity. -/
theorem lookup_lt {entities : List Entity} {name : String} {id : Nat}
    (numbered : ∀ (index : Nat) (entity : Entity), entities[index]? = some entity →
      entity.id = index)
    (nonempty : 0 < entities.length) (found : lookup entities name = some id) :
    id < entities.length := by
  simp only [lookup] at found
  split at found
  · rwa [← Option.some.inj found]
  · obtain ⟨entity, isFound, rfl⟩ := Option.map_eq_some_iff.mp found
    obtain ⟨index, atIndex⟩ := List.mem_iff_getElem?.mp (List.mem_of_find?_eq_some isFound)
    rw [numbered index entity atIndex]
    exact (List.getElem?_eq_some_iff.mp atIndex).1

theorem mem_childrenAfter {entities : List Entity} {moves : List Move} {id child : Nat} :
    child ∈ childrenAfter entities moves id ↔
      ∃ entity ∈ entities, entity.id = child ∧ entity.parentAfter moves = some id := by
  rw [childrenAfter, List.mem_map]
  constructor
  · rintro ⟨entity, member, rfl⟩
    rw [List.mem_mergeSort, List.mem_filter, beq_iff_eq] at member
    exact ⟨entity, member.1, rfl, member.2⟩
  · rintro ⟨entity, member, rfl, below⟩
    refine ⟨entity, ?_, rfl⟩
    rw [List.mem_mergeSort, List.mem_filter, beq_iff_eq]
    exact ⟨member, below⟩

theorem childrenAfter_nodup {entities : List Entity} (distinct : (entities.map id).Nodup)
    (moves : List Move) (parent : Nat) : (childrenAfter entities moves parent).Nodup := by
  let below := entities.filter fun entity => entity.parentAfter moves == some parent
  have sorted : ((below.mergeSort sourceOrder).map id).Perm (below.map id) :=
    (List.mergeSort_perm below sourceOrder).map id
  refine sorted.nodup_iff.mpr (distinct.sublist ?_)
  exact List.filter_sublist.map id

theorem sourceOrder_iff {left right : Entity} :
    sourceOrder left right = true ↔
      left.order < right.order ∨ left.order = right.order ∧ left.id ≤ right.id := by
  simp [sourceOrder]

/-- The entities below another stand in source order. -/
theorem childrenAfter_sorted (entities : List Entity) (moves : List Move) (id : Nat) :
    ((entities.filter fun entity => entity.parentAfter moves == some id).mergeSort
      sourceOrder).Pairwise fun left right => sourceOrder left right = true := by
  apply pairwise_mergeSort_of_numbers
  intro left right
  exact sourceOrder_iff

section OfUnit

variable {unit : TranslationUnit} {table : MarkingTable}

/-- After the moves, whatever is around an entity is one of the entities. -/
theorem parentAfter_lt {entity : Entity} (member : entity ∈ ofUnit unit table) {parent : Nat}
    (around : entity.parentAfter (Move.ofEntities (ofUnit unit table)).1 = some parent) :
    parent < (ofUnit unit table).length := by
  have lexical {other : Entity} (listed : other ∈ ofUnit unit table)
      (around : other.lexicalParent = some parent) : parent < (ofUnit unit table).length := by
    rw [length_ofGroups]
    exact lexicalParent_lt listed around
  rw [parentAfter] at around
  split at around
  · rename_i move found
    rcases Move.mem_makeAll (List.mem_of_find?_eq_some found) with old | ⟨other, listed, asks⟩
    · simp at old
    · rcases Move.parent_of_requested asks with ⟨isLexical, _⟩ | ⟨_, _, isFound, leadsTo⟩
      · exact lexical listed (isLexical ▸ around)
      · rw [around, Option.some.injEq] at leadsTo
        rw [leadsTo]
        exact lookup_lt (fun _ _ => id_of_getElem?_ofGroups) ofUnit_length_pos isFound
  · exact lexical member around

/-- After the moves, something is around every entity but the first. An alias has
something around it, so what it moves has too. -/
theorem parentAfter_isSome {entity : Entity} (member : entity ∈ ofUnit unit table)
    (below : entity.id ≠ 0) :
    (entity.parentAfter (Move.ofEntities (ofUnit unit table)).1).isSome := by
  rw [parentAfter]
  split
  · rename_i move found
    rcases Move.mem_makeAll (List.mem_of_find?_eq_some found) with old | ⟨other, listed, asks⟩
    · simp at old
    · rcases Move.parent_of_requested asks with ⟨isLexical, isAlias⟩ | ⟨_, _, _, leadsTo⟩
      · rw [isLexical]
        by_contra outermost
        rw [Option.not_isSome_iff_eq_none] at outermost
        rcases kind_of_lexicalParent_eq_none listed outermost with isRoot | isClass <;>
          simp_all
      · rw [leadsTo]
        rfl
  · exact lexicalParent_isSome member below

/-- What has nothing around it after the moves had nothing before. -/
theorem lexicalParent_eq_none_of_parentAfter {entity : Entity}
    (outermost : entity.parentAfter (Move.ofEntities (ofUnit unit table)).1 = none) :
    entity.lexicalParent = none := by
  rw [parentAfter] at outermost
  split at outermost
  · rename_i move found
    rcases Move.mem_makeAll (List.mem_of_find?_eq_some found) with old | ⟨other, listed, asks⟩
    · simp at old
    · rcases Move.parent_of_requested asks with ⟨isLexical, isAlias⟩ | ⟨_, _, _, leadsTo⟩
      · rw [isLexical] at outermost
        rcases kind_of_lexicalParent_eq_none listed outermost with isRoot | isClass <;>
          simp_all
      · rw [leadsTo] at outermost
        cases outermost
  · exact outermost

end OfUnit

end Entity

/-! ## The graph -/

namespace Graph

/-- The parent of a node, by number. -/
def parentLink (graph : Graph) : Nat → Option Nat := Arena.parentOf graph.nodes

/-- Nodes are numbered by place, parents and children are each other's inverse,
every node but the root has a parent, and no way up goes round. -/
structure Wired (graph : Graph) : Prop where
  nonempty : 0 < graph.size
  id_eq : ∀ {index : Nat} {node : Node}, graph.node? index = some node → node.id = index
  parent_lt : ∀ {node : Node} {parent : Nat}, node ∈ graph.nodes → node.parent = some parent →
    parent < graph.size
  parent_isSome : ∀ {node : Node}, node ∈ graph.nodes → node.id ≠ root → node.parent.isSome
  mem_children : ∀ {node : Node} {child : Nat}, node ∈ graph.nodes →
    (child ∈ node.children ↔
      ∃ found, graph.node? child = some found ∧ found.parent = some node.id)
  children_nodup : ∀ {node : Node}, node ∈ graph.nodes → node.children.Nodup
  noCircle : ∀ {start : Nat}, start < graph.size →
    ParentLinks.circleAbove graph.parentLink graph.size start = []
  outermost : ∀ {node : Node}, node ∈ graph.nodes → node.parent = none →
    node.kind.target = .translationUnit ∨ node.kind.target = .class
  id_eq_root : ∀ {node : Node}, node ∈ graph.nodes → node.kind.target = .translationUnit →
    node.id = root
  template_eq_none : ∀ {node : Node}, node ∈ graph.nodes → node.kind.template? = none →
    node.template = none

theorem node?_lt {graph : Graph} {id : Nat} {node : Node} (found : graph.node? id = some node) :
    id < graph.size :=
  (List.getElem?_eq_some_iff.mp found).1

theorem mem_nodes_of_node? {graph : Graph} {id : Nat} {node : Node}
    (found : graph.node? id = some node) : node ∈ graph.nodes :=
  List.mem_of_getElem? found

theorem node?_of_lt {graph : Graph} {id : Nat} (inside : id < graph.size) :
    ∃ node, graph.node? id = some node :=
  ⟨_, List.getElem?_eq_getElem inside⟩

theorem parentLink_of_node? {graph : Graph} {id : Nat} {node : Node}
    (found : graph.node? id = some node) : graph.parentLink id = node.parent := by
  change (graph.node? id).bind Node.parent = node.parent
  rw [found, Option.bind_some]

theorem exists_node_of_parentLink {graph : Graph} {id parent : Nat}
    (link : graph.parentLink id = some parent) :
    ∃ node, graph.node? id = some node ∧ node.parent = some parent :=
  Option.bind_eq_some_iff.mp link

/-- A circle that is found begins with a node that has a parent. -/
theorem exists_parent_of_circleAbove {parentOf : Nat → Option Nat} {size start first : Nat}
    {others : List Nat} (circle : ParentLinks.circleAbove parentOf size start = first :: others) :
    (parentOf first).isSome := by
  rw [ParentLinks.circleAbove] at circle
  split at circle
  · cases circle
  · rename_i reached _
    by_cases returns : (ParentLinks.walk parentOf size reached).contains reached = true
    · simp only [returns, if_true, List.cons.injEq] at circle
      rw [← circle.1]
      obtain ⟨index, atIndex⟩ := List.mem_iff_getElem?.mp (List.contains_iff_mem.mp returns)
      rw [ParentLinks.getElem?_walk] at atIndex
      split at atIndex
      · rw [ParentLinks.climb, Option.bind_eq_some_iff] at atIndex
        obtain ⟨parent, step, _⟩ := atIndex
        rw [ParentLinks.above] at step
        split at step
        · cases step
        · rw [step]
          rfl
      · cases atIndex
    · simp only [returns] at circle
      cases circle

/-- Where there are no faults, no node is on a circle. -/
theorem circleAbove_eq_nil {arena : Arena}
    (numbered : ∀ (index : Nat) (node : Node), arena[index]? = some node → node.id = index)
    (noFaults : arena.circleFaults = []) {start : Nat} (inside : start < arena.length) :
    ParentLinks.circleAbove arena.parentOf arena.length start = [] := by
  cases circle : ParentLinks.circleAbove arena.parentOf arena.length start with
  | nil => rfl
  | cons first others =>
      obtain ⟨parent, link⟩ := Option.isSome_iff_exists.mp (exists_parent_of_circleAbove circle)
      obtain ⟨node, isNode, _⟩ := Option.bind_eq_some_iff.mp link
      have onCircle : node ∈ arena.circleAbove start := by
        rw [Arena.circleAbove, List.mem_mergeSort, circle]
        exact List.mem_filterMap.mpr ⟨first, List.mem_cons_self, isNode⟩
      let ids := (arena.circleAbove start).map fun node => node.id
      have listed : ids ∈ arena.circles := by
        rw [Arena.circles, List.mem_eraseDups, List.mem_map]
        exact ⟨start, List.mem_range.mpr inside, rfl⟩
      -- The circle has a node, which is found again by its number and named in a fault.
      have again : node ∈ ids.filterMap fun id => arena[id]? := by
        refine List.mem_filterMap.mpr ⟨node.id, List.mem_map_of_mem onCircle, ?_⟩
        rwa [numbered first node isNode]
      rw [Arena.circleFaults, List.filterMap_eq_nil_iff] at noFaults
      have noFault := noFaults ids listed
      cases nodes : ids.filterMap fun id => arena[id]? with
      | nil => simp [nodes] at again
      | cons one more => simp [nodes, Arena.circleFault?] at noFault

section OfUnit

variable {unit : TranslationUnit} {table : MarkingTable} {graph : Graph}

/-- The nodes of a graph are the entities of the unit in their places, and their
parent links hold no circle. -/
theorem nodes_of_ofUnit (built : ofUnit unit table = .ok graph) :
    graph.nodes =
        (Entity.ofUnit unit table).map (Entity.place (Entity.ofUnit unit table)
          (Move.ofEntities (Entity.ofUnit unit table)).1) ∧
      Arena.circleFaults graph.nodes = [] ∧
      (Entity.ofGroups table (Group.ofDeclarations unit.declarations)).2 = [] := by
  simp only [ofUnit] at built
  split at built
  · rename_i noFaults
    rw [List.isEmpty_iff, List.append_eq_nil_iff, List.append_eq_nil_iff] at noFaults
    obtain ⟨⟨noConflicts, _⟩, noCircles⟩ := noFaults
    rw [← Except.ok.inj built]
    exact ⟨rfl, noCircles, noConflicts⟩
  · cases built

/-- The annotations and the graph of a unit, if both are without faults. -/
def withTable? (unit : TranslationUnit) : Option (MarkingTable × Graph) :=
  (MarkingTable.ofUnit unit).toOption.bind fun table =>
    (ofUnit unit table).toOption.map fun graph => (table, graph)

theorem exists_of_any {test : MarkingTable × Graph → Bool}
    (passed : (withTable? unit).any test = true) :
    ∃ table graph, MarkingTable.ofUnit unit = .ok table ∧ ofUnit unit table = .ok graph ∧
      test (table, graph) = true := by
  rw [withTable?, Option.any_bind] at passed
  obtain ⟨table, marked, inTable⟩ := exists_ok_of_any passed
  rw [Function.comp_apply, Option.any_map] at inTable
  obtain ⟨graph, built, holds⟩ := exists_ok_of_any inTable
  exact ⟨table, graph, marked, built, holds⟩

/-- The nodes are the entities of the unit in their places. -/
theorem entities_of_ofUnit (built : ofUnit unit table = .ok graph) :
    graph.entities = Entity.ofUnit unit table := by
  unfold entities
  rw [(nodes_of_ofUnit built).1, List.map_map]
  exact List.map_id _

/-- A node is an entity in its place. -/
theorem exists_entity_of_node? (built : ofUnit unit table = .ok graph) {id : Nat} {node : Node}
    (found : graph.node? id = some node) :
    ∃ entity, (Entity.ofUnit unit table)[id]? = some entity ∧
      node = entity.place (Entity.ofUnit unit table)
        (Move.ofEntities (Entity.ofUnit unit table)).1 := by
  rw [node?, (nodes_of_ofUnit built).1, List.getElem?_map, Option.map_eq_some_iff] at found
  obtain ⟨entity, isEntity, isPlaced⟩ := found
  exact ⟨entity, isEntity, isPlaced.symm⟩

theorem exists_entity_of_mem (built : ofUnit unit table = .ok graph) {node : Node}
    (member : node ∈ graph.nodes) :
    ∃ entity ∈ Entity.ofUnit unit table,
      node = entity.place (Entity.ofUnit unit table)
        (Move.ofEntities (Entity.ofUnit unit table)).1 := by
  rw [(nodes_of_ofUnit built).1, List.mem_map] at member
  obtain ⟨entity, isEntity, isPlaced⟩ := member
  exact ⟨entity, isEntity, isPlaced.symm⟩

/-- An entity in its place is found by its number. -/
theorem node?_of_entity (built : ofUnit unit table = .ok graph) {entity : Entity}
    (member : entity ∈ Entity.ofUnit unit table) :
    graph.node? entity.id =
      some (entity.place (Entity.ofUnit unit table)
        (Move.ofEntities (Entity.ofUnit unit table)).1) := by
  rw [node?, (nodes_of_ofUnit built).1, List.getElem?_map, Entity.getElem?_id_of_mem member]
  rfl

/-- The graph of a unit is wired. -/
theorem ofUnit_wired (built : ofUnit unit table = .ok graph) : graph.Wired := by
  have size : graph.size = (Entity.ofUnit unit table).length := by
    rw [Graph.size, (nodes_of_ofUnit built).1, List.length_map]
  have numbered : ∀ {index : Nat} {node : Node}, graph.node? index = some node →
      node.id = index := by
    intro index node found
    obtain ⟨entity, isEntity, rfl⟩ := exists_entity_of_node? built found
    exact Entity.id_of_getElem?_ofGroups isEntity
  have distinct : ((Entity.ofUnit unit table).map Entity.id).Nodup := by
    rw [Entity.map_id_ofGroups]
    exact List.nodup_range
  exact {
    nonempty := by
      rw [size]
      exact Entity.ofUnit_length_pos
    id_eq := numbered
    parent_lt := by
      intro node parent member around
      obtain ⟨entity, isEntity, rfl⟩ := exists_entity_of_mem built member
      rw [size]
      exact Entity.parentAfter_lt isEntity around
    parent_isSome := by
      intro node member below
      obtain ⟨entity, isEntity, rfl⟩ := exists_entity_of_mem built member
      exact Entity.parentAfter_isSome isEntity below
    mem_children := by
      intro node child member
      obtain ⟨entity, isEntity, rfl⟩ := exists_entity_of_mem built member
      rw [Entity.place, Entity.mem_childrenAfter]
      constructor
      · rintro ⟨other, isOther, rfl, below⟩
        exact ⟨_, node?_of_entity built isOther, below⟩
      · rintro ⟨found, isFound, below⟩
        obtain ⟨other, isOther, rfl⟩ := exists_entity_of_node? built isFound
        exact ⟨other, List.mem_of_getElem? isOther, numbered isFound, below⟩
    children_nodup := by
      intro node member
      obtain ⟨entity, isEntity, rfl⟩ := exists_entity_of_mem built member
      exact Entity.childrenAfter_nodup distinct _ _
    noCircle := by
      intro start inside
      exact circleAbove_eq_nil (fun _ _ => numbered) (nodes_of_ofUnit built).2.1 inside
    outermost := by
      intro node member noParent
      obtain ⟨entity, isEntity, rfl⟩ := exists_entity_of_mem built member
      exact Entity.kind_of_lexicalParent_eq_none isEntity
        (Entity.lexicalParent_eq_none_of_parentAfter noParent)
    id_eq_root := by
      intro node member isRoot
      obtain ⟨entity, isEntity, rfl⟩ := exists_entity_of_mem built member
      exact Entity.id_eq_zero_of_target isEntity isRoot
    template_eq_none := by
      intro node member noUse
      obtain ⟨entity, isEntity, rfl⟩ := exists_entity_of_mem built member
      change Entity.templateIn? _ entity = none
      change entity.kind.template? = none at noUse
      rw [Entity.templateIn?, noUse]
      rfl }

theorem moveFaults_of_ofUnit (built : ofUnit unit table = .ok graph) :
    (Move.ofEntities (Entity.ofUnit unit table)).2 = [] := by
  simp only [ofUnit] at built
  split at built
  · rename_i noFaults
    rw [List.isEmpty_iff, List.append_eq_nil_iff, List.append_eq_nil_iff] at noFaults
    exact noFaults.1.2
  · cases built

/-- No move of a graph without faults is left out. -/
theorem exists_requested (built : ofUnit unit table = .ok graph) {entity : Entity}
    (member : entity ∈ Entity.ofUnit unit table) :
    ∃ asked, Move.requested (Entity.ofUnit unit table) entity = .ok asked ∧
      ∀ move, asked = some move →
        Move.find? (Move.ofEntities (Entity.ofUnit unit table)).1 move.target = some move :=
  Move.exists_requested (moveFaults_of_ofUnit built) member

end OfUnit

end Graph

end Registrar
