import Mathlib
import Registrar.Proofs.Graph.Redeclarations

/-!
Contract: how the declarations of a unit are shared out among the nodes of its graph.

Owns: that each declaration is in one node, the one that is found for it, that declarations
are together exactly if they have one key, what a node has from its declarations, and when
the first node is that of the root alone.

Does not own: the kind of a node, and what its annotations add up to.

The root has a key like any other declaration. A root without a name has it for itself, and
one with a name shares it with the scopes of that name.
-/

set_option autoImplicit false

namespace Registrar

/-! ## Repetitions -/

/-- What is appended is what is new of the others, each once. -/
theorem appendNew_eq {α : Type} [DecidableEq α] (items others : List α) :
    appendNew items others =
      items ++ (others.filter fun item => decide (item ∉ items)).eraseDups := by
  induction others generalizing items with
  | nil => simp [appendNew]
  | cons item rest inductionHypothesis =>
      rw [appendNew]
      by_cases isKnown : item ∈ items
      · rw [if_pos isKnown, inductionHypothesis, List.filter_cons_of_neg (by simpa using isKnown)]
      · rw [if_neg isKnown, inductionHypothesis, List.filter_cons_of_pos (by simpa using isKnown),
          List.eraseDups_cons, List.filter_filter, List.append_assoc, List.singleton_append]
        congr 3
        refine List.filter_congr fun other _ => ?_
        rw [Bool.eq_iff_iff]
        simp [and_comm]

/-! ## Numbers -/

/-- In a list numbered by place the number of what is found is the place where it is found. -/
theorem map_find?_eq_findIdx? {α : Type} {items : List α} {number : α → Nat} {test : α → Bool}
    (numbered : ∀ (index : Nat) (item : α), items[index]? = some item → number item = index) :
    (items.find? test).map number = items.findIdx? test := by
  cases found : items.findIdx? test with
  | none =>
      rw [List.findIdx?_eq_none_iff] at found
      rw [List.find?_eq_none.mpr (by simpa using found), Option.map_none]
  | some index =>
      obtain ⟨inside, passes, isFirst⟩ := List.findIdx?_eq_some_iff_getElem.mp found
      have isItem : items.find? test = some items[index] :=
        List.find?_eq_some_iff_getElem.mpr
          ⟨passes, index, inside, rfl, fun place before => by simpa using isFirst place before⟩
      rw [isItem, Option.map_some, numbered index _ (List.getElem?_eq_getElem inside)]

namespace Graph

variable {unit : TranslationUnit} {table : MarkingTable} {graph : Graph}

/-- A node is made of the group of its number. -/
theorem exists_group_of_node? (built : ofUnit unit table = .ok graph) {id : Nat} {node : Node}
    (found : graph.node? id = some node) :
    ∃ group, (Group.ofDeclarations unit.declarations)[id]? = some group ∧
      node = (Entity.ofGroup table (Group.ofDeclarations unit.declarations) id group).1.place
        (Entity.ofUnit unit table) (Move.ofEntities (Entity.ofUnit unit table)).1 := by
  obtain ⟨entity, isEntity, rfl⟩ := exists_entity_of_node? built found
  rw [Entity.getElem?_ofGroups, Option.map_eq_some_iff] at isEntity
  obtain ⟨group, isGroup, rfl⟩ := isEntity
  exact ⟨group, isGroup, rfl⟩

/-- The node of a declaration has the number of its group. -/
theorem nodeOf?_eq_indexOf? (built : ofUnit unit table = .ok graph) (id : Nat) :
    graph.nodeOf? id = Group.indexOf? (Group.ofDeclarations unit.declarations) id := by
  have inOrder (group : Group) : (group.inSourceOrder.map Declaration.id).contains id =
      group.members.any fun declaration => declaration.id == id := by
    rw [Bool.eq_iff_iff, List.contains_iff_mem, List.mem_map, List.any_eq_true]
    simp only [Group.mem_inSourceOrder, beq_iff_eq]
  unfold nodeOf? Group.indexOf?
  rw [map_find?_eq_findIdx? fun _ _ => (ofUnit_wired built).id_eq, (nodes_of_ofUnit built).1,
    List.findIdx?_map, Entity.ofUnit, Entity.ofGroups, List.findIdx?_map,
    List.mapIdx_eq_zipIdx_map, List.findIdx?_map]
  conv_rhs => rw [← List.zipIdx_map_fst 0 (Group.ofDeclarations unit.declarations)]
  rw [List.findIdx?_map]
  congr 1
  funext ⟨group, index⟩
  exact inOrder group

/-! ## What a node has from its declarations -/

/-- The node has what its declarations say, in source order, and the first of them says all
but its documentation. -/
structure MergesDeclarations (graph : Graph) (unit : TranslationUnit) (node : Node)
    (first : Declaration) (later : List Declaration) : Prop where
  declarations_eq : node.declarations = (first :: later).map Declaration.id
  listed : ∀ declaration ∈ first :: later, declaration ∈ unit.declarations
  sorted : (first :: later).Pairwise fun left right =>
    left.order < right.order ∨ left.order = right.order ∧ left.id < right.id
  order_eq : node.order = first.order
  location_eq : node.location = first.location
  name_eq : node.name = first.name
  qualifiedName_eq : node.qualifiedName = first.qualifiedName
  access_eq : node.access = first.access
  lexicalParent_eq : node.lexicalParent = first.parent.bind graph.nodeOf?
  docs_eq : node.docs = ((((first :: later).filterMap Declaration.doc).map Text.trim).filter
    fun doc => !doc.isEmpty).eraseDups

theorem mergeDocs_eq (declarations : List Declaration) :
    Entity.mergeDocs declarations =
      (((declarations.filterMap Declaration.doc).map Text.trim).filter
        fun doc => !doc.isEmpty).eraseDups := by
  rw [Entity.mergeDocs, appendNew_eq, List.nil_append, List.map_filterMap]
  simp

theorem exists_mergesDeclarations (built : ofUnit unit table = .ok graph) {node : Node}
    (member : node ∈ graph.nodes) :
    ∃ first later, graph.MergesDeclarations unit node first later := by
  obtain ⟨id, found⟩ := List.mem_iff_getElem?.mp member
  obtain ⟨group, isGroup, rfl⟩ := exists_group_of_node? built found
  have groupMember := List.mem_of_getElem? isGroup
  have isSplit := group.inSourceOrder_eq_cons
  refine ⟨group.primary, group.inSourceOrder.tail, ?_, ?_, ?_, rfl, rfl, rfl, rfl, rfl, ?_, ?_⟩
  · rw [← isSplit]
    rfl
  · intro declaration listed
    rw [← isSplit, Group.mem_inSourceOrder] at listed
    exact Group.mem_of_mem_ofDeclarations groupMember listed
  · rw [← isSplit]
    exact TranslationUnit.pairwise_before_of_sourceOrder group.inSourceOrder_pairwise
      (Group.inSourceOrder_ids_nodup groupMember)
  · change group.primary.parent.bind (Group.indexOf? _) = _
    exact congrArg _ (funext fun id => (nodeOf?_eq_indexOf? built id).symm)
  · rw [← isSplit]
    exact mergeDocs_eq group.inSourceOrder

/-! ## The partition -/

/-- Each declaration is in one node, the one that is found for it, with those of its key, and
each node has what its declarations say. -/
structure GroupsRedeclarations (graph : Graph) (unit : TranslationUnit) : Prop where
  existsUnique_node : ∀ declaration ∈ unit.declarations, ∃! node,
    node ∈ graph.nodes ∧ declaration.id ∈ node.declarations
  nodeOf?_eq : ∀ declaration ∈ unit.declarations, ∀ node ∈ graph.nodes,
    (declaration.id ∈ node.declarations ↔ graph.nodeOf? declaration.id = some node.id)
  together_iff : ∀ left ∈ unit.declarations, ∀ right ∈ unit.declarations, left ≠ right →
    (graph.nodeOf? left.id = graph.nodeOf? right.id ↔ left.Redeclares right)
  exists_merges : ∀ node ∈ graph.nodes, ∃ first later,
    graph.MergesDeclarations unit node first later

/-- The first node is that of the root alone. -/
structure PartitionsUnit (graph : Graph) (unit : TranslationUnit) : Prop
    extends graph.GroupsRedeclarations unit where
  root_alone : ∃ node, graph.node? root = some node ∧ node.declarations = [unit.root.id]

/-- A declaration is in a node exactly if the node is found for it. -/
theorem mem_declarations_iff (built : ofUnit unit table = .ok graph) {declaration : Declaration}
    (listed : declaration ∈ unit.declarations) {node : Node} (member : node ∈ graph.nodes) :
    declaration.id ∈ node.declarations ↔ graph.nodeOf? declaration.id = some node.id := by
  obtain ⟨number, found⟩ := Option.isSome_iff_exists.mp (nodeOf?_isSome built listed)
  obtain ⟨other, otherMember, isNumber, otherHas⟩ := exists_node_of_nodeOf? found
  obtain ⟨group, isGroup, hasDeclaration⟩ := exists_group_at built member
  obtain ⟨otherGroup, isOtherGroup, otherHasDeclaration⟩ := exists_group_at built otherMember
  rw [found, Option.some.injEq, ← isNumber, ← List.contains_iff_mem]
  constructor
  · intro has
    exact Group.index_eq_of_shared isOtherGroup isGroup
      ((otherHasDeclaration _ listed).mp otherHas) ((hasDeclaration _ listed).mp has)
  · intro sameId
    rwa [← (ofUnit_wired built).eq_of_id_eq otherMember member sameId]

theorem ofUnit_groupsRedeclarations (built : ofUnit unit table = .ok graph) :
    graph.GroupsRedeclarations unit where
  existsUnique_node := by
    intro declaration listed
    obtain ⟨number, found⟩ := Option.isSome_iff_exists.mp (nodeOf?_isSome built listed)
    obtain ⟨node, member, isNumber, has⟩ := exists_node_of_nodeOf? found
    refine ⟨node, ⟨member, List.contains_iff_mem.mp has⟩, ?_⟩
    rintro other ⟨otherMember, otherHas⟩
    rw [mem_declarations_iff built listed otherMember, found, Option.some.injEq] at otherHas
    exact (ofUnit_wired built).eq_of_id_eq otherMember member (otherHas.symm.trans isNumber.symm)
  nodeOf?_eq := fun _ listed _ member => mem_declarations_iff built listed member
  together_iff := by
    intro left leftListed right rightListed different
    rw [nodeOf?_eq_iff built leftListed rightListed]
    exact or_iff_right different
  exists_merges := fun _ member => exists_mergesDeclarations built member

/-- The root is in the first node. -/
theorem nodeOf?_root (built : ofUnit unit table = .ok graph) :
    graph.nodeOf? unit.root.id = some root := by
  have wired := ofUnit_wired built
  obtain ⟨node, found⟩ := node?_of_lt wired.nonempty
  have member := mem_nodes_of_node? found
  have isFirst : node.id = root := wired.id_eq found
  obtain ⟨group, isGroup, hasDeclaration⟩ := exists_group_at built member
  obtain ⟨first, rest, groups, isRoot, _⟩ := Group.ledBy_ofDeclarations unit
  rw [isFirst, root, groups, List.getElem?_cons_zero, Option.some.injEq] at isGroup
  have rootListed : unit.root ∈ unit.declarations := List.mem_cons_self
  rw [← isFirst, ← mem_declarations_iff built rootListed member, ← List.contains_iff_mem,
    hasDeclaration _ rootListed, ← isGroup, ← isRoot]
  exact first.mem_members_first

/-- The root is alone in its node exactly if no other declaration has its key. -/
theorem root_alone_iff (built : ofUnit unit table = .ok graph) :
    (∃ node, graph.node? root = some node ∧ node.declarations = [unit.root.id]) ↔
      ∀ declaration ∈ unit.others, ¬ unit.root.Redeclares declaration := by
  have wired := ofUnit_wired built
  have rootListed : unit.root ∈ unit.declarations := List.mem_cons_self
  have notOther : unit.root ∉ unit.others := fun isOther =>
    unit.target_of_mem_others isOther (by rw [unit.root_kind]; rfl)
  -- What is in the first node is the root or has its key.
  have inFirst {node : Node} (found : graph.node? root = some node) {declaration : Declaration}
      (listed : declaration ∈ unit.declarations) :
      declaration.id ∈ node.declarations ↔
        unit.root = declaration ∨ unit.root.Redeclares declaration := by
    rw [mem_declarations_iff built listed (mem_nodes_of_node? found), wired.id_eq found,
      ← nodeOf?_root built, ← nodeOf?_eq_iff built rootListed listed, eq_comm]
  constructor
  · rintro ⟨node, found, alone⟩ declaration isOther redeclares
    have listed : declaration ∈ unit.declarations := List.mem_cons_of_mem _ isOther
    have has := (inFirst found listed).mpr (.inr redeclares)
    rw [alone, List.mem_singleton] at has
    exact notOther (TranslationUnit.eq_of_id_eq listed rootListed has ▸ isOther)
  · intro noneRedeclares
    obtain ⟨node, found⟩ := node?_of_lt wired.nonempty
    have member := mem_nodes_of_node? found
    refine ⟨node, found, List.perm_singleton.mp ?_⟩
    rw [List.perm_ext_iff_of_nodup (declarations_nodup built member) (List.nodup_singleton _)]
    intro id
    rw [List.mem_singleton]
    constructor
    · intro has
      obtain ⟨first, later, merges⟩ := exists_mergesDeclarations built member
      have isDeclared := has
      rw [merges.declarations_eq, List.mem_map] at isDeclared
      obtain ⟨declaration, isMember, rfl⟩ := isDeclared
      have listed := merges.listed declaration isMember
      rcases (inFirst found listed).mp has with isRoot | redeclares
      · rw [isRoot]
      · rcases List.mem_cons.mp listed with isRoot | isOther
        · rw [isRoot]
        · exact absurd redeclares (noneRedeclares declaration isOther)
    · rintro rfl
      exact (inFirst found rootListed).mpr (.inl rfl)

/-- In the graph of a unit the declarations are grouped by their keys, whatever the root is.
The nodes partition them with the root in a node of its own exactly if no other declaration
has the key of the root, so for each unit with a root without a name. -/
theorem ofUnit_partitionsUnit_iff (built : ofUnit unit table = .ok graph) :
    graph.GroupsRedeclarations unit ∧
      (graph.PartitionsUnit unit ↔
        ∀ declaration ∈ unit.others, ¬ unit.root.Redeclares declaration) ∧
      (unit.root.qualifiedName = "" → graph.PartitionsUnit unit) := by
  have groups := ofUnit_groupsRedeclarations built
  have exact_iff : graph.PartitionsUnit unit ↔
      ∀ declaration ∈ unit.others, ¬ unit.root.Redeclares declaration := by
    rw [← root_alone_iff built]
    exact ⟨fun partitions => partitions.root_alone, fun alone => ⟨groups, alone⟩⟩
  exact ⟨groups, exact_iff, fun unnamed => exact_iff.mpr fun _ =>
    TranslationUnit.not_redeclares_root unnamed⟩

/-- A class with the name of the root. -/
def classNamedAsRoot : TranslationUnit where
  root := { id := 0, kind := .translationUnit, qualifiedName := "A", order := 0 }
  others :=
    [ { id := 1, kind := .class [] none, name := "A", qualifiedName := "A", parent := some 0
        order := 1 } ]
  valid := by decide

/-- The class has the key of the root, so it has no node of its own. -/
theorem classNamedAsRoot_isNotPartitioned :
    ∃ table graph, MarkingTable.ofUnit classNamedAsRoot = .ok table ∧
      ofUnit classNamedAsRoot table = .ok graph ∧ ¬ graph.PartitionsUnit classNamedAsRoot := by
  have isBuilt : (withTable? classNamedAsRoot).any (fun _ => true) = true := by cbv
  obtain ⟨table, graph, marked, built, _⟩ := exists_of_any isBuilt
  refine ⟨table, graph, marked, built, fun partitions => ?_⟩
  refine (ofUnit_partitionsUnit_iff built).2.1.mp partitions _ List.mem_cons_self ?_
  exact ⟨"scope|A|", by decide, by decide⟩

end Graph

end Registrar
