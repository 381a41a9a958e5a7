import Mathlib
import Registrar.Proofs.Graph.PreOrder
import Registrar.Proofs.Graph.Redeclarations
import Registrar.Proofs.References

/-!
Contract: when the graph of a unit is a tree.

Owns: what makes a graph a tree from the root down, that the nodes below the root of a
unit hang together in any case, and the exact condition on units for their graphs to be
trees.

Does not own: the walk through a tree.

Everything is below the root, so a root that is put below anything is put below
itself, and no walk through such a graph ends. An alias can do so. So can a
declaration with the key of the root, which makes one node with it: the node is
where the first of them stands, and is moved where any of them is to be exposed. A
root without a name shares its key with none, but nothing keeps roots from having
names.
-/

set_option autoImplicit false

namespace Registrar

/-! ## The root -/

section Root

variable {unit : TranslationUnit} {table : MarkingTable} {graph : Graph}

/-- No alias that exposes its target where the alias is leads to the root. -/
def NoAliasOfRoot (unit : TranslationUnit) (table : MarkingTable) : Prop :=
  ∀ entity ∈ Entity.ofUnit unit table, ∀ target, entity.kind = .typeAlias (some target) →
    entity.marking.exposeHere = some .here →
      Entity.resolveType (Entity.ofUnit unit table) target ≠ some 0

theorem NoAliasOfRoot.of_all (noAlias : (Entity.ofUnit unit table).all (fun entity =>
    entity.kind.target != .typeAlias) = true) : NoAliasOfRoot unit table := by
  intro entity member target isAlias
  have other := List.all_eq_true.mp noAlias entity member
  rw [isAlias] at other
  cases other

/-- The root comes first of all that is declared as the same, and is not to be
exposed elsewhere. -/
structure RootStays (unit : TranslationUnit) (table : MarkingTable) : Prop where
  leads : ∀ declaration ∈ unit.others, unit.root.Redeclares declaration →
    TranslationUnit.sourceOrder unit.root declaration = true
  unmoved : ∀ entity ∈ Entity.ofUnit unit table, entity.id = 0 → ∀ context,
    entity.marking.exposeHere ≠ some (.into context)

/-- The first declaration of the root's group is the root exactly if the root leads. -/
theorem Group.primary_eq_root_iff {group : Group}
    (isFirst : (Group.ofDeclarations unit.declarations)[0]? = some group) :
    group.primary = unit.root ↔ ∀ declaration ∈ unit.others, unit.root.Redeclares declaration →
      TranslationUnit.sourceOrder unit.root declaration = true := by
  have keyed := Group.ofDeclarations_keyed unit.declarations
  have member := List.mem_of_getElem? isFirst
  obtain ⟨first, rest, groups, isRoot, _, _⟩ := Group.ledBy_ofDeclarations unit
  rw [groups, List.getElem?_cons_zero, Option.some.injEq] at isFirst
  have rootListed : unit.root ∈ group.members := by
    rw [← isFirst, ← isRoot]
    exact Group.mem_members_first first
  constructor
  · intro isPrimary declaration isOther redeclares
    have grouped : declaration ∈ (Group.ofDeclarations unit.declarations).flatMap Group.members :=
      (Group.ofDeclarations_perm unit.declarations).mem_iff.mpr (List.mem_cons_of_mem _ isOther)
    rw [← isPrimary]
    exact Group.sourceOrder_primary
      ((keyed.mem_members_iff member rootListed grouped).mpr (.inr redeclares))
  · intro leads
    have listed := Group.mem_of_mem_ofDeclarations member group.primary_mem_members
    rcases List.mem_cons.mp listed with isPrimary | isOther
    · exact isPrimary
    · have together := (keyed.mem_members_iff member rootListed
        ((Group.ofDeclarations_perm unit.declarations).mem_iff.mpr listed)).mp
          group.primary_mem_members
      rcases together with isPrimary | redeclares
      · exact isPrimary.symm
      · have before := leads group.primary isOther redeclares
        have after := Group.sourceOrder_primary rootListed
        rw [TranslationUnit.sourceOrder_iff] at before after
        exact TranslationUnit.eq_of_id_eq listed List.mem_cons_self (by omega)

/-- The entity of the root, which is the first. -/
theorem Entity.exists_first (unit : TranslationUnit) (table : MarkingTable) :
    ∃ group entity, (Group.ofDeclarations unit.declarations)[0]? = some group ∧
      entity ∈ Entity.ofUnit unit table ∧ entity.id = 0 ∧
      entity = (Entity.ofGroup table (Group.ofDeclarations unit.declarations) 0 group).1 := by
  obtain ⟨first, rest, groups, _⟩ := Group.ledBy_ofDeclarations unit
  have isFirst : (Group.ofDeclarations unit.declarations)[0]? = some first := by
    rw [groups, List.getElem?_cons_zero]
  refine ⟨first, _, isFirst, List.mem_of_getElem? (i := 0) ?_, rfl, rfl⟩
  rw [Entity.getElem?_ofGroups, isFirst, Option.map_some]

/-- Nothing is around the root in the source exactly if the root leads. -/
theorem Entity.lexicalParent_eq_none_iff {group : Group}
    (isFirst : (Group.ofDeclarations unit.declarations)[0]? = some group) :
    (Entity.ofGroup table (Group.ofDeclarations unit.declarations) 0 group).1.lexicalParent =
        none ↔ ∀ declaration ∈ unit.others, unit.root.Redeclares declaration →
      TranslationUnit.sourceOrder unit.root declaration = true := by
  rw [← Group.primary_eq_root_iff isFirst]
  constructor
  · exact Entity.primary_eq_root_of_lexicalParent_eq_none isFirst
  · intro isRoot
    rw [Entity.lexicalParent_ofGroup, isRoot, unit.root_parent, Option.bind_none]

/-- Where the root stays and no alias leads to it, no entity asks for a move of it. -/
theorem Move.target_ne_root (noAlias : NoAliasOfRoot unit table) (stays : RootStays unit table)
    {entity : Entity} (member : entity ∈ Entity.ofUnit unit table) {move : Move}
    (asks : Move.requested (Entity.ofUnit unit table) entity = .ok (some move)) :
    move.target ≠ 0 := by
  intro isRoot
  rcases Move.requested_cases asks with
    ⟨spelling, target, here, isAlias, resolves, rfl⟩ | ⟨context, _, into, _, rfl⟩
  · change target = 0 at isRoot
    rw [isRoot] at resolves
    exact noAlias entity member spelling isAlias here resolves
  · exact stays.unmoved entity member isRoot context into

/-- What is above the root is what is above the first entity after all moves. -/
theorem Graph.parentLink_root (built : Graph.ofUnit unit table = .ok graph) {first : Entity}
    (member : first ∈ Entity.ofUnit unit table) (isFirst : first.id = 0) :
    graph.parentLink Graph.root =
      first.parentAfter (Move.ofEntities (Entity.ofUnit unit table)).1 := by
  have isNode := Graph.node?_of_entity built member
  rw [isFirst] at isNode
  exact Graph.parentLink_of_node? isNode

/-- Where nothing is above the root, whatever asks for a move of it moves it nowhere. -/
theorem Graph.parent_of_moved_root (built : Graph.ofUnit unit table = .ok graph)
    (outermost : graph.parentLink Graph.root = none) {entity : Entity}
    (member : entity ∈ Entity.ofUnit unit table) {move : Move}
    (asks : Move.requested (Entity.ofUnit unit table) entity = .ok (some move))
    (isRoot : move.target = 0) : move.parent = none := by
  obtain ⟨_, first, _, firstMember, firstId, _⟩ := Entity.exists_first unit table
  obtain ⟨asked, isAsked, made⟩ := Graph.exists_requested built member
  have found := made move (Except.ok.inj (isAsked.symm.trans asks))
  rw [isRoot, ← firstId] at found
  rw [Graph.parentLink_root built firstMember firstId, Entity.parentAfter, found] at outermost
  exact outermost

theorem Graph.noAliasOfRoot_of_outermost (built : Graph.ofUnit unit table = .ok graph)
    (outermost : graph.parentLink Graph.root = none) : NoAliasOfRoot unit table := by
  intro mover member target isAlias here isRoot
  have asks : Move.requested (Entity.ofUnit unit table) mover =
      .ok (some ⟨0, mover.lexicalParent, mover.id⟩) := by
    rw [Move.requested, here, Move.ofAlias?, isAlias]
    simp only [isRoot, Option.map_some]
  have outer : mover.lexicalParent = none :=
    Graph.parent_of_moved_root built outermost member asks rfl
  rcases Entity.kind_of_lexicalParent_eq_none member outer with isUnit | isClass <;>
    simp_all [DeclarationKind.target]

theorem Graph.rootStays_of_outermost (built : Graph.ofUnit unit table = .ok graph)
    (outermost : graph.parentLink Graph.root = none) : RootStays unit table where
  leads := by
    obtain ⟨_, first, isFirst, member, firstId, isEntity⟩ := Entity.exists_first unit table
    rw [Graph.parentLink_root built member firstId] at outermost
    have lexical := Entity.lexicalParent_eq_none_of_parentAfter outermost
    rw [isEntity] at lexical
    exact (Entity.lexicalParent_eq_none_iff isFirst).mp lexical
  unmoved := by
    intro entity member isZero context into
    obtain ⟨asked, asks, _⟩ := Graph.exists_requested built member
    have request := asks
    rw [Move.requested, into] at request
    dsimp only at request
    cases found : Move.destination? (Entity.ofUnit unit table) context with
    | none =>
        rw [found] at request
        cases request
    | some destination =>
        rw [found] at request
        rw [← Except.ok.inj request] at asks
        cases Graph.parent_of_moved_root built outermost member asks isZero

theorem Graph.outermost_of_rootStays (built : Graph.ofUnit unit table = .ok graph)
    (noAlias : NoAliasOfRoot unit table) (stays : RootStays unit table) :
    graph.parentLink Graph.root = none := by
  obtain ⟨_, first, isFirst, firstMember, firstId, isEntity⟩ := Entity.exists_first unit table
  rw [Graph.parentLink_root built firstMember firstId, Entity.parentAfter]
  cases found : Move.find? (Move.ofEntities (Entity.ofUnit unit table)).1 first.id with
  | none =>
      dsimp only
      rw [isEntity]
      exact (Entity.lexicalParent_eq_none_iff isFirst).mpr stays.leads
  | some move =>
      exfalso
      have isTarget : move.target = 0 := by
        have holds := List.find?_some found
        rw [beq_iff_eq] at holds
        rw [holds, firstId]
      rcases Move.mem_makeAll (List.mem_of_find?_eq_some found) with old | ⟨other, member, asks⟩
      · cases old
      · exact Move.target_ne_root noAlias stays member asks isTarget

/-- Nothing is above the root exactly if it leads and neither it nor an alias asks for
it to be moved. -/
theorem Graph.outermost_iff (built : Graph.ofUnit unit table = .ok graph) :
    graph.parentLink Graph.root = none ↔ NoAliasOfRoot unit table ∧ RootStays unit table := by
  constructor
  · intro outermost
    exact ⟨Graph.noAliasOfRoot_of_outermost built outermost,
      Graph.rootStays_of_outermost built outermost⟩
  · rintro ⟨noAlias, stays⟩
    exact Graph.outermost_of_rootStays built noAlias stays

end Root

/-! ## Roots without a name -/

namespace Marking

theorem place_exposeHere {marking placed : Marking} {placement : Placement}
    (isPlaced : marking.place placement = .ok placed) : placed.exposeHere = marking.exposeHere := by
  unfold place at isPlaced
  dsimp only at isPlaced
  split at isPlaced
  · rw [← Except.ok.inj isPlaced]
  · split at isPlaced
    · rw [← Except.ok.inj isPlaced]
    · cases isPlaced

/-- Only one directive says where something is exposed. -/
theorem add_exposeHere {marking extended : Marking} {target : Target} {directive : Directive}
    (added : marking.add target directive = .ok extended)
    (isOther : directive.kind ≠ .exposeHere) : extended.exposeHere = marking.exposeHere := by
  cases directive with
  | exposeHere context => exact absurd rfl isOther
  | early => exact place_exposeHere added
  | postamble => exact place_exposeHere added
  | before member => exact place_exposeHere added
  | after member => exact place_exposeHere added
  | _ => rw [← Except.ok.inj added]

/-- What a directive does not apply to is not exposed elsewhere. -/
theorem addAll_exposeHere {marking final : Marking} {target : Target}
    {directives : List Directive} (fixed : DirectiveKind.appliesTo .exposeHere target = false)
    (added : marking.addAll target directives = .ok final) :
    final.exposeHere = marking.exposeHere := by
  induction directives generalizing marking with
  | nil => rw [← Except.ok.inj added]
  | cons directive rest inductionHypothesis =>
      unfold addAll at added
      split at added
      · rename_i applies
        split at added
        · rename_i extended isAdded
          rw [inductionHypothesis added]
          refine add_exposeHere isAdded fun isRelocation => ?_
          rw [isRelocation, fixed] at applies
          cases applies
        · cases added
      · cases added

theorem ofPayloads_exposeHere {payloads : List Payload} {target : Target} {marking : Marking}
    (fixed : DirectiveKind.appliesTo .exposeHere target = false)
    (isMarking : ofPayloads payloads target = .ok marking) : marking.exposeHere = none := by
  unfold ofPayloads at isMarking
  split at isMarking
  · cases isMarking
  · unfold ofDirectives at isMarking
    split at isMarking
    · cases isMarking
    · rename_i final added
      split at isMarking
      · cases isMarking
      · rw [← Except.ok.inj isMarking, addAll_exposeHere fixed added]
        rfl

end Marking

/-- A root without a name stays where it is. -/
theorem RootStays.of_unnamed {unit : TranslationUnit} {table : MarkingTable}
    (marked : MarkingTable.ofUnit unit = .ok table) (unnamed : unit.root.qualifiedName = "") :
    RootStays unit table where
  leads := fun _ isOther redeclares =>
    absurd redeclares (TranslationUnit.not_redeclares_root unnamed isOther)
  unmoved := by
    intro entity member isZero context into
    have found := Entity.getElem?_id_of_mem member
    rw [isZero, Entity.getElem?_ofGroups, Option.map_eq_some_iff] at found
    obtain ⟨group, isGroup, rfl⟩ := found
    have isRoot := Group.eq_root_of_unnamed unnamed isGroup
    have isMarking := (MarkingTable.get_of_mem marked (List.mem_cons_self : unit.root ∈ _)).1
    rw [unit.root_kind] at isMarking
    have stays := Marking.ofPayloads_exposeHere (by decide) isMarking
    have alone : Group.inSourceOrder ⟨unit.root, []⟩ = [unit.root] := List.mergeSort_singleton _
    rw [isRoot] at into
    simp only [Entity.ofGroup, alone, List.headD_cons, List.tail_cons, Entity.mergeMarkings, stays]
      at into
    cases into

/-! ## Trees -/

namespace Graph

/-- All nodes but the root hang below others, and in the end below the root. -/
structure HangsTogether (graph : Graph) : Prop where
  /-- Every other node has a parent, which is a node. -/
  parent : ∀ node ∈ graph.nodes, node.id ≠ root →
    ∃ around ∈ graph.nodes, node.parent = some around.id
  /-- Steps from parent to parent lead to the root. -/
  reachesRoot : ∀ node ∈ graph.nodes, ∃ steps,
    ParentLinks.climb graph.parentLink steps node.id = some root
  /-- Every other node stands in one list of children, that of its parent, once. -/
  listedOnce : ∀ node ∈ graph.nodes, node.id ≠ root →
    (graph.nodes.flatMap Node.children).count node.id = 1 ∧
      ∃ around ∈ graph.nodes, node.parent = some around.id ∧ node.id ∈ around.children
  /-- The children of a node are nodes, in source order. -/
  childrenInOrder : ∀ node ∈ graph.nodes,
    (graph.childrenOf node).map (fun child => child.id) = node.children ∧
      (graph.childrenOf node).Pairwise fun left right =>
        Entity.sourceOrder left.toEntity right.toEntity = true

/-- A graph is a tree from the root down. -/
structure IsTree (graph : Graph) : Prop extends graph.HangsTogether where
  root_parent : ∃ top, graph.node? root = some top ∧ top.parent = none
  /-- The walk from the root meets every node once. -/
  walksAll : graph.preOrder.Perm graph.nodes ∧ (graph.preOrder.map fun node => node.id).Nodup
  /-- The walk meets every other node after its parent. -/
  walksDown : ∀ before node after, graph.preOrder = before ++ node :: after → node.id ≠ root →
    ∃ around ∈ before, node.parent = some around.id

variable {unit : TranslationUnit} {table : MarkingTable} {graph : Graph}

theorem childrenOf_sorted (built : ofUnit unit table = .ok graph) {node : Node}
    (member : node ∈ graph.nodes) :
    (graph.childrenOf node).Pairwise fun left right =>
      Entity.sourceOrder left.toEntity right.toEntity = true := by
  obtain ⟨entity, isEntity, rfl⟩ := exists_entity_of_mem built member
  let moves := (Move.ofEntities (Entity.ofUnit unit table)).1
  let below := ((Entity.ofUnit unit table).filter fun other =>
    other.parentAfter moves == some entity.id).mergeSort Entity.sourceOrder
  have areChildren : graph.childrenOf (entity.place (Entity.ofUnit unit table) moves) =
      below.map (Entity.place (Entity.ofUnit unit table) moves) := by
    change (below.map Entity.id).filterMap graph.node? = _
    rw [List.filterMap_map, ← List.filterMap_eq_map]
    refine List.filterMap_congr ?_
    intro other listed
    rw [List.mem_mergeSort, List.mem_filter] at listed
    exact node?_of_entity built listed.1
  rw [areChildren, List.pairwise_map]
  exact Entity.childrenAfter_sorted _ moves entity.id

/-- Whatever is above the root, the other nodes hang together. -/
theorem ofUnit_hangsTogether (built : ofUnit unit table = .ok graph) : graph.HangsTogether where
  parent := fun _ member below => (ofUnit_wired built).exists_parent member below
  reachesRoot := fun _ member => by
    obtain ⟨steps, _, reaches⟩ := (ofUnit_wired built).exists_climb_root member
    exact ⟨steps, reaches⟩
  listedOnce := by
    intro node member below
    have wired := ofUnit_wired built
    obtain ⟨around, aroundMember, isParent⟩ := wired.exists_parent member below
    have listed : node.id ∈ around.children :=
      (wired.mem_children aroundMember).mpr ⟨node, wired.node?_id member, isParent⟩
    refine ⟨List.count_eq_one_of_mem wired.children_disjoint ?_, around, aroundMember, isParent,
      listed⟩
    exact List.mem_flatMap.mpr ⟨around, aroundMember, listed⟩
  childrenInOrder := fun _ member =>
    ⟨(ofUnit_wired built).map_id_childrenOf member, childrenOf_sorted built member⟩

theorem IsTree.of_tree (tree : graph.Tree) (hangs : graph.HangsTogether) : graph.IsTree where
  toHangsTogether := hangs
  root_parent := by
    obtain ⟨top, isTop⟩ : ∃ top, graph.node? root = some top := node?_of_lt tree.nonempty
    exact ⟨top, isTop, tree.root_parent isTop⟩
  walksAll := by
    refine ⟨tree.preOrder_perm, ?_⟩
    exact (tree.preOrder_perm.map fun node : Node => node.id).nodup_iff.mpr tree.ids_nodup
  walksDown := fun _ _ _ split below => tree.parent_mem_before split below

theorem isTree_iff_outermost (built : ofUnit unit table = .ok graph) :
    graph.IsTree ↔ graph.parentLink root = none := by
  constructor
  · intro isTree
    obtain ⟨top, isTop, outermost⟩ := isTree.root_parent
    rw [parentLink_of_node? isTop, outermost]
  · intro outermost
    exact .of_tree ((ofUnit_wired built).tree_of_outermost outermost) (ofUnit_hangsTogether built)

theorem walkEnds_iff_outermost (built : ofUnit unit table = .ok graph) :
    graph.WalkEnds ↔ graph.parentLink root = none := by
  have wired := ofUnit_wired built
  obtain ⟨top, isTop⟩ : ∃ top, graph.node? root = some top := node?_of_lt wired.nonempty
  rw [wired.walkEnds_iff isTop, parentLink_of_node? isTop]

/-- The nodes below the root always hang together. The graph of a unit is a tree exactly
if no alias that exposes its target leads to the root and the root stays where it is. One
without a name does, as the third part says. Graphs that are no trees are those in which
going down has no end. -/
theorem ofUnit_isTree_iff (built : ofUnit unit table = .ok graph) :
    graph.HangsTogether ∧
      (graph.IsTree ↔ NoAliasOfRoot unit table ∧ RootStays unit table) ∧
      (MarkingTable.ofUnit unit = .ok table → unit.root.qualifiedName = "" →
        (graph.IsTree ↔ NoAliasOfRoot unit table)) ∧
      (graph.IsTree ↔ graph.WalkEnds) := by
  have isTree_iff : graph.IsTree ↔ NoAliasOfRoot unit table ∧ RootStays unit table :=
    (isTree_iff_outermost built).trans (outermost_iff built)
  refine ⟨ofUnit_hangsTogether built, isTree_iff, fun marked unnamed => ?_, ?_⟩
  · rw [isTree_iff, and_iff_left (RootStays.of_unnamed marked unnamed)]
  · rw [isTree_iff_outermost built, walkEnds_iff_outermost built]

/-- A class with the name of the root, which comes before it in the source. -/
def classBeforeRoot : TranslationUnit where
  root := { id := 0, kind := .translationUnit, qualifiedName := "A", order := 5 }
  others :=
    [ { id := 1, kind := .class [] none, name := "A", qualifiedName := "A", parent := some 0
        order := 1 } ]
  valid := by decide

/-- Without a name the root stays above a class. The class with its name shares its node,
which is then below itself, and there is no alias. -/
theorem classBeforeRoot_isNotTree :
    (∃ table graph, ofUnit Plan.nestedClass table = .ok graph ∧ graph.IsTree) ∧
      ∃ table graph, MarkingTable.ofUnit classBeforeRoot = .ok table ∧
        ofUnit classBeforeRoot table = .ok graph ∧ NoAliasOfRoot classBeforeRoot table ∧
          graph.parentLink root = some root ∧ ¬ graph.IsTree ∧ ¬ graph.WalkEnds := by
  constructor
  · have isBuilt : (withTable? Plan.nestedClass).any (fun (table, _) =>
        (Entity.ofUnit Plan.nestedClass table).all fun entity =>
          entity.kind.target != .typeAlias) = true := by decide +kernel
    obtain ⟨table, graph, marked, built, noAlias⟩ := exists_of_any isBuilt
    exact ⟨table, graph, built,
      ((ofUnit_isTree_iff built).2.2.1 marked rfl).mpr (.of_all noAlias)⟩
  · have isBuilt : (withTable? classBeforeRoot).any (fun (table, graph) =>
        ((Entity.ofUnit classBeforeRoot table).all fun entity =>
          entity.kind.target != .typeAlias) && graph.parentLink root == some root) = true := by
      cbv
    obtain ⟨table, graph, marked, built, holds⟩ := exists_of_any isBuilt
    rw [Bool.and_eq_true, beq_iff_eq] at holds
    obtain ⟨_, isTree_iff, _, isTree_iff_walkEnds⟩ := ofUnit_isTree_iff built
    have notTree : ¬ graph.IsTree := by
      intro isTree
      have leads := (isTree_iff.mp isTree).2.leads _ List.mem_cons_self
        ⟨"scope|A|", by decide, by decide⟩
      exact absurd leads (by decide)
    exact ⟨table, graph, marked, built, .of_all holds.1, holds.2, notTree,
      fun ends => notTree (isTree_iff_walkEnds.mpr ends)⟩

end Graph

end Registrar
