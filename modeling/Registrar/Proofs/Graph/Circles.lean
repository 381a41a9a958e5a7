import Mathlib
import Registrar.Proofs.Graph.Ancestors
import Registrar.Proofs.Graph.Rounds
import Registrar.Proofs.TopologicalOrder

/-!
Contract: what is told of the circles that links to parents form.

Owns: that each circle is told of once, with just the nodes that are on it, in source
order, and that nothing is told exactly if every way up comes to an end.

Does not own: which moves bring circles about.

A circle is a round of the relation of a node to the one around it. A way up that ends in a
circle is not part of it, and many ways may end in one.
-/

set_option autoImplicit false

namespace Registrar.Arena

/-- Nodes are numbered by place, parents are nodes, and nothing is around the first. -/
structure IsRooted (arena : Arena) : Prop where
  numbered : ∀ (index : Nat) (node : Node), arena[index]? = some node → node.id = index
  inside : ∀ node ∈ arena, ∀ parent, node.parent = some parent → parent < arena.length
  outermost : ∃ root, arena[0]? = some root ∧ root.parent = none

/-- The one node is directly below the other. -/
abbrev Below (arena : Arena) : Node → Node → Prop := Graph.Below ⟨arena⟩

/-- The nodes are those of a circle, in source order. -/
structure IsCircle (arena : Arena) (circle : List Node) : Prop where
  exists_round : ∃ round, circle.Perm round ∧ IsRound arena.Below round
  sorted : circle.Pairwise fun left right =>
    Entity.sourceOrder left.toEntity right.toEntity = true

/-- The fault names all nodes of the circle, and is told of the first of them. -/
def Tells (circle : List Node) (fault : Fault) : Prop :=
  ∃ first others, circle = first :: others ∧
    fault.cause = .cyclicDependency (circle.map fun node => node.displayName) ∧
    fault.declaration? = some first.displayName ∧ fault.location? = some first.location

/-- Each circle is told of once, and nothing else is. -/
structure TellsCircles (arena : Arena) : Prop where
  eachOnce : ∃ circles : List (List Node), circles.Nodup ∧
    (∀ circle, circle ∈ circles ↔ arena.IsCircle circle) ∧
      List.Forall₂ Tells circles arena.circleFaults
  existsUnique_isCircle : ∀ round, IsRound arena.Below round →
    ∃! circle, arena.IsCircle circle ∧ circle.Perm round
  onCircle_iff : ∀ node ∈ arena, (∃ circle, arena.IsCircle circle ∧ node ∈ circle) ↔
    Relation.TransGen arena.Below node node
  apart : ∀ left right, arena.IsCircle left → arena.IsCircle right → left ≠ right →
    left.Disjoint right
  silent_iff : arena.circleFaults = [] ↔ ∀ node ∈ arena, ∃ top,
    Relation.ReflTransGen arena.Below node top ∧ (top.id = Graph.root ∨ top.parent = none)

variable {arena : Arena} {node top : Node}

theorem rightUnique_below : Relator.RightUnique arena.Below := by
  intro node left right isLeft isRight
  exact Option.some.inj ((Graph.below_iff.mp isLeft).symm.trans (Graph.below_iff.mp isRight))

theorem mem_of_reflTransGen (member : node ∈ arena)
    (way : Relation.ReflTransGen arena.Below node top) : top ∈ arena := by
  rcases way.cases_tail with rfl | ⟨_, _, step⟩
  · exact member
  · exact Graph.mem_nodes_of_below step

theorem mem_of_mem_isCircle {circle : List Node} (isCircle : arena.IsCircle circle)
    (member : node ∈ circle) : node ∈ arena := by
  obtain ⟨round, same, isRound⟩ := isCircle.exists_round
  obtain ⟨below, _, step⟩ := Relation.TransGen.tail'_iff.mp
    (isRound.transGen_self (same.mem_iff.mp member))
  exact Graph.mem_nodes_of_below step

/-- Every node of a circle is above itself. -/
theorem transGen_of_mem_isCircle {circle : List Node} (isCircle : arena.IsCircle circle)
    (member : node ∈ circle) : Relation.TransGen arena.Below node node := by
  obtain ⟨round, same, isRound⟩ := isCircle.exists_round
  exact isRound.transGen_self (same.mem_iff.mp member)

theorem IsCircle.ne_nil {circle : List Node} (isCircle : arena.IsCircle circle) :
    circle ≠ [] := by
  obtain ⟨round, same, isRound⟩ := isCircle.exists_round
  obtain ⟨first, rest, rfl, _⟩ := isRound.closed
  rintro rfl
  cases List.nil_perm.mp same

/-- The circles that are told of, with their nodes. -/
def told (arena : Arena) : List (List Node) :=
  (arena.circles.map (Graph.nodesOf ⟨arena⟩)).filter fun circle => !circle.isEmpty

namespace IsRooted

variable (rooted : arena.IsRooted)

include rooted

theorem getElem?_id (member : node ∈ arena) : arena[node.id]? = some node :=
  getElem?_of_numbered rooted.numbered member

theorem id_lt (member : node ∈ arena) : node.id < arena.length :=
  (List.getElem?_eq_some_iff.mp (rooted.getElem?_id member)).1

theorem eq_of_id_eq {other : Node} (member : node ∈ arena) (otherMember : other ∈ arena)
    (same : node.id = other.id) : node = other := by
  have found := rooted.getElem?_id member
  rw [same, rooted.getElem?_id otherMember] at found
  exact (Option.some.inj found).symm

/-! ## Links -/

theorem parentOf_lt (id parent : Nat) (link : arena.parentOf id = some parent) :
    parent < arena.length := by
  obtain ⟨node, found, around⟩ := Option.bind_eq_some_iff.mp link
  exact rooted.inside node (List.mem_of_getElem? found) parent around

/-- The root needs no exception, since nothing is around it. -/
theorem above_eq (id : Nat) : ParentLinks.above arena.parentOf id = arena.parentOf id := by
  rw [ParentLinks.above]
  split
  · rename_i isRoot
    obtain ⟨root, found, outermost⟩ := rooted.outermost
    rw [isRoot, parentOf, found, Option.bind_some, outermost]
  · rfl

theorem above_id (member : node ∈ arena) :
    ParentLinks.above arena.parentOf node.id = node.parent := by
  rw [rooted.above_eq, parentOf, rooted.getElem?_id member, Option.bind_some]

theorem below_iff (member : node ∈ arena) (topMember : top ∈ arena) :
    arena.Below node top ↔ ParentLinks.above arena.parentOf node.id = some top.id := by
  rw [rooted.above_id member]
  constructor
  · rintro ⟨id, around, found⟩
    rw [around, rooted.numbered id top found]
  · exact fun around => ⟨top.id, around, rooted.getElem?_id topMember⟩

/-- Steps by number lead to the numbers that steps from node to node lead to. -/
theorem climb_id (steps : Nat) (member : node ∈ arena) :
    ParentLinks.climb arena.parentOf steps node.id =
      (Graph.ascend ⟨arena⟩ steps node).map fun top => top.id := by
  induction steps generalizing node with
  | zero => rfl
  | succ steps inductionHypothesis =>
      rw [ParentLinks.climb, Graph.ascend, rooted.above_id member]
      cases around : node.parent with
      | none => rfl
      | some parent =>
          have inside := rooted.inside node member parent around
          have found : arena[parent]? = some arena[parent] := List.getElem?_eq_getElem inside
          have onwards := inductionHypothesis (List.mem_of_getElem? found)
          rw [rooted.numbered parent _ found] at onwards
          rw [Option.bind_some, Option.bind_some, onwards, Graph.node?, found, Option.bind_some]

/-- There are fewer steps upwards than nodes exactly if the way comes to an end. -/
theorem climb_eq_none_iff (member : node ∈ arena) :
    ParentLinks.climb arena.parentOf arena.length node.id = none ↔
      ∃ top, Relation.ReflTransGen arena.Below node top ∧ top.parent = none := by
  rw [ParentLinks.climb_size_eq_none_iff rooted.parentOf_lt (rooted.id_lt member)]
  constructor
  · rintro ⟨steps, id, reaches, ends⟩
    rw [rooted.climb_id steps member, Option.map_eq_some_iff] at reaches
    obtain ⟨top, reaches, rfl⟩ := reaches
    rw [rooted.above_id (Graph.mem_nodes_of_ascend member reaches)] at ends
    exact ⟨top, Graph.reaches_iff_ascend.mpr ⟨steps, reaches⟩, ends⟩
  · rintro ⟨top, way, ends⟩
    obtain ⟨steps, reaches⟩ := Graph.reaches_iff_ascend.mp way
    refine ⟨steps, top.id, by rw [rooted.climb_id steps member, reaches, Option.map_some], ?_⟩
    rwa [rooted.above_id (Graph.mem_nodes_of_ascend member reaches)]

/-- The way up from a node that is above itself does not end. -/
theorem climb_isSome_of_transGen (member : node ∈ arena)
    (returns : Relation.TransGen arena.Below node node) :
    (ParentLinks.climb arena.parentOf arena.length node.id).isSome := by
  rw [← Option.ne_none_iff_isSome, ne_eq, rooted.climb_eq_none_iff member]
  rintro ⟨top, way, ends⟩
  have noStep (around : Node) : ¬ arena.Below top around := by
    rintro ⟨id, isParent, _⟩
    rw [ends] at isParent
    cases isParent
  rcases (reflTransGen_back rightUnique_below returns way).cases_head with rfl | ⟨next, step, _⟩
  · obtain ⟨next, step, _⟩ := Relation.TransGen.head'_iff.mp returns
    exact noStep next step
  · exact noStep next step

/-! ## Circles -/

/-- Circles with a common node are one. -/
theorem eq_of_mem_isCircle {left right : List Node} (isLeft : arena.IsCircle left)
    (isRight : arena.IsCircle right) (leftMember : node ∈ left) (rightMember : node ∈ right) :
    left = right := by
  obtain ⟨leftRound, leftSame, isLeftRound⟩ := isLeft.exists_round
  obtain ⟨rightRound, rightSame, isRightRound⟩ := isRight.exists_round
  have same : leftRound.Perm rightRound :=
    isLeftRound.perm_of_mem rightUnique_below isRightRound (leftSame.mem_iff.mp leftMember)
      (rightSame.mem_iff.mp rightMember)
  refine List.Perm.eq_of_pairwise ?_ isLeft.sorted isRight.sorted
    (leftSame.trans (same.trans rightSame.symm))
  intro one other isOne isOther forth back
  rw [Entity.sourceOrder_iff] at forth back
  exact rooted.eq_of_id_eq (mem_of_mem_isCircle isLeft isOne)
    (mem_of_mem_isCircle isRight isOther) (by omega)

/-- The nodes of a closed way by number form a round. -/
theorem isRound_nodesOf {first : Nat} {rest : List Nat} (inside : first < arena.length)
    (linked : (first :: rest ++ [first]).IsChain fun id around =>
      ParentLinks.above arena.parentOf id = some around) (notBefore : first ∉ rest) :
    ∃ top others, Graph.nodesOf ⟨arena⟩ (first :: rest) = top :: others ∧ top.id = first ∧
      IsRound arena.Below (top :: others) := by
  have later : ∀ id ∈ rest ++ [first], id < arena.length := by
    refine linked.cons_induction (fun id => id < arena.length) _ ?_ inside
    intro id around step _
    rw [rooted.above_eq] at step
    exact rooted.parentOf_lt id around step
  have sameIds : (Graph.nodesOf ⟨arena⟩ (first :: rest)).map (fun node => node.id) =
      first :: rest := by
    refine Graph.map_id_nodesOf_of_numbered rooted.numbered fun id listed => ?_
    rcases List.mem_cons.mp listed with rfl | isLater
    · exact inside
    · exact later id (List.mem_append_left _ isLater)
  have areNodes : ∀ node ∈ Graph.nodesOf ⟨arena⟩ (first :: rest), node ∈ arena := by
    intro node listed
    obtain ⟨_, _, found⟩ := Graph.mem_nodesOf.mp listed
    exact Graph.mem_nodes_of_node? found
  cases isNodes : Graph.nodesOf ⟨arena⟩ (first :: rest) with
  | nil =>
      rw [isNodes] at sameIds
      cases sameIds
  | cons top others =>
      rw [isNodes] at sameIds areNodes
      obtain ⟨rfl, rfl⟩ := List.cons.inj sameIds
      refine ⟨top, others, rfl, rfl, isRound_of_isChain rightUnique_below ?_ ?_⟩
      · have byId : ((top :: others ++ [top]).map fun node => node.id).IsChain fun id around =>
            ParentLinks.above arena.parentOf id = some around := by simpa using linked
        refine ((List.isChain_map _).mp byId).imp_of_mem_imp ?_
        intro node around listed aroundListed step
        have isNode {node : Node} (listed : node ∈ top :: others ++ [top]) : node ∈ arena :=
          areNodes node (by simpa [or_comm] using listed)
        exact (rooted.below_iff (isNode listed) (isNode aroundListed)).mpr step
      · exact fun again => notBefore (List.mem_map_of_mem again)

/-- A way up that does not end leads to a circle, which is found from its start. -/
theorem isCircle_circleAbove {start reached : Nat} (inside : start < arena.length)
    (reaches : ParentLinks.climb arena.parentOf arena.length start = some reached) :
    arena.IsCircle (arena.circleAbove start) ∧
      ∃ top ∈ arena.circleAbove start, top.id = reached := by
  obtain ⟨rest, isCircle, notBefore, linked⟩ :=
    ParentLinks.exists_circleAbove_eq_cons rooted.parentOf_lt inside reaches
  obtain ⟨top, others, areNodes, isReached, isRound⟩ := rooted.isRound_nodesOf
    (ParentLinks.climb_lt rooted.parentOf_lt inside reaches) linked notBefore
  have isFound : arena.circleAbove start = (top :: others).mergeSort fun left right =>
      Entity.sourceOrder left.toEntity right.toEntity := by
    rw [circleAbove, isCircle, ← areNodes]
    rfl
  rw [isFound]
  refine ⟨⟨⟨top :: others, List.mergeSort_perm _ _, isRound⟩, ?_⟩, top, ?_, isReached⟩
  · apply pairwise_mergeSort_of_numbers
    intro left right
    exact Entity.sourceOrder_iff
  · exact List.mem_mergeSort.mpr List.mem_cons_self

theorem circleAbove_eq_nil {start : Nat} (inside : start < arena.length)
    (ends : ParentLinks.climb arena.parentOf arena.length start = none) :
    arena.circleAbove start = [] := by
  rw [circleAbove, (ParentLinks.circleAbove_eq_nil_iff rooted.parentOf_lt inside).mpr ends,
    List.filterMap_nil, List.mergeSort_nil]

/-- A node that is above itself is on the circle that is found from it. What its way up
leads to leads back to it. -/
theorem mem_circleAbove_of_transGen (member : node ∈ arena)
    (returns : Relation.TransGen arena.Below node node) :
    arena.IsCircle (arena.circleAbove node.id) ∧ node ∈ arena.circleAbove node.id := by
  obtain ⟨reached, reaches⟩ :=
    Option.isSome_iff_exists.mp (rooted.climb_isSome_of_transGen member returns)
  obtain ⟨isCircle, top, isTop, isReached⟩ :=
    rooted.isCircle_circleAbove (rooted.id_lt member) reaches
  rw [rooted.climb_id arena.length member, Option.map_eq_some_iff] at reaches
  obtain ⟨last, reaches, isLast⟩ := reaches
  obtain rfl : last = top := rooted.eq_of_id_eq (Graph.mem_nodes_of_ascend member reaches)
    (mem_of_mem_isCircle isCircle isTop) (isLast.trans isReached.symm)
  obtain ⟨round, same, isRound⟩ := isCircle.exists_round
  refine ⟨isCircle, same.mem_iff.mpr ?_⟩
  rw [isRound.mem_iff rightUnique_below (same.mem_iff.mp isTop)]
  exact reflTransGen_back rightUnique_below returns (Graph.reaches_iff_ascend.mpr ⟨_, reaches⟩)

/-- The circle of a node is found from the node. -/
theorem circleAbove_of_mem {circle : List Node} (isCircle : arena.IsCircle circle)
    (member : node ∈ circle) : arena.circleAbove node.id = circle := by
  obtain ⟨isFound, isListed⟩ := rooted.mem_circleAbove_of_transGen
    (mem_of_mem_isCircle isCircle member) (transGen_of_mem_isCircle isCircle member)
  exact rooted.eq_of_mem_isCircle isFound isCircle isListed member

/-- The nodes of a round are those of one circle. -/
theorem existsUnique_isCircle {round : List Node} (isRound : IsRound arena.Below round) :
    ∃! circle, arena.IsCircle circle ∧ circle.Perm round := by
  obtain ⟨first, rest, isClosed, _⟩ := isRound.closed
  have member : first ∈ round := by
    rw [isClosed]
    exact List.mem_cons_self
  have returns := isRound.transGen_self member
  obtain ⟨last, _, step⟩ := Relation.TransGen.tail'_iff.mp returns
  obtain ⟨isCircle, onCircle⟩ :=
    rooted.mem_circleAbove_of_transGen (Graph.mem_nodes_of_below step) returns
  obtain ⟨other, same, isOther⟩ := isCircle.exists_round
  have isPerm := same.trans
    (isOther.perm_of_mem rightUnique_below isRound (same.mem_iff.mp onCircle) member)
  refine ⟨_, ⟨isCircle, isPerm⟩, ?_⟩
  rintro another ⟨isAnother, anotherPerm⟩
  exact rooted.eq_of_mem_isCircle isAnother isCircle (anotherPerm.mem_iff.mpr member) onCircle

/-! ## What is told -/

theorem nodesOf_map_id_circleAbove (start : Nat) :
    Graph.nodesOf ⟨arena⟩ ((arena.circleAbove start).map fun node => node.id) =
      arena.circleAbove start := by
  have inside : ∀ node ∈ arena.circleAbove start, node ∈ arena := by
    intro node listed
    rw [circleAbove, List.mem_mergeSort] at listed
    obtain ⟨_, _, found⟩ := List.mem_filterMap.mp listed
    exact List.mem_of_getElem? found
  unfold Graph.nodesOf
  rw [List.filterMap_map]
  conv_rhs => rw [← List.filterMap_some (l := arena.circleAbove start)]
  exact List.filterMap_congr fun node listed => rooted.getElem?_id (inside node listed)

/-- The circles that are told of are those found from some start. -/
theorem mem_told {circle : List Node} :
    circle ∈ arena.told ↔ (∃ start < arena.length, arena.circleAbove start = circle) ∧
      circle ≠ [] := by
  unfold told circles
  rw [List.mem_filter, List.mem_map]
  refine and_congr ?_ (by simp)
  constructor
  · rintro ⟨ids, listed, rfl⟩
    rw [List.mem_eraseDups, List.mem_map] at listed
    obtain ⟨start, inside, rfl⟩ := listed
    exact ⟨start, List.mem_range.mp inside, (rooted.nodesOf_map_id_circleAbove start).symm⟩
  · rintro ⟨start, inside, rfl⟩
    refine ⟨_, ?_, rooted.nodesOf_map_id_circleAbove start⟩
    rw [List.mem_eraseDups, List.mem_map]
    exact ⟨start, List.mem_range.mpr inside, rfl⟩

theorem mem_told_iff {circle : List Node} : circle ∈ arena.told ↔ arena.IsCircle circle := by
  rw [rooted.mem_told]
  constructor
  · rintro ⟨⟨start, inside, rfl⟩, nonempty⟩
    cases reaches : ParentLinks.climb arena.parentOf arena.length start with
    | none => exact absurd (rooted.circleAbove_eq_nil inside reaches) nonempty
    | some reached => exact (rooted.isCircle_circleAbove inside reaches).1
  · intro isCircle
    obtain ⟨node, member⟩ := List.exists_mem_of_ne_nil circle isCircle.ne_nil
    exact ⟨⟨node.id, rooted.id_lt (mem_of_mem_isCircle isCircle member),
      rooted.circleAbove_of_mem isCircle member⟩, isCircle.ne_nil⟩

theorem told_nodup : arena.told.Nodup := by
  have distinct : arena.circles.Nodup := TopologicalOrder.nodup_eraseDups _
  refine List.Nodup.filter _ (List.Nodup.map_on ?_ distinct)
  have sameIds {ids : List Nat} (listed : ids ∈ arena.circles) :
      (Graph.nodesOf ⟨arena⟩ ids).map (fun node => node.id) = ids := by
    rw [circles, List.mem_eraseDups, List.mem_map] at listed
    obtain ⟨start, _, rfl⟩ := listed
    rw [rooted.nodesOf_map_id_circleAbove start]
  intro left leftListed right rightListed same
  rw [← sameIds leftListed, same, sameIds rightListed]

/-- Nothing is told exactly if every way up comes to an end. -/
theorem told_eq_nil_iff :
    arena.told = [] ↔ ∀ node ∈ arena, ∃ top,
      Relation.ReflTransGen arena.Below node top ∧ top.parent = none := by
  rw [List.eq_nil_iff_forall_not_mem]
  constructor
  · intro noneTold node member
    rw [← rooted.climb_eq_none_iff member]
    by_contra reaches
    obtain ⟨reached, reaches⟩ := Option.ne_none_iff_exists'.mp reaches
    exact noneTold _
      (rooted.mem_told_iff.mpr (rooted.isCircle_circleAbove (rooted.id_lt member) reaches).1)
  · intro allEnd circle listed
    have isCircle := rooted.mem_told_iff.mp listed
    obtain ⟨node, member⟩ := List.exists_mem_of_ne_nil circle isCircle.ne_nil
    have isNode := mem_of_mem_isCircle isCircle member
    have goesOn :=
      rooted.climb_isSome_of_transGen isNode (transGen_of_mem_isCircle isCircle member)
    rw [(rooted.climb_eq_none_iff isNode).mpr (allEnd node isNode)] at goesOn
    cases goesOn

end IsRooted

theorem tells_of_circleFault? (circles : List (List Node)) :
    List.Forall₂ Tells (circles.filter fun circle => !circle.isEmpty)
      (circles.filterMap circleFault?) := by
  induction circles with
  | nil => exact .nil
  | cons circle rest inductionHypothesis =>
      cases circle with
      | nil => exact inductionHypothesis
      | cons first others => exact .cons ⟨first, others, rfl, rfl, rfl, rfl⟩ inductionHypothesis

/-- Each fault is told of a circle, in the order in which they are found. -/
theorem tells_told (arena : Arena) : List.Forall₂ Tells arena.told arena.circleFaults := by
  have tells := tells_of_circleFault? (arena.circles.map (Graph.nodesOf ⟨arena⟩))
  rwa [List.filterMap_map] at tells

/-- In an arena with nothing around its root each circle is told of once, with all that is on
it and nothing that only leads to it. -/
theorem circleFaults_tellsCircles (rooted : arena.IsRooted) : arena.TellsCircles := by
  have isRoot {top : Node} (member : top ∈ arena) :
      top.id = Graph.root ∨ top.parent = none ↔ top.parent = none := by
    refine or_iff_right_of_imp fun isFirst => ?_
    obtain ⟨root, found, outermost⟩ := rooted.outermost
    have isTop := rooted.getElem?_id member
    rw [isFirst, Graph.root, found, Option.some.injEq] at isTop
    rwa [← isTop]
  refine ⟨⟨arena.told, rooted.told_nodup, fun _ => rooted.mem_told_iff, tells_told arena⟩,
    ?_, ?_, ?_, ?_⟩
  · exact fun round isRound => rooted.existsUnique_isCircle isRound
  · intro node member
    constructor
    · rintro ⟨circle, isCircle, onCircle⟩
      exact transGen_of_mem_isCircle isCircle onCircle
    · exact fun returns => ⟨_, rooted.mem_circleAbove_of_transGen member returns⟩
  · intro left right isLeft isRight different node leftMember rightMember
    exact different (rooted.eq_of_mem_isCircle isLeft isRight leftMember rightMember)
  · rw [← List.length_eq_zero_iff, ← (tells_told arena).length_eq, List.length_eq_zero_iff,
      rooted.told_eq_nil_iff]
    refine forall₂_congr fun node member => exists_congr fun top => and_congr_right fun way => ?_
    exact (isRoot (mem_of_reflTransGen member way)).symm

/-- Namespaces with the given parents, each named by its number. -/
def namespacesBelow (parents : List (Option Nat)) : Arena :=
  parents.mapIdx fun id parent =>
    { id, parent
      kind := .namespace false
      name := toString id
      qualifiedName := toString id
      declarations := [id]
      order := id
      location := {}
      access := .public
      docs := []
      marking := {}
      lexicalParent := none
      explicitlyInstantiated := false
      children := []
      template := none
      relocatedBy := none
      relocates := none }

theorem namespacesBelow_isRooted {parents : List (Option Nat)}
    (inside : ∀ parent ∈ parents, ∀ id ∈ parent, id < parents.length)
    (outermost : parents[0]? = some none) : (namespacesBelow parents).IsRooted := by
  refine ⟨?_, ?_, ?_⟩
  · intro index node found
    rw [namespacesBelow, List.getElem?_mapIdx, Option.map_eq_some_iff] at found
    obtain ⟨_, _, rfl⟩ := found
    rfl
  · intro node member id around
    rw [namespacesBelow, List.mem_mapIdx] at member
    obtain ⟨index, isInside, rfl⟩ := member
    rw [namespacesBelow, List.length_mapIdx]
    exact inside _ (List.getElem_mem isInside) id around
  · rw [namespacesBelow, List.getElem?_mapIdx, outermost]
    exact ⟨_, rfl, rfl⟩

/-- Two namespaces are each below the other, and a third is below one of them, which is
not told of. -/
theorem namespacesBelow_tellsCircles :
    (namespacesBelow [none, some 2, some 1, some 1, some 0]).IsRooted ∧
      (namespacesBelow [none, some 2, some 1, some 1, some 0]).TellsCircles ∧
      (namespacesBelow [none, some 2, some 1, some 1, some 0]).circleFaults.map Fault.cause =
        [.cyclicDependency ["1", "2"]] := by
  have rooted : (namespacesBelow [none, some 2, some 1, some 1, some 0]).IsRooted :=
    namespacesBelow_isRooted (by decide) rfl
  exact ⟨rooted, circleFaults_tellsCircles rooted, by cbv⟩

end Registrar.Arena
