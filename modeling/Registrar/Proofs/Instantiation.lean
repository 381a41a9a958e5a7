import Mathlib
import Registrar.Proofs.Graph.Redeclarations
import Registrar.Proofs.Plan

/-!
Contract: when each instantiation of a template has one record.

Owns: which emitted nodes have a record of an instantiation, which declarations
share one, and the exact condition for records to follow the keys of the
instantiations.

Does not own: the names in the records.
-/

set_option autoImplicit false

namespace Registrar

variable {unit : TranslationUnit} {table : MarkingTable} {graph : Graph}
  {visibility : Visibility} {instantiations : Instantiations}

/-! ## Records -/

namespace Instantiation

theorem ofNode?_eq_some {node : Node} {record : Instantiation}
    (isRecord : ofNode? graph visibility node = some record) :
    record.node = node.id ∧ node.kind.template?.isSome = true := by
  obtain ⟨use, isUse, rfl⟩ := Option.map_eq_some_iff.mp isRecord
  exact ⟨rfl, by rw [isUse]; rfl⟩

theorem exists_ofNode? {node : Node} (instantiates : node.kind.template?.isSome = true) :
    ∃ record, ofNode? graph visibility node = some record ∧ record.node = node.id := by
  obtain ⟨use, isUse⟩ := Option.isSome_iff_exists.mp instantiates
  exact ⟨_, Option.map_eq_some_iff.mpr ⟨use, isUse, rfl⟩, rfl⟩

end Instantiation

namespace Instantiations

theorem records_of_resolve (resolved : resolve unit graph visibility = .ok instantiations) :
    instantiations.records = collect graph visibility := by
  unfold resolve at resolved
  dsimp only at resolved
  split at resolved
  · rw [← Except.ok.inj resolved]
  · cases resolved

/-- The nodes with a record are the emitted ones that instantiate a template. -/
theorem exists_record_iff (wired : graph.Wired) {id : Nat} :
    (∃ record ∈ collect graph visibility, record.node = id) ↔
      ∃ node ∈ graph.nodes, node.id = id ∧ visibility.isEmitted id = true ∧
        node.kind.template?.isSome = true := by
  constructor
  · rintro ⟨record, listed, isNode⟩
    obtain ⟨node, emitted, isRecord⟩ := List.mem_filterMap.mp listed
    obtain ⟨number, isEmitted, found⟩ := Graph.mem_nodesOf.mp emitted
    obtain ⟨sameNode, instantiates⟩ := Instantiation.ofNode?_eq_some isRecord
    have sameId : node.id = id := sameNode.symm.trans isNode
    refine ⟨node, Graph.mem_nodes_of_node? found, sameId, ?_, instantiates⟩
    rw [← sameId, wired.id_eq found]
    exact List.contains_iff_mem.mpr isEmitted
  · rintro ⟨node, member, rfl, isEmitted, instantiates⟩
    obtain ⟨record, isRecord, isNode⟩ := Instantiation.exists_ofNode? instantiates
    refine ⟨record, List.mem_filterMap.mpr ⟨node, ?_, isRecord⟩, isNode⟩
    exact Graph.mem_nodesOf.mpr ⟨node.id, List.contains_iff_mem.mp isEmitted, wired.node?_id member⟩

/-- No node has two records. -/
theorem collect_nodup_of_emitted_nodup (wired : graph.Wired) (distinct : visibility.emitted.Nodup) :
    ((collect graph visibility).map Instantiation.node).Nodup := by
  rw [collect, List.map_filterMap]
  refine Node.nodup_filterMap (distinct.sublist (wired.map_id_nodesOf_sublist _)) ?_
  intro left right id isLeft isRight
  obtain ⟨leftRecord, isLeftRecord, rfl⟩ := Option.map_eq_some_iff.mp isLeft
  obtain ⟨rightRecord, isRightRecord, sameNode⟩ := Option.map_eq_some_iff.mp isRight
  rw [← (Instantiation.ofNode?_eq_some isLeftRecord).1, ← sameNode,
    (Instantiation.ofNode?_eq_some isRightRecord).1]

theorem collect_nodup (wired : graph.Wired) (decided : visibility.Decided graph) :
    ((collect graph visibility).map Instantiation.node).Nodup :=
  collect_nodup_of_emitted_nodup wired (decided.emitted_nodup wired)

/-! ## Declarations that share a record -/

/-- The declaration is an instantiation with the key, and its node is emitted. -/
def Shows (graph : Graph) (visibility : Visibility) (declaration : Declaration)
    (key : InstantiationKey) : Prop :=
  (∃ use, declaration.kind.template? = some use ∧ InstantiationKey.ofUse use = key) ∧
    ∃ id, graph.nodeOf? declaration.id = some id ∧ visibility.isEmitted id = true

/-- One record is that of the nodes of both declarations. -/
def Share (graph : Graph) (instantiations : Instantiations) (left right : Declaration) : Prop :=
  ∃ record ∈ instantiations.records, graph.nodeOf? left.id = some record.node ∧
    graph.nodeOf? right.id = some record.node

/-- Every instantiation has one record: declarations share it if they have one key,
and no others do. -/
structure OnePerKey (unit : TranslationUnit) (graph : Graph) (visibility : Visibility)
    (instantiations : Instantiations) : Prop where
  distinct : (instantiations.records.map Instantiation.node).Nodup
  share_iff : ∀ left ∈ unit.declarations, ∀ right ∈ unit.declarations, ∀ leftKey rightKey,
    Shows graph visibility left leftKey → Shows graph visibility right rightKey →
      (Share graph instantiations left right ↔ leftKey = rightKey)

/-- Among the emitted instantiations, redeclarations are those with one key, and none
is merged into something that instantiates nothing. -/
structure KeysTellRedeclarations (unit : TranslationUnit) (graph : Graph)
    (visibility : Visibility) : Prop where
  kept : ∀ declaration ∈ unit.declarations, ∀ key, Shows graph visibility declaration key →
    ∀ node ∈ graph.nodes, graph.nodeOf? declaration.id = some node.id →
      node.kind.template?.isSome = true
  redeclares_iff : ∀ left ∈ unit.declarations, ∀ right ∈ unit.declarations,
    ∀ leftKey rightKey, Shows graph visibility left leftKey →
      Shows graph visibility right rightKey →
        (left = right ∨ left.Redeclares right ↔ leftKey = rightKey)

/-- Declarations share a record if they are one entity, which is emitted as an
instantiation. -/
theorem share_iff (built : Graph.ofUnit unit table = .ok graph)
    (resolved : resolve unit graph visibility = .ok instantiations) {left right : Declaration}
    (leftListed : left ∈ unit.declarations) (rightListed : right ∈ unit.declarations) :
    Share graph instantiations left right ↔ (left = right ∨ left.Redeclares right) ∧
      ∃ node ∈ graph.nodes, graph.nodeOf? left.id = some node.id ∧
        visibility.isEmitted node.id = true ∧ node.kind.template?.isSome = true := by
  have wired := Graph.ofUnit_wired built
  rw [← Graph.nodeOf?_eq_iff built leftListed rightListed, Share, records_of_resolve resolved]
  constructor
  · rintro ⟨record, listed, isLeft, isRight⟩
    obtain ⟨node, member, isNode, isEmitted, instantiates⟩ :=
      (exists_record_iff wired).mp ⟨record, listed, rfl⟩
    rw [← isNode] at isLeft isEmitted
    exact ⟨by rw [isLeft, isRight, isNode], node, member, isLeft, isEmitted, instantiates⟩
  · rintro ⟨sameNode, node, member, isLeft, isEmitted, instantiates⟩
    obtain ⟨record, listed, isNode⟩ :=
      (exists_record_iff wired).mpr ⟨node, member, rfl, isEmitted, instantiates⟩
    rw [← isNode] at isLeft
    exact ⟨record, listed, isLeft, sameNode ▸ isLeft⟩

/-- Each instantiation has one record exactly where the keys of instantiations tell
which declarations are merged. -/
theorem resolve_onePerKey_iff (built : Graph.ofUnit unit table = .ok graph)
    (decided : visibility.Decided graph)
    (resolved : resolve unit graph visibility = .ok instantiations) :
    OnePerKey unit graph visibility instantiations ↔
      KeysTellRedeclarations unit graph visibility := by
  have wired := Graph.ofUnit_wired built
  constructor
  · intro onePerKey
    have isShared {declaration : Declaration} (listed : declaration ∈ unit.declarations)
        {key : InstantiationKey} (isShown : Shows graph visibility declaration key) :=
      ((share_iff built resolved listed listed).mp
        ((onePerKey.share_iff declaration listed declaration listed key key isShown isShown).mpr
          rfl)).2
    refine ⟨?_, ?_⟩
    · intro declaration listed key isShown node member isNode
      obtain ⟨other, otherMember, isOther, _, instantiates⟩ := isShared listed isShown
      rw [isNode, Option.some.injEq] at isOther
      rwa [wired.eq_of_id_eq member otherMember isOther]
    · intro left leftListed right rightListed leftKey rightKey leftShows rightShows
      rw [← onePerKey.share_iff left leftListed right rightListed leftKey rightKey leftShows
        rightShows, share_iff built resolved leftListed rightListed,
        and_iff_left (isShared leftListed leftShows)]
  · intro keysTell
    refine ⟨?_, ?_⟩
    · rw [records_of_resolve resolved]
      exact collect_nodup wired decided
    · intro left leftListed right rightListed leftKey rightKey leftShows rightShows
      rw [share_iff built resolved leftListed rightListed,
        ← keysTell.redeclares_iff left leftListed right rightListed leftKey rightKey leftShows
          rightShows]
      refine and_iff_left ?_
      obtain ⟨id, isNode, isEmitted⟩ := leftShows.2
      obtain ⟨node, member, rfl, _⟩ := Graph.exists_node_of_nodeOf? isNode
      exact ⟨node, member, isNode, isEmitted,
        keysTell.kept left leftListed leftKey leftShows node member isNode⟩

/-! ## Two instantiations in one record -/

/-- Two instantiations of a function template that differ in no parameter. -/
def sameSignature : TranslationUnit where
  root := { id := 0, kind := .translationUnit, order := 0 }
  others :=
    [ { id := 1, kind := .function {} (some { template := "make", arguments := [.type "int"] })
        name := "make", qualifiedName := "make", parent := some 0, order := 1
        payloads := [.text "visible"] },
      { id := 2, kind := .function {} (some { template := "make", arguments := [.type "double"] })
        name := "make", qualifiedName := "make", parent := some 0, order := 2 } ]
  valid := by decide

/-- The graph of the two is made, and they are one node of it, which is emitted. -/
theorem exists_sameSignature :
    ∃ table graph instantiations, MarkingTable.ofUnit sameSignature = .ok table ∧
      Graph.ofUnit sameSignature table = .ok graph ∧
      resolve sameSignature graph (Visibility.ofGraph graph {}) = .ok instantiations ∧
      graph.nodeOf? 1 = some 1 ∧ graph.nodeOf? 2 = some 1 ∧
      (Visibility.ofGraph graph {}).isEmitted 1 = true := by
  have marked : MarkingTable.ofUnit sameSignature = .ok ⟨[(1, { visible := some true })]⟩ := by
    cbv
  have groups : Group.ofDeclarations sameSignature.declarations =
      [⟨sameSignature.root, []⟩, ⟨sameSignature.others[0], [sameSignature.others[1]]⟩] := rfl
  have rootOrder : Group.inSourceOrder ⟨sameSignature.root, []⟩ = [sameSignature.root] :=
    List.mergeSort_singleton _
  have bothOrder : Group.inSourceOrder ⟨sameSignature.others[0], [sameSignature.others[1]]⟩ =
      sameSignature.others := List.mergeSort_of_pairwise (by decide)
  have passed : (Graph.ofUnit sameSignature ⟨[(1, { visible := some true })]⟩).toOption.any
      (fun graph =>
        (resolve sameSignature graph (Visibility.ofGraph graph {})).toOption.any fun _ =>
          (graph.nodeOf? 1 == some 1 && graph.nodeOf? 2 == some 1 &&
            (Visibility.ofGraph graph {}).isEmitted 1)) = true := by
    -- Sorting does not reduce, so the rest is run on entities that are in order.
    simp only [Graph.ofUnit, groups, Entity.ofGroups, List.mapIdx_cons, List.mapIdx_nil,
      Entity.ofGroup, rootOrder, bothOrder]
    decide +kernel
  obtain ⟨graph, built, holds⟩ := exists_ok_of_any passed
  obtain ⟨instantiations, resolved, isBoth⟩ := exists_ok_of_any holds
  rw [Bool.and_eq_true, Bool.and_eq_true, beq_iff_eq, beq_iff_eq] at isBoth
  obtain ⟨⟨isFirst, isSecond⟩, isEmitted⟩ := isBoth
  exact ⟨_, graph, instantiations, marked, built, resolved, isFirst, isSecond, isEmitted⟩

theorem sameSignature_sharesRecord :
    ∃ table graph instantiations, Graph.ofUnit sameSignature table = .ok graph ∧
      (Visibility.ofGraph graph {}).Decided graph ∧
      resolve sameSignature graph (Visibility.ofGraph graph {}) = .ok instantiations ∧
      ¬ OnePerKey sameSignature graph (Visibility.ofGraph graph {}) instantiations := by
  obtain ⟨table, graph, instantiations, _, built, resolved, isFirst, isSecond, isEmitted⟩ :=
    exists_sameSignature
  have decided := Visibility.ofGraph_decided graph {}
  refine ⟨table, graph, instantiations, built, decided, resolved, ?_⟩
  rw [resolve_onePerKey_iff built decided resolved]
  intro keysTell
  have sameKey := (keysTell.redeclares_iff sameSignature.others[0] (by decide)
    sameSignature.others[1] (by decide) ⟨"make", ["int"]⟩ ⟨"make", ["double"]⟩
    ⟨⟨_, rfl, by decide +kernel⟩, 1, isFirst, isEmitted⟩
    ⟨⟨_, rfl, by decide +kernel⟩, 1, isSecond, isEmitted⟩).mp (.inr ⟨_, rfl, rfl⟩)
  exact absurd sameKey (by decide)

end Instantiations

end Registrar
