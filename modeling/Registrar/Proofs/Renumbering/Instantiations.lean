import Mathlib
import Registrar.Proofs.Instantiation.Names
import Registrar.Proofs.Renumbering.Visibility

/-!
Contract: instantiations in a graph under other numbers.

Owns: that the same instantiations are exposed under the same names, and that
their names clash in one graph where they do in the other.

Does not own: whether the instantiations are visible.
-/

set_option autoImplicit false

namespace Registrar

variable {number : Nat → Nat} {graph other : Graph} {visibility otherVisibility : Visibility}
  {configuration : Configuration}

namespace Instantiation

/-! ## One instantiation -/

/-- The instantiation under another number. -/
def renumber (number : Nat → Nat) (record : Instantiation) : Instantiation :=
  { record with node := number record.node, members := record.members.map number }

theorem ofNode?_renumber (renumbers : Graph.Renumbers number graph other)
    (same : Visibility.Renumbers number visibility otherVisibility) (node : Node) :
    ofNode? other otherVisibility (node.renumber number) =
      (ofNode? graph visibility node).map (renumber number) := by
  have sameName (key : InstantiationKey) :
      canonicalName other otherVisibility (node.renumber number) key =
        canonicalName graph visibility node key := by
    unfold canonicalName
    rw [Node.relocatedByAlias_renumber renumbers.injective, Node.renumber_id, same.exposedName,
      Node.renumber_template, renumbers.bind_node?_eq, Node.renumber_marking]
    cases node.template.bind graph.node? <;> rfl
  have sameRequests : requestsFor other (node.renumber number) = requestsFor graph node := by
    unfold requestsFor
    rw [Node.relocatedByAlias_renumber renumbers.injective,
      InstantiationRequest.byTemplate?_renumber renumbers]
    rfl
  have sameMembers : (node.children.map number).filter otherVisibility.isEmitted =
      (node.children.filter visibility.isEmitted).map number := by
    rw [List.filter_map]
    congr 2
    funext id
    exact same.emitted id
  unfold ofNode?
  rw [Node.renumber_kind, Option.map_map]
  congr 1
  funext use
  simp only [sameName, sameRequests, Node.renumber_children, sameMembers, Function.comp_apply]
  rfl

theorem inheritedFaults_renumber (renumbers : Graph.Renumbers number graph other)
    (node : Node) :
    inheritedFaults other (node.renumber number) = inheritedFaults graph node := by
  unfold inheritedFaults
  rw [Node.renumber_template, renumbers.bind_node?_eq, Node.renumber_kind]
  cases node.template.bind graph.node? with
  | none => rfl
  | some template => cases node.kind.signature? <;> rfl

/-! ## Names that clash -/

theorem nameSpace?_renumber (renumbers : Graph.Renumbers number graph other)
    (record : Instantiation) :
    nameSpace? other (record.renumber number) =
      (nameSpace? graph record).map fun place => (number place.1, place.2) := by
  have sameNode : (record.renumber number).node = number record.node := rfl
  have sameParent (parent : Option Nat) :
      (parent.map number).getD Graph.root = number (parent.getD Graph.root) := by
    cases parent with
    | none => exact renumbers.number_root.symm
    | some id => rfl
  unfold nameSpace?
  rw [sameNode, renumbers.node?_eq]
  cases graph.node? record.node with
  | none => rfl
  | some node =>
      cases kind : node.kind <;> simp [kind, sameParent] <;> rfl

theorem namedApart_renumber_iff (renumbers : Graph.Renumbers number graph other)
    {left right : Instantiation} :
    NamedApart other (left.renumber number) (right.renumber number) ↔
      NamedApart graph left right := by
  unfold NamedApart
  simp only [nameSpace?_renumber renumbers]
  constructor
  · intro apart place isLeft isRight
    exact apart (number place.1, place.2) (by rw [isLeft, Option.map_some])
      (by rw [isRight, Option.map_some])
  · intro apart place isLeft isRight
    obtain ⟨leftPlace, isLeftPlace, rfl⟩ := Option.map_eq_some_iff.mp isLeft
    obtain ⟨rightPlace, isRightPlace, samePlace⟩ := Option.map_eq_some_iff.mp isRight
    rw [Prod.mk.injEq] at samePlace
    have isSame : rightPlace = leftPlace :=
      Prod.ext (renumbers.injective samePlace.1) samePlace.2
    exact apart leftPlace isLeftPlace (isSame ▸ isRightPlace)

end Instantiation

namespace Instantiations

/-! ## All instantiations -/

variable {unit otherUnit : TranslationUnit}

theorem collect_perm (renumbers : Graph.Renumbers number graph other)
    (same : Visibility.Renumbers number visibility otherVisibility)
    (decided : visibility.Decided graph) (otherDecided : otherVisibility.Decided other) :
    (collect other otherVisibility).Perm
      ((collect graph visibility).map (Instantiation.renumber number)) := by
  have perm := (Visibility.emittedNodes_perm renumbers same decided otherDecided).filterMap
    (Instantiation.ofNode? other otherVisibility)
  rw [List.filterMap_map] at perm
  unfold collect
  rw [List.map_filterMap]
  have isSame : (graph.nodesOf visibility.emitted).filterMap
      (Instantiation.ofNode? other otherVisibility ∘ Node.renumber number) =
      (graph.nodesOf visibility.emitted).filterMap fun node =>
        (Instantiation.ofNode? graph visibility node).map (Instantiation.renumber number) :=
    List.filterMap_congr fun node _ => Instantiation.ofNode?_renumber renumbers same node
  rwa [isSame] at perm

theorem ownFaults_renumber (renumbers : Graph.Renumbers number graph other)
    (sameDeclarations : ∀ id, otherUnit.get? id = unit.get? id) (record : Instantiation) :
    ownFaults otherUnit other (record.renumber number) = ownFaults unit graph record := by
  have sameNode : (record.renumber number).node = number record.node := rfl
  unfold ownFaults
  rw [sameNode, renumbers.node?_eq]
  cases graph.node? record.node with
  | none => rfl
  | some node =>
      have isSame : otherUnit.get? = unit.get? := funext sameDeclarations
      have sameRepeated : Instantiation.repeatedFault? otherUnit (node.renumber number)
          (record.renumber number) = Instantiation.repeatedFault? unit node record := by
        unfold Instantiation.repeatedFault?
        rw [isSame]
        rfl
      simp only [Option.map_some]
      rw [sameRepeated, Instantiation.inheritedFaults_renumber renumbers]

/-- The record of a node is the record of the node under its other number. -/
theorem find?_collect_renumber (renumbers : Graph.Renumbers number graph other)
    (same : Visibility.Renumbers number visibility otherVisibility)
    (decided : visibility.Decided graph) (otherDecided : otherVisibility.Decided other) (id : Nat) :
    (collect other otherVisibility).find? (fun record => record.node == number id) =
      ((collect graph visibility).find? fun record => record.node == id).map
        (Instantiation.renumber number) := by
  have distinct := collect_nodup renumbers.wired decided
  refine find?_eq_map_find? ?_ ?_ ?_
  · intro record
    rw [(collect_perm renumbers same decided otherDecided).mem_iff, List.mem_map]
  · intro record _
    exact renumbers.injective.beq_eq
  · intro left leftListed right rightListed isLeft isRight
    rw [beq_iff_eq] at isLeft isRight
    exact List.inj_on_of_nodup_map distinct leftListed rightListed (isLeft.trans isRight.symm)

theorem rename_renumbers (renumbers : Graph.Renumbers number graph other) :
    Visibility.Renumbers number
      (rename ⟨collect graph (Visibility.ofGraph graph configuration)⟩
        (Visibility.ofGraph graph configuration))
      (rename ⟨collect other (Visibility.ofGraph other configuration)⟩
        (Visibility.ofGraph other configuration)) := by
  have same := @Visibility.ofGraph_renumbers number graph other configuration renumbers
  have decided := Visibility.ofGraph_decided graph configuration
  have otherDecided := Visibility.ofGraph_decided other configuration
  refine ⟨fun id => ?_, fun id => ?_, fun id => ?_⟩
  · rw [Visibility.isVisible_renameAll, Visibility.isVisible_renameAll]
    exact same.visible id
  · unfold Visibility.isEmitted
    rw [Visibility.emitted_renameAll, Visibility.emitted_renameAll]
    exact same.emitted id
  · have sameDecided : ((Visibility.ofGraph other configuration).decision? (number id)).isSome =
        ((Visibility.ofGraph graph configuration).decision? id).isSome := by
      rw [Visibility.decision?_ofGraph, Visibility.decision?_ofGraph, renumbers.node?_eq,
        Option.isSome_map, Option.isSome_map, Option.isSome_map]
    unfold rename
    rw [Visibility.exposedName_renameAll (collect_nodup renumbers.wired decided),
      Visibility.exposedName_renameAll (collect_nodup renumbers.otherWired otherDecided),
      find?_collect_renumber renumbers same decided otherDecided, sameDecided, same.exposedName]
    cases (collect graph (Visibility.ofGraph graph configuration)).find?
        fun record => record.node == id with
    | none => rfl
    | some record => rfl

/-- Where the instantiations of a graph can be named, so can those of the graph under
other numbers, and they have the same names. -/
theorem resolve_renumber (renumbers : Graph.Renumbers number graph other)
    (sameDeclarations : ∀ id, otherUnit.get? id = unit.get? id) {instantiations : Instantiations}
    (resolved : resolve unit graph (Visibility.ofGraph graph configuration) =
      .ok instantiations) :
    ∃ others, resolve otherUnit other (Visibility.ofGraph other configuration) = .ok others ∧
      Visibility.Renumbers number
        (instantiations.rename (Visibility.ofGraph graph configuration))
        (others.rename (Visibility.ofGraph other configuration)) := by
  have same := @Visibility.ofGraph_renumbers number graph other configuration renumbers
  have perm := collect_perm renumbers same (Visibility.ofGraph_decided graph configuration)
    (Visibility.ofGraph_decided other configuration)
  obtain ⟨records⟩ := instantiations
  obtain rfl : records = _ := records_of_resolve resolved
  obtain ⟨noOwnFaults, noCollisions⟩ := resolve_eq_ok_iff.mp resolved
  refine ⟨_, resolve_eq_ok_iff.mpr ⟨?_, ?_⟩, rename_renumbers renumbers⟩
  · rw [List.flatMap_eq_nil_iff] at noOwnFaults ⊢
    intro record listed
    obtain ⟨original, isOriginal, rfl⟩ := List.mem_map.mp (perm.mem_iff.mp listed)
    rw [ownFaults_renumber renumbers sameDeclarations]
    exact noOwnFaults original isOriginal
  · rw [Instantiation.collisionsFrom_eq_nil_iff] at noCollisions ⊢
    refine ⟨(perm.pairwise_iff fun apart => apart.symm).mpr ?_, by simp⟩
    rw [List.pairwise_map]
    exact noCollisions.1.imp fun apart =>
      (Instantiation.namedApart_renumber_iff renumbers).mpr apart

end Instantiations

end Registrar
