import Mathlib
import Registrar.Operator.Table
import Registrar.Proofs.Graph.Tree

/-!
Contract: what the table of operators can be relied on for.

Owns: that a node has one entry at most, and that a free operator is attached to
an emitted class.

Does not own: which slot an operator has.
-/

set_option autoImplicit false

namespace Registrar.OperatorTable

variable {graph : Graph} {visibility : Visibility} {inheritance : Inheritance}

/-! ## Entries -/

/-- A node with an entry is an operator or a conversion that can be called and
has no name of its own. -/
structure Assigned (node : Node) (entry : OperatorEntry) : Prop where
  node_eq : entry.node = node.id
  unnamed : node.marking.exposeAs = none
  callable : ∃ signature, node.kind.signature? = some signature ∧ signature.isDeleted = false
  target : node.kind.target = .operator ∨ node.kind.target = .conversionFunction
  free : ∀ owner, entry.owner = some owner → node.kind.target = .operator

theorem assigned_of_assigned? {node : Node} {entry : OperatorEntry}
    (found : assigned? graph visibility node = some entry) : Assigned node entry := by
  unfold assigned? at found
  split at found
  · cases found
  · rename_i unnamed
    rw [Option.not_isSome_iff_eq_none] at unnamed
    cases kind : node.kind with
    | operator symbol signature isMember =>
        simp only [kind] at found
        split at found
        · cases found
        · rename_i callable
          rw [Bool.not_eq_true] at callable
          have nodeEq : entry.node = node.id := by
            split at found
            · obtain ⟨slot, _, rfl⟩ := Option.map_eq_some_iff.mp found
              rfl
            · simp only [assignedFree?, Option.bind_eq_bind, Option.pure_def,
                Option.bind_eq_some_iff, Option.some.injEq] at found
              obtain ⟨_, _, _, _, rfl⟩ := found
              rfl
          exact {
            node_eq := nodeEq
            unnamed
            callable := ⟨signature, by rw [kind]; rfl, callable⟩
            target := .inl (by rw [kind]; rfl)
            free := fun _ _ => by rw [kind]; rfl }
    | conversionFunction signature =>
        simp only [kind] at found
        split at found
        · cases found
        · rename_i callable
          rw [Bool.not_eq_true] at callable
          obtain ⟨slot, _, rfl⟩ := Option.map_eq_some_iff.mp found
          exact {
            node_eq := rfl
            unnamed
            callable := ⟨signature, by rw [kind]; rfl, callable⟩
            target := .inr (by rw [kind]; rfl)
            free := fun _ isOwner => by cases isOwner }
    | _ => simp [kind] at found

/-- The class that a free operator is attached to is emitted. -/
theorem owner_of_firstOperand? {operator : Node} {types : List String}
    {position place owner : Nat}
    (found : firstOperand? graph visibility operator position types = some (place, owner)) :
    visibility.isEmitted owner = true ∧
      ∃ node, graph.node? owner = some node ∧ node.kind.target = .class := by
  induction types generalizing position with
  | nil => cases found
  | cons type rest inductionHypothesis =>
      unfold firstOperand? at found
      split at found
      · rename_i id isClass
        rw [Option.some.injEq, Prod.mk.injEq] at found
        rw [← found.2]
        have emittedClass := List.find?_some isClass
        split at emittedClass
        · rename_i node isNode
          rw [Bool.and_eq_true, beq_iff_eq] at emittedClass
          exact ⟨emittedClass.2, node, isNode, emittedClass.1⟩
        · cases emittedClass
      · exact inductionHypothesis found

theorem owner_of_assigned? {node : Node} {entry : OperatorEntry} {owner : Nat}
    (found : assigned? graph visibility node = some entry) (attached : entry.owner = some owner) :
    visibility.isEmitted owner = true ∧
      ∃ node, graph.node? owner = some node ∧ node.kind.target = .class := by
  unfold assigned? at found
  split at found
  · cases found
  · split at found
    · split at found
      · cases found
      · split at found
        · obtain ⟨slot, _, rfl⟩ := Option.map_eq_some_iff.mp found
          cases attached
        · simp only [assignedFree?, Option.bind_eq_bind, Option.pure_def,
            Option.bind_eq_some_iff, Option.some.injEq] at found
          obtain ⟨⟨position, first⟩, isFirst, _, _, rfl⟩ := found
          rw [Option.some.injEq] at attached
          rw [← attached]
          exact owner_of_firstOperand? isFirst
    · split at found
      · cases found
      · obtain ⟨slot, _, rfl⟩ := Option.map_eq_some_iff.mp found
        cases attached
    · cases found

/-! ## The table -/

section OfGraph

theorem mem_candidates {node : Node} :
    node ∈ candidates graph visibility inheritance ↔ node ∈ graph.nodes ∧
      (visibility.isEmitted node.id = true ∨ node.id ∈ inheritance.inlinedNodes) := by
  rw [candidates, List.mem_filter, Bool.or_eq_true, List.contains_iff_mem]

theorem exists_candidate_of_mem {entry : OperatorEntry}
    (member : entry ∈ (ofGraph graph visibility inheritance).entries) :
    ∃ node ∈ candidates graph visibility inheritance,
      assigned? graph visibility node = some entry :=
  List.mem_filterMap.mp member

theorem entries_nodup (wired : graph.Wired) :
    ((ofGraph graph visibility inheritance).entries.map OperatorEntry.node).Nodup := by
  have distinct : ((candidates graph visibility inheritance).map fun node => node.id).Nodup :=
    wired.ids_nodup.sublist (List.filter_sublist.map _)
  unfold ofGraph
  rw [List.map_filterMap]
  refine Node.nodup_filterMap distinct ?_
  intro left right id isLeft isRight
  obtain ⟨leftEntry, leftFound, leftId⟩ := Option.map_eq_some_iff.mp isLeft
  obtain ⟨rightEntry, rightFound, rightId⟩ := Option.map_eq_some_iff.mp isRight
  rw [← (assigned_of_assigned? leftFound).node_eq, ← (assigned_of_assigned? rightFound).node_eq,
    leftId, rightId]

/-- The entry of a node is the one that stands in the table for it. -/
theorem find?_eq_some_iff (wired : graph.Wired) {id : Nat} {entry : OperatorEntry} :
    (ofGraph graph visibility inheritance).find? id = some entry ↔
      entry ∈ (ofGraph graph visibility inheritance).entries ∧ entry.node = id := by
  unfold find?
  constructor
  · intro found
    have sameNode := List.find?_some found
    rw [beq_iff_eq] at sameNode
    exact ⟨List.mem_of_find?_eq_some found, sameNode⟩
  · rintro ⟨member, rfl⟩
    cases found : (ofGraph graph visibility inheritance).entries.find?
        fun other => other.node == entry.node with
    | none =>
        rw [List.find?_eq_none] at found
        exact absurd (beq_self_eq_true entry.node) (found entry member)
    | some other =>
        have sameNode := List.find?_some found
        rw [beq_iff_eq] at sameNode
        rw [List.inj_on_of_nodup_map (entries_nodup wired) (List.mem_of_find?_eq_some found)
          member sameNode]

/-- The operators attached to a class are those that it owns. -/
theorem mem_attachedTo (wired : graph.Wired) {id owner : Nat} :
    id ∈ (ofGraph graph visibility inheritance).attachedTo owner ↔
      (ofGraph graph visibility inheritance).owner? id = some owner := by
  unfold attachedTo owner?
  rw [List.mem_map, Option.bind_eq_some_iff]
  constructor
  · rintro ⟨entry, member, rfl⟩
    rw [List.mem_filter, beq_iff_eq] at member
    exact ⟨entry, (find?_eq_some_iff wired).mpr ⟨member.1, rfl⟩, member.2⟩
  · rintro ⟨entry, found, isOwner⟩
    obtain ⟨member, sameNode⟩ := (find?_eq_some_iff wired).mp found
    refine ⟨entry, ?_, sameNode⟩
    rw [List.mem_filter, beq_iff_eq]
    exact ⟨member, isOwner⟩

/-- What is attached to a class may have a slot. -/
theorem exists_candidate_of_attachedTo {id owner : Nat}
    (attached : id ∈ (ofGraph graph visibility inheritance).attachedTo owner) :
    ∃ node ∈ candidates graph visibility inheritance, node.id = id := by
  unfold attachedTo at attached
  obtain ⟨entry, kept, rfl⟩ := List.mem_map.mp attached
  obtain ⟨node, candidate, isAssigned⟩ := exists_candidate_of_mem (List.mem_of_mem_filter kept)
  exact ⟨node, candidate, (assigned_of_assigned? isAssigned).node_eq.symm⟩

theorem attachedTo_nodup (wired : graph.Wired) (owner : Nat) :
    ((ofGraph graph visibility inheritance).attachedTo owner).Nodup :=
  (entries_nodup wired).sublist (List.filter_sublist.map _)

theorem exists_node_of_owner? (wired : graph.Wired) {id owner : Nat}
    (attached : (ofGraph graph visibility inheritance).owner? id = some owner) :
    ∃ node entry, graph.node? id = some node ∧ Assigned node entry ∧
      node.kind.target = .operator ∧
      (ofGraph graph visibility inheritance).slot? id = some entry.slot := by
  obtain ⟨entry, found, isOwner⟩ := Option.bind_eq_some_iff.mp attached
  obtain ⟨member, sameNode⟩ := (find?_eq_some_iff wired).mp found
  obtain ⟨node, candidate, isAssigned⟩ := exists_candidate_of_mem member
  have assigned := assigned_of_assigned? isAssigned
  refine ⟨node, entry, ?_, assigned, assigned.free owner isOwner, ?_⟩
  · rw [← sameNode, assigned.node_eq]
    exact wired.node?_id (mem_candidates.mp candidate).1
  · unfold slot?
    rw [found, Option.map_some]

/-- A free operator is attached to an emitted class. -/
theorem owner_isEmitted (wired : graph.Wired) {id owner : Nat}
    (attached : (ofGraph graph visibility inheritance).owner? id = some owner) :
    visibility.isEmitted owner = true ∧
      ∃ node, graph.node? owner = some node ∧ node.kind.target = .class := by
  obtain ⟨entry, found, isOwner⟩ := Option.bind_eq_some_iff.mp attached
  obtain ⟨member, _⟩ := (find?_eq_some_iff wired).mp found
  obtain ⟨node, _, isAssigned⟩ := exists_candidate_of_mem member
  exact owner_of_assigned? isAssigned isOwner

end OfGraph

end Registrar.OperatorTable
