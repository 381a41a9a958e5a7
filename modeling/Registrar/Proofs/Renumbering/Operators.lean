import Mathlib
import Registrar.Proofs.Operator
import Registrar.Proofs.Renumbering.Inheritance

/-!
Contract: operators in a graph under other numbers.

Owns: that the same operators have the same slots, and are attached to the same
classes.

Does not own: in which order a class has them.
-/

set_option autoImplicit false

namespace Registrar

def OperatorEntry.renumber (number : Nat → Nat) (entry : OperatorEntry) : OperatorEntry :=
  { entry with node := number entry.node, owner := entry.owner.map number }

namespace OperatorTable

variable {number : Nat → Nat} {graph other : Graph} {visibility otherVisibility : Visibility}
  {inheritance otherInheritance : Inheritance}

/-- The other table has the same entries under other numbers. -/
def Renumbers (number : Nat → Nat) (table other : OperatorTable) : Prop :=
  ∀ id, other.find? (number id) = (table.find? id).map (OperatorEntry.renumber number)

/-! ## Operands -/

theorem candidateNames_renumber (renumbers : Graph.Renumbers number graph other)
    (operator : Node) (type : String) :
    candidateNames other (operator.renumber number) type = candidateNames graph operator type := by
  have sameParent : (operator.renumber number).lexicalParent =
      operator.lexicalParent.map number := rfl
  unfold candidateNames
  dsimp only
  rw [sameParent, renumbers.bind_node?_eq]
  cases operator.lexicalParent.bind graph.node? with
  | none => rfl
  | some scope =>
      have sameScopes : scope.renumber number :: other.ancestors (scope.renumber number) =
          (scope :: graph.ancestors scope).map (Node.renumber number) := by
        rw [renumbers.ancestors_eq, List.map_cons]
      simp only [Option.map_some, sameScopes, List.map_map]
      rfl

theorem operandClass?_renumber (renumbers : Graph.Renumbers number graph other)
    (same : Visibility.Renumbers number visibility otherVisibility) (operator : Node)
    (type : String) :
    operandClass? other otherVisibility (operator.renumber number) type =
      (operandClass? graph visibility operator type).map number := by
  have sameTypes (names : List String) : names.filterMap other.resolveType =
      (names.filterMap graph.resolveType).map number := by
    rw [List.map_filterMap]
    exact List.filterMap_congr fun name _ => renumbers.resolveType_eq name
  unfold operandClass?
  rw [candidateNames_renumber renumbers, sameTypes, List.find?_map]
  congr 2
  funext id
  simp only [Function.comp_apply]
  rw [renumbers.node?_eq]
  cases graph.node? id with
  | none => rfl
  | some node => simp only [Option.map_some, Node.renumber_kind, same.emitted]

theorem firstOperand?_renumber (renumbers : Graph.Renumbers number graph other)
    (same : Visibility.Renumbers number visibility otherVisibility) (operator : Node)
    (position : Nat) (types : List String) :
    firstOperand? other otherVisibility (operator.renumber number) position types =
      (firstOperand? graph visibility operator position types).map fun found =>
        (found.1, number found.2) := by
  induction types generalizing position with
  | nil => rfl
  | cons type rest inductionHypothesis =>
      unfold firstOperand?
      rw [operandClass?_renumber renumbers same]
      cases operandClass? graph visibility operator type with
      | none => exact inductionHypothesis (position + 1)
      | some owner => rfl

/-! ## Entries -/

theorem assigned?_renumber (renumbers : Graph.Renumbers number graph other)
    (same : Visibility.Renumbers number visibility otherVisibility) (node : Node) :
    assigned? other otherVisibility (node.renumber number) =
      (assigned? graph visibility node).map (OperatorEntry.renumber number) := by
  have sameFree (symbol : String) (types : List String) :
      assignedFree? other otherVisibility (node.renumber number) symbol types =
        (assignedFree? graph visibility node symbol types).map
          (OperatorEntry.renumber number) := by
    unfold assignedFree?
    rw [firstOperand?_renumber renumbers same]
    cases firstOperand? graph visibility node 0 (types.take 2) with
    | none => rfl
    | some found =>
        obtain ⟨position, owner⟩ := found
        simp only [Option.map_some, Option.bind_eq_bind, Option.bind_some]
        cases OperatorSlot.free? symbol types position <;> rfl
  unfold assigned?
  rw [Node.renumber_marking, Node.renumber_kind]
  split
  · rfl
  · split
    · rename_i symbol signature isMember _
      split
      · rfl
      · split
        · rw [Option.map_map]
          rfl
        · exact sameFree symbol _
    · split
      · rfl
      · rw [Option.map_map]
        rfl
    · rfl

theorem mem_candidates_renumber_iff (renumbers : Graph.Renumbers number graph other)
    (same : Visibility.Renumbers number visibility otherVisibility)
    (sameTaken : Inheritance.Renumbers number inheritance otherInheritance) (found : Node) :
    found ∈ candidates other otherVisibility otherInheritance ↔
      ∃ node ∈ candidates graph visibility inheritance, node.renumber number = found := by
  rw [mem_candidates, renumbers.mem_iff]
  constructor
  · rintro ⟨⟨node, member, rfl⟩, isCandidate⟩
    rw [Node.renumber_id, same.emitted, sameTaken.inlined_iff] at isCandidate
    exact ⟨node, mem_candidates.mpr ⟨member, isCandidate⟩, rfl⟩
  · rintro ⟨node, listed, rfl⟩
    obtain ⟨member, isCandidate⟩ := mem_candidates.mp listed
    rw [Node.renumber_id, same.emitted, sameTaken.inlined_iff]
    exact ⟨⟨node, member, rfl⟩, isCandidate⟩

theorem mem_entries_renumber_iff (renumbers : Graph.Renumbers number graph other)
    (same : Visibility.Renumbers number visibility otherVisibility)
    (sameTaken : Inheritance.Renumbers number inheritance otherInheritance)
    (found : OperatorEntry) :
    found ∈ (ofGraph other otherVisibility otherInheritance).entries ↔
      ∃ entry ∈ (ofGraph graph visibility inheritance).entries,
        entry.renumber number = found := by
  unfold ofGraph
  simp only [List.mem_filterMap, mem_candidates_renumber_iff renumbers same sameTaken]
  constructor
  · rintro ⟨_, ⟨node, isCandidate, rfl⟩, isAssigned⟩
    rw [assigned?_renumber renumbers same, Option.map_eq_some_iff] at isAssigned
    obtain ⟨entry, isEntry, isSame⟩ := isAssigned
    exact ⟨entry, ⟨node, isCandidate, isEntry⟩, isSame⟩
  · rintro ⟨entry, ⟨node, isCandidate, isEntry⟩, rfl⟩
    refine ⟨node.renumber number, ⟨node, isCandidate, rfl⟩, ?_⟩
    rw [assigned?_renumber renumbers same, isEntry, Option.map_some]

/-- Under other numbers the same operators have the same entries. -/
theorem ofGraph_renumbers (renumbers : Graph.Renumbers number graph other)
    (same : Visibility.Renumbers number visibility otherVisibility)
    (sameTaken : Inheritance.Renumbers number inheritance otherInheritance) :
    Renumbers number (ofGraph graph visibility inheritance)
      (ofGraph other otherVisibility otherInheritance) := by
  intro id
  refine find?_eq_map_find? ?_ ?_ ?_
  · exact mem_entries_renumber_iff renumbers same sameTaken
  · intro entry _
    exact renumbers.injective.beq_eq
  · intro left isLeft right isRight leftFound rightFound
    rw [beq_iff_eq] at leftFound rightFound
    exact List.inj_on_of_nodup_map (entries_nodup renumbers.wired) isLeft isRight
      (leftFound.trans rightFound.symm)

/-! ## Look-up -/

namespace Renumbers

variable {table otherTable : OperatorTable}

theorem slot?_eq (sameEntries : Renumbers number table otherTable) (id : Nat) :
    otherTable.slot? (number id) = table.slot? id := by
  unfold slot?
  rw [sameEntries, Option.map_map]
  rfl

theorem owner?_eq (sameEntries : Renumbers number table otherTable) (id : Nat) :
    otherTable.owner? (number id) = (table.owner? id).map number := by
  unfold owner?
  rw [sameEntries, Option.bind_map, Option.map_bind]
  rfl

end Renumbers

/-- The same operators are attached to a class, if in another order. -/
theorem attachedTo_perm (renumbers : Graph.Renumbers number graph other)
    (same : Visibility.Renumbers number visibility otherVisibility)
    (sameTaken : Inheritance.Renumbers number inheritance otherInheritance) (id : Nat) :
    ((ofGraph other otherVisibility otherInheritance).attachedTo (number id)).Perm
      (((ofGraph graph visibility inheritance).attachedTo id).map number) := by
  have sameEntries := ofGraph_renumbers renumbers same sameTaken
  rw [List.perm_ext_iff_of_nodup (attachedTo_nodup renumbers.otherWired _)
    ((attachedTo_nodup renumbers.wired id).map renumbers.injective)]
  intro operator
  rw [mem_attachedTo renumbers.otherWired, List.mem_map]
  constructor
  · intro attached
    obtain ⟨node, _, isNode, _⟩ := exists_node_of_owner? renumbers.otherWired attached
    obtain ⟨original, _, rfl⟩ := (renumbers.mem_iff node).mp (Graph.mem_nodes_of_node? isNode)
    have sameId : number original.id = operator := renumbers.otherWired.id_eq isNode
    rw [← sameId, sameEntries.owner?_eq, Option.map_eq_some_iff] at attached
    obtain ⟨owner, isOwner, sameOwner⟩ := attached
    rw [renumbers.injective sameOwner] at isOwner
    exact ⟨original.id, (mem_attachedTo renumbers.wired).mpr isOwner, sameId⟩
  · rintro ⟨original, attached, rfl⟩
    rw [mem_attachedTo renumbers.wired] at attached
    rw [sameEntries.owner?_eq, attached, Option.map_some]

end OperatorTable

end Registrar
