import Mathlib
import Registrar.Proofs.Instantiation

/-!
Contract: the names that instantiations have.

Owns: what every node is called once the instantiations are named, and that their names
clash just where two of them are called alike in one place.

Does not own: whether a clash or something else keeps instantiations from being named.
-/

set_option autoImplicit false

namespace Registrar

variable {unit : TranslationUnit} {graph : Graph} {visibility : Visibility}

namespace Visibility

/-! ## Other names -/

theorem decision?_rename (id : Nat) (name : String) (asked : Nat) :
    ((visibility.rename id name).decision? asked).isSome =
      (visibility.decision? asked).isSome := by
  unfold decision? rename
  rw [List.getElem?_modify]
  cases visibility.decisions[asked]? <;> rfl

theorem exposedName_rename (id : Nat) (name : String) (asked : Nat) :
    (visibility.rename id name).exposedName asked =
      if id = asked ∧ (visibility.decision? asked).isSome then name
      else visibility.exposedName asked := by
  unfold exposedName decision? rename
  rw [List.getElem?_modify]
  cases visibility.decisions[asked]? with
  | none => simp
  | some decision => by_cases isAsked : id = asked <;> simp [isAsked]

/-- After all instantiations are named, each node with a record has its name. -/
theorem exposedName_renameAll {records : List Instantiation}
    (distinct : (records.map Instantiation.node).Nodup) (asked : Nat) :
    (records.foldl (fun renamed record => renamed.rename record.node record.name)
        visibility).exposedName asked =
      match records.find? (fun record => record.node == asked) with
      | some record =>
          if (visibility.decision? asked).isSome then record.name
          else visibility.exposedName asked
      | none => visibility.exposedName asked := by
  induction records generalizing visibility with
  | nil => rfl
  | cons first rest inductionHypothesis =>
      rw [List.map_cons, List.nodup_cons] at distinct
      rw [List.foldl_cons, inductionHypothesis distinct.2, List.find?_cons, decision?_rename,
        exposedName_rename]
      by_cases isFirst : first.node = asked
      · have noOther : rest.find? (fun record => record.node == asked) = none := by
          rw [List.find?_eq_none]
          intro record listed sameNode
          rw [beq_iff_eq, ← isFirst] at sameNode
          exact distinct.1 (List.mem_map.mpr ⟨record, listed, sameNode⟩)
        simp [isFirst, noOther]
      · have notFirst : (first.node == asked) = false := beq_eq_false_iff_ne.mpr isFirst
        simp [isFirst, notFirst]

end Visibility

namespace Instantiation

/-! ## Names that clash -/

/-- No place in which the name of the one must be unique is that of the other. -/
def NamedApart (graph : Graph) (left right : Instantiation) : Prop :=
  ∀ place, nameSpace? graph left = some place → nameSpace? graph right ≠ some place

theorem NamedApart.symm {left right : Instantiation} (apart : NamedApart graph left right) :
    NamedApart graph right left :=
  fun place isRight isLeft => apart place isLeft isRight

theorem namedApart_of_nameSpace?_eq_none {left : Instantiation}
    (nowhere : nameSpace? graph left = none) (right : Instantiation) :
    NamedApart graph left right := by
  intro place isLeft
  rw [nowhere] at isLeft
  cases isLeft

theorem find?_nameSpace?_eq_none_iff {earlier : List Instantiation} {record : Instantiation}
    {place : Nat × String} (isPlace : nameSpace? graph record = some place) :
    (earlier.find? fun other => nameSpace? graph other == some place) = none ↔
      ∀ before ∈ earlier, NamedApart graph before record := by
  rw [List.find?_eq_none]
  refine forall₂_congr fun before _ => ?_
  rw [beq_iff_eq]
  constructor
  · rintro differs other isBefore isRecord
    exact differs (isBefore.trans (isRecord.symm.trans isPlace))
  · exact fun apart isBefore => apart place isBefore isPlace

theorem exists_node_of_nameSpace? {record : Instantiation} {place : Nat × String}
    (isPlace : nameSpace? graph record = some place) :
    ∃ node, graph.node? record.node = some node := by
  unfold nameSpace? at isPlace
  cases found : graph.node? record.node with
  | none => simp [found] at isPlace
  | some node => exact ⟨node, rfl⟩

/-- A clash is told, since both nodes are there. -/
theorem collision_toList_ne_nil {first second : Instantiation} {place : Nat × String}
    (isFirst : nameSpace? graph first = some place)
    (isSecond : nameSpace? graph second = some place) :
    (collision graph first second).toList ≠ [] := by
  obtain ⟨firstNode, isFirstNode⟩ := exists_node_of_nameSpace? isFirst
  obtain ⟨secondNode, isSecondNode⟩ := exists_node_of_nameSpace? isSecond
  simp [collision, isFirstNode, isSecondNode]

theorem collisionsFrom_cons_eq_nil_iff {earlier rest : List Instantiation} {first : Instantiation}
    {place : Nat × String} (isPlace : nameSpace? graph first = some place) :
    collisionsFrom graph earlier (first :: rest) = [] ↔
      (∀ before ∈ earlier, NamedApart graph before first) ∧
        collisionsFrom graph (earlier ++ [first]) rest = [] := by
  rw [← find?_nameSpace?_eq_none_iff isPlace]
  simp only [collisionsFrom, isPlace]
  cases clash : earlier.find? fun other => nameSpace? graph other == some place with
  | none => simp
  | some before =>
      have isBefore := List.find?_some clash
      rw [beq_iff_eq] at isBefore
      simp [collision_toList_ne_nil isBefore isPlace]

/-- There are no clashes exactly if all names are apart. -/
theorem collisionsFrom_eq_nil_iff {earlier records : List Instantiation} :
    collisionsFrom graph earlier records = [] ↔
      records.Pairwise (NamedApart graph) ∧
        ∀ before ∈ earlier, ∀ record ∈ records, NamedApart graph before record := by
  induction records generalizing earlier with
  | nil => simp [collisionsFrom]
  | cons first rest inductionHypothesis =>
      cases isPlace : nameSpace? graph first with
      | none =>
          have isApart := namedApart_of_nameSpace?_eq_none isPlace
          simp only [collisionsFrom, isPlace, inductionHypothesis, List.pairwise_cons,
            List.forall_mem_cons, isApart, (isApart _).symm, true_and, implies_true]
      | some place =>
          rw [collisionsFrom_cons_eq_nil_iff isPlace, inductionHypothesis, List.pairwise_cons]
          simp only [List.forall_mem_append, List.forall_mem_singleton, List.forall_mem_cons,
            forall_and]
          tauto

end Instantiation

namespace Instantiations

/-! ## Nothing wrong -/

theorem resolve_eq_ok_iff :
    resolve unit graph visibility = .ok ⟨collect graph visibility⟩ ↔
      (collect graph visibility).flatMap (ownFaults unit graph) = [] ∧
        Instantiation.collisionsFrom graph [] (collect graph visibility) = [] := by
  unfold resolve
  dsimp only
  rw [← List.append_eq_nil_iff, ← List.isEmpty_iff]
  split <;> rename_i isEmpty <;> simp [isEmpty]

end Instantiations

end Registrar
