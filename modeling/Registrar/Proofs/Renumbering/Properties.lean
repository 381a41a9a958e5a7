import Mathlib
import Registrar.Proofs.Property.Accessors
import Registrar.Proofs.Renumbering.Inheritance

/-!
Contract: properties of classes in a graph under other numbers.

Owns: that the same accessors make the same properties, in the same order.

Does not own: where properties stand among the items of a class.
-/

set_option autoImplicit false

namespace Registrar

variable {number : Nat → Nat} {graph other : Graph} {visibility otherVisibility : Visibility}
  {inheritance otherInheritance : Inheritance}

namespace Property

def renumber (number : Nat → Nat) (property : Property) : Property :=
  { property with
    getter := number property.getter
    setter := property.setter.map number }

/-! ## Accessors -/

def Accessor.renumber (number : Nat → Nat) (accessor : Accessor) : Accessor :=
  { accessor with method := accessor.method.renumber number }

theorem accessorMethods_renumber (renumbers : Graph.Renumbers number graph other)
    (sameTaken : Inheritance.Renumbers number inheritance otherInheritance) (node : Node) :
    accessorMethods other otherInheritance (node.renumber number) =
      (accessorMethods graph inheritance node).map (Node.renumber number) := by
  have sameInherited : (otherInheritance.inherited (number node.id)).map Member.node =
      ((inheritance.inherited node.id).map Member.node).map number := by
    rw [sameTaken.inherited_eq, List.map_map, List.map_map]
    rfl
  unfold accessorMethods
  dsimp only
  rw [renumbers.childrenOf_eq, List.filter_map, Node.renumber_id, sameInherited,
    renumbers.nodesOf_eq, ← List.map_append, List.filter_map]
  rfl

theorem accessors_renumber (methods : List Node) :
    accessors (methods.map (Node.renumber number)) =
      (accessors methods).map (Accessor.renumber number) := by
  unfold accessors
  rw [List.flatMap_map, List.map_flatMap]
  congr 1
  funext method
  rw [List.map_append, List.map_map, List.map_map]
  rfl

theorem duplicateFaults_renumber (earlier all : List Accessor) :
    duplicateFaults (earlier.map (Accessor.renumber number))
        (all.map (Accessor.renumber number)) = duplicateFaults earlier all := by
  induction all generalizing earlier with
  | nil => rfl
  | cons accessor rest inductionHypothesis =>
      have sameClashes : (earlier.map (Accessor.renumber number)).any
          (accessor.renumber number).clashes = earlier.any accessor.clashes := by
        rw [List.any_map]
        rfl
      have onwards := inductionHypothesis (earlier ++ [accessor])
      rw [List.map_append, List.map_singleton] at onwards
      rw [List.map_cons]
      unfold duplicateFaults
      dsimp only
      rw [sameClashes, onwards]
      rfl

theorem holder?_renumber (all : List Accessor) (property : String) (role : Role) :
    holder? (all.map (Accessor.renumber number)) property role =
      (holder? all property role).map (Node.renumber number) := by
  unfold holder?
  rw [List.filter_map, List.getLast?_map, Option.map_map, Option.map_map]
  rfl

theorem names_renumber (all : List Accessor) :
    names (all.map (Accessor.renumber number)) = names all := by
  unfold names
  rw [List.map_map]
  rfl

theorem ofAccessors?_renumber (all : List Accessor) (name : String) :
    ofAccessors? (all.map (Accessor.renumber number)) name =
      (ofAccessors? all name).map (renumber number) := by
  unfold ofAccessors?
  rw [holder?_renumber, holder?_renumber, Option.map_map, Option.map_map, Option.map_map]
  refine congrArg (fun make => (holder? all name .getter).map make) ?_
  funext getter
  unfold renumber
  simp only [Function.comp_apply, Option.map_map]
  rfl

theorem faults_renumber (all : List Accessor) :
    faults (all.map (Accessor.renumber number)) = faults all := by
  have sameSetter : (names all).filterMap (setterFault? (all.map (Accessor.renumber number))) =
      (names all).filterMap (setterFault? all) := by
    refine List.filterMap_congr fun name _ => ?_
    unfold setterFault?
    rw [holder?_renumber, holder?_renumber]
    cases holder? all name .getter <;> cases holder? all name .setter <;> rfl
  have sameDuplicates : duplicateFaults [] (all.map (Accessor.renumber number)) =
      duplicateFaults [] all := duplicateFaults_renumber [] all
  unfold faults
  rw [names_renumber, sameSetter, sameDuplicates]

/-! ## Properties of a class -/

/-- A property stands where its getter does. -/
theorem exists_getter_of_ofAccessors? {methods : List Node} {name : String} {property : Property}
    (isProperty : ofAccessors? (accessors methods) name = some property) :
    ∃ getter ∈ methods, property.getter = getter.id ∧ property.order = getter.order := by
  unfold ofAccessors? at isProperty
  obtain ⟨getter, holds, rfl⟩ := Option.map_eq_some_iff.mp isProperty
  exact ⟨getter, holder?_mem holds, rfl, rfl⟩

theorem ofClass_renumber (renumbers : Graph.Renumbers number graph other)
    (sameTaken : Inheritance.Renumbers number inheritance otherInheritance) (node : Node) :
    ofClass other otherInheritance (node.renumber number) =
      (ofClass graph inheritance node).map (renumber number) := by
  unfold ofClass
  dsimp only
  rw [accessorMethods_renumber renumbers sameTaken, accessors_renumber, names_renumber,
    List.map_mergeSort, List.map_filterMap]
  · congr 1
    exact List.filterMap_congr fun name _ => ofAccessors?_renumber _ name
  · intro left isLeft right isRight
    obtain ⟨leftName, _, isLeft⟩ := List.mem_filterMap.mp isLeft
    obtain ⟨rightName, _, isRight⟩ := List.mem_filterMap.mp isRight
    obtain ⟨leftGetter, leftListed, isLeftGetter, leftOrder⟩ :=
      exists_getter_of_ofAccessors? isLeft
    obtain ⟨rightGetter, rightListed, isRightGetter, rightOrder⟩ :=
      exists_getter_of_ofAccessors? isRight
    -- Properties in one place have one getter, and numbers do not matter then.
    by_cases sameOrder : left.order = right.order
    · have sameGetter : left.getter = right.getter := by
        rw [leftOrder, rightOrder] at sameOrder
        rw [isLeftGetter, isRightGetter, renumbers.eq_of_order_eq
          (accessorMethods_subset node leftListed) (accessorMethods_subset node rightListed)
          sameOrder]
      simp [getterOrder, renumber, sameOrder, sameGetter]
    · have isApart : (left.order == right.order) = false := beq_eq_false_iff_ne.mpr sameOrder
      simp only [getterOrder, renumber, isApart, Bool.false_and]
      rfl

end Property

namespace PropertyTable

/-- The other classes have the same properties under other numbers. -/
def Renumbers (number : Nat → Nat) (table other : PropertyTable) : Prop :=
  ∀ id, other.get (number id) = (table.get id).map (Property.renumber number)

/-- Under other numbers classes have the same properties, or faults as well. -/
theorem ofGraph_renumbers (renumbers : Graph.Renumbers number graph other)
    (same : Visibility.Renumbers number visibility otherVisibility)
    (sameTaken : Inheritance.Renumbers number inheritance otherInheritance)
    {table : PropertyTable} (built : ofGraph graph visibility inheritance = .ok table) :
    ∃ found, ofGraph other otherVisibility otherInheritance = .ok found ∧
      Renumbers number table found := by
  have sameClasses := Inheritance.mem_emittedClasses_renumber renumbers same
  have noFaults : ∀ id ∈ Inheritance.emittedClasses other otherVisibility, ∀ node,
      other.node? id = some node →
        Property.faults (Property.accessors
          (Property.accessorMethods other otherInheritance node)) = [] := by
    intro id isClass found isFound
    obtain ⟨original, isOriginal, rfl⟩ := (sameClasses id).mp isClass
    rw [renumbers.node?_eq, Option.map_eq_some_iff] at isFound
    obtain ⟨node, isNode, rfl⟩ := isFound
    rw [Property.accessorMethods_renumber renumbers sameTaken, Property.accessors_renumber,
      Property.faults_renumber]
    exact exists_ofGraph_iff.mp ⟨table, built⟩ original isOriginal node isNode
  obtain ⟨found, isFound⟩ := exists_ofGraph_iff.mpr noFaults
  refine ⟨found, isFound, fun id => ?_⟩
  rw [get_ofGraph isFound renumbers.otherWired, get_ofGraph built renumbers.wired,
    renumbers.node?_eq]
  by_cases isClass : id ∈ Inheritance.emittedClasses graph visibility
  · rw [if_pos ((sameClasses _).mpr ⟨id, isClass, rfl⟩), if_pos isClass]
    cases graph.node? id with
    | none => rfl
    | some node => exact Property.ofClass_renumber renumbers sameTaken node
  · rw [if_neg, if_neg isClass]
    · rfl
    · intro listed
      obtain ⟨original, isOriginal, sameNumber⟩ := (sameClasses _).mp listed
      rw [renumbers.injective sameNumber] at isOriginal
      exact isClass isOriginal

end PropertyTable

end Registrar
