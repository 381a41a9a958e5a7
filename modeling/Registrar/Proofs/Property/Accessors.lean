import Mathlib
import Registrar.Proofs.Inheritance.Takes
import Registrar.Proofs.Property

/-!
Contract: which accessors make a property.

Owns: that where nothing is wrong with the accessors of a class each of them reads
or writes one of its properties, and which classes have properties.

Does not own: how properties are registered.
-/

set_option autoImplicit false

namespace Registrar

namespace Property

/-! ## Accessors without faults -/

/-- The accessors have one role of one property. -/
def Accessor.SameRole (left right : Accessor) : Prop :=
  left.property = right.property ∧ left.role = right.role

theorem Accessor.clashes_iff {left right : Accessor} :
    left.clashes right = true ↔ left.SameRole right := by
  unfold clashes SameRole
  rw [Bool.and_eq_true, beq_iff_eq, beq_iff_eq]

/-- No role is taken twice exactly if no two accessors have the same. -/
theorem duplicateFaults_eq_nil_iff {earlier rest : List Accessor} :
    duplicateFaults earlier rest = [] ↔
      (∀ accessor ∈ rest, ∀ other ∈ earlier, ¬ accessor.SameRole other) ∧
        rest.Pairwise fun first second => ¬ second.SameRole first := by
  induction rest generalizing earlier with
  | nil => simp [duplicateFaults]
  | cons accessor rest inductionHypothesis =>
      have isFirst : earlier.any accessor.clashes = true ↔
          ¬ ∀ other ∈ earlier, ¬ accessor.SameRole other := by
        simp only [List.any_eq_true, Accessor.clashes_iff, not_forall, not_not, exists_prop]
      unfold duplicateFaults
      dsimp only
      split
      · rename_i isTaken
        refine iff_of_false (List.cons_ne_nil _ _) fun apart => ?_
        exact isFirst.mp isTaken (apart.1 accessor List.mem_cons_self)
      · rename_i notTaken
        rw [isFirst, not_not] at notTaken
        rw [inductionHypothesis, List.pairwise_cons]
        simp only [List.forall_mem_append, List.forall_mem_singleton, List.forall_mem_cons,
          forall_and]
        tauto

/-- Where no role is taken twice, an accessor holds its role. -/
theorem holder?_of_mem {all : List Accessor} (noFaults : duplicateFaults [] all = [])
    {accessor : Accessor} (listed : accessor ∈ all) :
    holder? all accessor.property accessor.role = some accessor.method := by
  have : Std.Symm fun first second : Accessor => ¬ second.SameRole first :=
    ⟨fun _ _ apart same => apart ⟨same.1.symm, same.2.symm⟩⟩
  have apart := (duplicateFaults_eq_nil_iff.mp noFaults).2.forall
  unfold holder?
  cases isLast : (all.filter fun other =>
      other.property == accessor.property && other.role == accessor.role).getLast? with
  | none =>
      rw [List.getLast?_eq_none_iff, List.filter_eq_nil_iff] at isLast
      exact absurd (by simp) (isLast accessor listed)
  | some last =>
      obtain ⟨isAccessor, same⟩ := List.mem_filter.mp (List.mem_of_getLast? isLast)
      rw [Bool.and_eq_true, beq_iff_eq, beq_iff_eq] at same
      have isSame : accessor = last := by
        by_contra other
        exact apart listed isAccessor other same
      rw [isSame, Option.map_some]

/-- Where no role is taken twice, who holds a role is the one that takes it. -/
theorem holder?_eq_some_iff {all : List Accessor} (noFaults : duplicateFaults [] all = [])
    {property : String} {role : Role} {method : Node} :
    holder? all property role = some method ↔ ⟨method, property, role⟩ ∈ all := by
  constructor
  · intro holds
    obtain ⟨accessor, isLast, rfl⟩ := Option.map_eq_some_iff.mp holds
    obtain ⟨listed, same⟩ := List.mem_filter.mp (List.mem_of_getLast? isLast)
    rw [Bool.and_eq_true, beq_iff_eq, beq_iff_eq] at same
    obtain ⟨rfl, rfl⟩ := same
    exact listed
  · exact holder?_of_mem noFaults

/-- The properties of which a method says that it has the role. -/
def Role.claims (method : Node) : Role → List String
  | .getter => method.marking.getterFor
  | .setter => method.marking.setterFor

/-- The method that has the role. -/
def methodIn (property : Property) : Role → Option Nat
  | .getter => some property.getter
  | .setter => property.setter

theorem mem_methods_of_methodIn {property : Property} {role : Role} {id : Nat}
    (isMethod : property.methodIn role = some id) : id ∈ property.methods := by
  cases role with
  | getter => exact List.mem_cons.mpr (.inl (Option.some.inj isMethod).symm)
  | setter => exact List.mem_cons_of_mem _ (Option.mem_toList.mpr isMethod)

/-- What accessors say is what each of them says of itself. -/
theorem mem_accessors_iff {methods : List Node} {accessor : Accessor} :
    accessor ∈ accessors methods ↔ accessor.method ∈ methods ∧
      accessor.property ∈ accessor.role.claims accessor.method := by
  obtain ⟨method, property, role⟩ := accessor
  unfold accessors
  rw [List.mem_flatMap]
  simp only [List.mem_append, List.mem_map, Accessor.mk.injEq]
  cases role <;> simp [Role.claims]

theorem methodIn_of_ofAccessors? {all : List Accessor} {name : String} {property : Property}
    (isProperty : ofAccessors? all name = some property) (role : Role) :
    property.methodIn role = (holder? all name role).map fun method => method.id := by
  obtain ⟨getter, holds, rfl⟩ := Option.map_eq_some_iff.mp isProperty
  cases role with
  | getter => rw [holds, Option.map_some, methodIn]
  | setter => rfl

/-- Some accessor has the role of the property. -/
def IsTaken (all : List Accessor) (role : Role) (name : String) : Prop :=
  ∃ accessor ∈ all, accessor.property = name ∧ accessor.role = role

theorem exists_holder?_iff {all : List Accessor} {role : Role} {name : String} :
    (∃ holder, holder? all name role = some holder) ↔ IsTaken all role name := by
  rw [← Option.ne_none_iff_exists']
  simp [holder?, IsTaken]

theorem mem_names_of_isTaken {all : List Accessor} {role : Role} {name : String}
    (taken : IsTaken all role name) : name ∈ names all := by
  obtain ⟨accessor, listed, rfl, _⟩ := taken
  unfold names
  rw [List.mem_mergeSort, List.mem_eraseDups]
  exact List.mem_map_of_mem listed

theorem setterFault?_eq_none_iff {all : List Accessor} {name : String} :
    setterFault? all name = none ↔
      (IsTaken all .setter name → IsTaken all .getter name) := by
  rw [← exists_holder?_iff, ← exists_holder?_iff]
  unfold setterFault?
  cases holder? all name .getter <;> cases holder? all name .setter <;> simp

/-- Nothing is wrong with accessors exactly if no role is taken twice and all that is
written is read. -/
theorem faults_eq_nil_iff {all : List Accessor} :
    faults all = [] ↔ all.Pairwise (fun first second => ¬ second.SameRole first) ∧
      ∀ name, IsTaken all .setter name → IsTaken all .getter name := by
  unfold faults
  rw [List.append_eq_nil_iff, duplicateFaults_eq_nil_iff, List.filterMap_eq_nil_iff]
  refine and_congr (by simp) ⟨fun noFault name taken => ?_, fun allRead name _ => ?_⟩
  · exact setterFault?_eq_none_iff.mp (noFault name (mem_names_of_isTaken taken)) taken
  · exact setterFault?_eq_none_iff.mpr (allRead name)

/-- Where nothing is wrong with accessors, each of them has its role of a property. -/
theorem exists_property_of_mem {all : List Accessor} (noFaults : faults all = [])
    {accessor : Accessor} (listed : accessor ∈ all) :
    ∃ property, ofAccessors? all accessor.property = some property ∧
      property.methodIn accessor.role = some accessor.method.id := by
  have holds := holder?_of_mem (List.append_eq_nil_iff.mp noFaults).1 listed
  -- A property that can only be written would be a fault, so it has a getter as well.
  have isTaken : IsTaken all .getter accessor.property := by
    cases role : accessor.role with
    | getter => exact ⟨accessor, listed, rfl, role⟩
    | setter => exact (faults_eq_nil_iff.mp noFaults).2 _ ⟨accessor, listed, rfl, role⟩
  obtain ⟨getter, isRead⟩ := exists_holder?_iff.mpr isTaken
  obtain ⟨property, isProperty⟩ :
      ∃ property, ofAccessors? all accessor.property = some property := by
    unfold ofAccessors?
    rw [isRead]
    exact ⟨_, rfl⟩
  refine ⟨property, isProperty, ?_⟩
  rw [methodIn_of_ofAccessors? isProperty, holds, Option.map_some]

variable {graph : Graph} {inheritance : Inheritance} {node method : Node}

/-! ## Properties of a class -/

/-- What its accessors make of a name is a property of a class. -/
theorem mem_ofClass_of_ofAccessors? {name : String} {property : Property}
    (isProperty : ofAccessors? (accessors (accessorMethods graph inheritance node)) name =
      some property) : property ∈ ofClass graph inheritance node := by
  obtain ⟨getter, holds, _⟩ := Option.map_eq_some_iff.mp isProperty
  obtain ⟨accessor, isLast, _⟩ := Option.map_eq_some_iff.mp holds
  obtain ⟨listed, isNamed⟩ := List.mem_filter.mp (List.mem_of_getLast? isLast)
  rw [Bool.and_eq_true, beq_iff_eq] at isNamed
  unfold ofClass names
  rw [List.mem_mergeSort, List.mem_filterMap]
  refine ⟨name, ?_, isProperty⟩
  rw [List.mem_mergeSort, List.mem_eraseDups, ← isNamed.1]
  exact List.mem_map_of_mem listed

theorem name_of_ofAccessors? {all : List Accessor} {name : String} {property : Property}
    (isProperty : ofAccessors? all name = some property) : property.name = name := by
  obtain ⟨getter, _, rfl⟩ := Option.map_eq_some_iff.mp isProperty
  rfl

/-- The properties of a class are what its accessors make of their names. -/
theorem mem_ofClass_iff {property : Property} :
    property ∈ ofClass graph inheritance node ↔
      ofAccessors? (accessors (accessorMethods graph inheritance node)) property.name =
        some property := by
  refine ⟨fun listed => ?_, mem_ofClass_of_ofAccessors?⟩
  unfold ofClass at listed
  rw [List.mem_mergeSort] at listed
  obtain ⟨name, _, isProperty⟩ := List.mem_filterMap.mp listed
  rw [name_of_ofAccessors? isProperty, isProperty]

/-- A class has one property of a name at most. -/
theorem eq_of_name_eq {left right : Property} (isLeft : left ∈ ofClass graph inheritance node)
    (isRight : right ∈ ofClass graph inheritance node) (sameName : left.name = right.name) :
    left = right := by
  have isMade := mem_ofClass_iff.mp isLeft
  rw [sameName, mem_ofClass_iff.mp isRight] at isMade
  exact (Option.some.inj isMade).symm

theorem isAccessor_iff : isAccessor method = true ↔ method.kind.target = .method ∧
    (method.marking.getterFor ≠ [] ∨ method.marking.setterFor ≠ []) := by
  simp [isAccessor]

/-- Where nothing is wrong with the accessors of a class, each of them reads or writes one
of its properties. -/
theorem exists_property_of_accessorMethods
    (noFaults : faults (accessors (accessorMethods graph inheritance node)) = [])
    (isMethod : method ∈ accessorMethods graph inheritance node) :
    ∃ property ∈ ofClass graph inheritance node, method.id ∈ property.methods := by
  have hasRole : ∃ role : Role, ∃ name, name ∈ role.claims method := by
    rcases (isAccessor_iff.mp (List.mem_filter.mp isMethod).2).2 with reads | writes
    · exact ⟨.getter, List.exists_mem_of_ne_nil _ reads⟩
    · exact ⟨.setter, List.exists_mem_of_ne_nil _ writes⟩
  obtain ⟨role, name, isNamed⟩ := hasRole
  have listed : ⟨method, name, role⟩ ∈ accessors (accessorMethods graph inheritance node) :=
    mem_accessors_iff.mpr ⟨isMethod, isNamed⟩
  obtain ⟨property, isProperty, holds⟩ := exists_property_of_mem noFaults listed
  exact ⟨property, mem_ofClass_of_ofAccessors? isProperty, mem_methods_of_methodIn holds⟩

end Property

/-! ## The table -/

namespace PropertyTable

variable {graph : Graph} {visibility : Visibility} {inheritance : Inheritance}
  {table : PropertyTable}

/-- The properties of a class are kept if it is emitted. -/
theorem get_ofGraph (built : ofGraph graph visibility inheritance = .ok table)
    (wired : graph.Wired) (id : Nat) :
    table.get id =
      if id ∈ Inheritance.emittedClasses graph visibility then
        ((graph.node? id).map (Property.ofClass graph inheritance)).getD []
      else [] := by
  unfold ofGraph at built
  dsimp only at built
  split at built
  · rw [← Except.ok.inj built]
    unfold get
    dsimp only
    cases found : (((graph.nodesOf (Inheritance.emittedClasses graph visibility)).map fun node =>
        (node.id, Property.ofClass graph inheritance node)).filter fun entry =>
          !entry.2.isEmpty).find? fun entry => entry.1 == id with
    | some entry =>
        have sameId := List.find?_some found
        have listed := List.mem_of_mem_filter (List.mem_of_find?_eq_some found)
        obtain ⟨node, isNode, rfl⟩ := List.mem_map.mp listed
        obtain ⟨asked, isClass, isFound⟩ := Graph.mem_nodesOf.mp isNode
        have isAsked : asked = id := by
          rw [← wired.id_eq isFound]
          exact beq_iff_eq.mp sameId
        rw [isAsked] at isClass isFound
        rw [if_pos isClass, isFound]
        rfl
    | none =>
        rw [Option.map_none, Option.getD_none]
        split
        · rename_i isClass
          cases isNode : graph.node? id with
          | none => rfl
          | some node =>
              rw [Option.map_some, Option.getD_some]
              by_contra isSome
              have listed : (node.id, Property.ofClass graph inheritance node) ∈
                  ((graph.nodesOf (Inheritance.emittedClasses graph visibility)).map fun node =>
                    (node.id, Property.ofClass graph inheritance node)).filter fun entry =>
                      !entry.2.isEmpty := by
                refine List.mem_filter.mpr ⟨List.mem_map_of_mem
                  (Graph.mem_nodesOf.mpr ⟨id, isClass, isNode⟩), ?_⟩
                simpa using fun isNil => isSome isNil.symm
              have fails := List.find?_eq_none.mp found _ listed
              rw [wired.id_eq isNode] at fails
              simp at fails
        · rfl
  · cases built

/-- There is a table if nothing is wrong with the accessors of emitted classes. -/
theorem exists_ofGraph_iff :
    (∃ table, ofGraph graph visibility inheritance = .ok table) ↔
      ∀ id ∈ Inheritance.emittedClasses graph visibility, ∀ node, graph.node? id = some node →
        Property.faults (Property.accessors
          (Property.accessorMethods graph inheritance node)) = [] := by
  have faultless : (graph.nodesOf (Inheritance.emittedClasses graph visibility)).flatMap
        (fun node => Property.faults (Property.accessors
          (Property.accessorMethods graph inheritance node))) = [] ↔
      ∀ id ∈ Inheritance.emittedClasses graph visibility, ∀ node, graph.node? id = some node →
        Property.faults (Property.accessors
          (Property.accessorMethods graph inheritance node)) = [] := by
    rw [List.flatMap_eq_nil_iff]
    constructor
    · intro noFaults id isClass node isNode
      exact noFaults node (Graph.mem_nodesOf.mpr ⟨id, isClass, isNode⟩)
    · intro noFaults node listed
      obtain ⟨id, isClass, isNode⟩ := Graph.mem_nodesOf.mp listed
      exact noFaults id isClass node isNode
  rw [← faultless, ← List.isEmpty_iff]
  unfold ofGraph
  dsimp only
  split <;> rename_i isEmpty <;> simp [isEmpty]

/-- The table has the properties of emitted classes. -/
theorem mem_get_iff (built : ofGraph graph visibility inheritance = .ok table)
    (wired : graph.Wired) {id : Nat} {property : Property} :
    property ∈ table.get id ↔ ∃ node, graph.node? id = some node ∧
      visibility.isEmitted id = true ∧ node.kind.target = .class ∧
        property ∈ Property.ofClass graph inheritance node := by
  rw [get_ofGraph built wired]
  split
  · rename_i isClass
    obtain ⟨isEmitted, node, found, target⟩ := (Inheritance.mem_emittedClasses wired).mp isClass
    simp [found, isEmitted, target]
  · rename_i notClass
    refine iff_of_false List.not_mem_nil ?_
    rintro ⟨node, found, isEmitted, target, _⟩
    exact notClass ((Inheritance.mem_emittedClasses wired).mpr ⟨isEmitted, node, found, target⟩)

/-- Every accessor method of an emitted class reads or writes a property in the table. -/
theorem exists_property (built : ofGraph graph visibility inheritance = .ok table)
    (wired : graph.Wired) {node method : Node} (member : node ∈ graph.nodes)
    (isEmitted : visibility.isEmitted node.id = true) (isClass : node.kind.target = .class)
    (isMethod : method ∈ Property.accessorMethods graph inheritance node) :
    ∃ property ∈ table.get node.id, method.id ∈ property.methods := by
  have found := wired.node?_id member
  have noFaults := exists_ofGraph_iff.mp ⟨table, built⟩ node.id
    ((Inheritance.mem_emittedClasses wired).mpr ⟨isEmitted, node, found, isClass⟩) node found
  obtain ⟨property, listed, isOne⟩ := Property.exists_property_of_accessorMethods noFaults isMethod
  exact ⟨property, (mem_get_iff built wired).mpr ⟨node, found, isEmitted, isClass, listed⟩, isOne⟩

/-- A class has one property of a name at most in the table. -/
theorem eq_of_name_eq (built : ofGraph graph visibility inheritance = .ok table)
    (wired : graph.Wired) {id : Nat} {left right : Property} (isLeft : left ∈ table.get id)
    (isRight : right ∈ table.get id) (sameName : left.name = right.name) : left = right := by
  obtain ⟨node, found, _, _, ofLeft⟩ := (mem_get_iff built wired).mp isLeft
  obtain ⟨other, isOther, _, _, ofRight⟩ := (mem_get_iff built wired).mp isRight
  rw [found, Option.some.injEq] at isOther
  rw [← isOther] at ofRight
  exact Property.eq_of_name_eq ofLeft ofRight sameName

end PropertyTable

end Registrar
