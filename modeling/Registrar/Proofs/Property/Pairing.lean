import Mathlib
import Registrar.Proofs.Property.Accessors
import Registrar.Proofs.TopologicalOrder

/-!
Contract: which properties a class has, told by its accessors.

Owns: that the properties of a class and the accessors that say of themselves what
they read and write agree, name by name, and the order of the properties.

Does not own: how properties are registered.

Where nothing is wrong with the accessors of a class, each role of a property is taken
once. So the last accessor with a role, which the table has, is the only one.
-/

set_option autoImplicit false

namespace Registrar

namespace Property

/-- The method is an accessor of the class: it says what it reads or writes, and is a
public member of the class that is not hidden, or one that the class takes from an inlined
base. -/
structure IsAccessorOf (graph : Graph) (inheritance : Inheritance) (node method : Node) :
    Prop where
  member : method ∈ graph.nodes
  isMethod : method.kind.target = .method
  carries : method.marking.getterFor ≠ [] ∨ method.marking.setterFor ≠ []
  origin : method.parent = some node.id ∧ method.access = .public ∧
      method.marking.visible ≠ some false ∨
    ∃ used ∈ inheritance.inherited node.id, used.node = method.id

/-- The properties of a class are those that its accessors read and write. -/
structure PairsExactly (graph : Graph) (inheritance : Inheritance) (node : Node)
    (properties : List Property) : Prop where
  /-- There is a property of a name if an accessor reads it. -/
  names : ∀ name, (∃ property ∈ properties, property.name = name) ↔
    ∃ method, IsAccessorOf graph inheritance node method ∧ name ∈ method.marking.getterFor
  /-- The getter is the one accessor that reads the name. -/
  getter : ∀ property ∈ properties, ∀ method ∈ graph.nodes, method.id = property.getter ↔
    IsAccessorOf graph inheritance node method ∧ property.name ∈ method.marking.getterFor
  /-- The setter is the one accessor that writes the name, if there is one. -/
  setter : ∀ property ∈ properties, ∀ id, property.setter = some id ↔
    ∃ method, method.id = id ∧ IsAccessorOf graph inheritance node method ∧
      property.name ∈ method.marking.setterFor
  distinct : (properties.map Property.name).Nodup
  /-- A property stands where its getter does in the source. -/
  order : ∀ property ∈ properties, ∃ method ∈ graph.nodes,
    method.id = property.getter ∧ property.order = method.order
  sorted : properties.Pairwise fun left right => left.order ≤ right.order
  /-- Whatever an accessor says is a property that it reads or writes. -/
  kept : ∀ method, IsAccessorOf graph inheritance node method → ∀ role : Role,
    ∀ name ∈ role.claims method, ∃ property ∈ properties,
      property.name = name ∧ property.methodIn role = some method.id

variable {graph : Graph} {inheritance : Inheritance} {node method : Node}

theorem mem_accessorMethods_iff (wired : graph.Wired) (isNode : node ∈ graph.nodes) :
    method ∈ accessorMethods graph inheritance node ↔
      IsAccessorOf graph inheritance node method := by
  unfold accessorMethods
  rw [List.mem_filter, List.mem_append, List.mem_filter, wired.mem_childrenOf isNode,
    Graph.mem_nodesOf, isAccessor_iff, Bool.and_eq_true, beq_iff_eq, bne_iff_ne]
  constructor
  · rintro ⟨⟨⟨member, isParent⟩, isPublic⟩ | ⟨id, listed, found⟩, isMethod, carries⟩
    · exact ⟨member, isMethod, carries, .inl ⟨isParent, isPublic⟩⟩
    · obtain ⟨used, isUsed, rfl⟩ := List.mem_map.mp listed
      exact ⟨Graph.mem_nodes_of_node? found, isMethod, carries,
        .inr ⟨used, isUsed, (wired.id_eq found).symm⟩⟩
  · rintro ⟨member, isMethod, carries, ⟨isParent, isPublic⟩ | ⟨used, isUsed, sameNode⟩⟩
    · exact ⟨.inl ⟨⟨member, isParent⟩, isPublic⟩, isMethod, carries⟩
    · refine ⟨.inr ⟨method.id, ?_, wired.node?_id member⟩, isMethod, carries⟩
      exact List.mem_map.mpr ⟨used, isUsed, sameNode⟩

/-! ## Names and order -/

theorem ofClass_names_nodup : ((ofClass graph inheritance node).map Property.name).Nodup := by
  have distinct (all : List Accessor) : (Property.names all).Nodup :=
    (List.mergeSort_perm _ _).nodup_iff.mpr (TopologicalOrder.nodup_eraseDups _)
  unfold ofClass
  rw [((List.mergeSort_perm _ _).map Property.name).nodup_iff, List.map_filterMap]
  refine (distinct _).filterMap fun left right name isLeft isRight => ?_
  obtain ⟨leftProperty, madeLeft, rfl⟩ := Option.map_eq_some_iff.mp isLeft
  obtain ⟨rightProperty, madeRight, sameName⟩ := Option.map_eq_some_iff.mp isRight
  rw [← name_of_ofAccessors? madeLeft, ← name_of_ofAccessors? madeRight, sameName]

theorem ofClass_sorted :
    (ofClass graph inheritance node).Pairwise fun left right => left.order ≤ right.order := by
  have isOrder (left right : Property) : getterOrder left right = true ↔
      left.order < right.order ∨ left.order = right.order ∧ left.getter ≤ right.getter := by
    simp [getterOrder]
  refine (pairwise_mergeSort_of_numbers isOrder _).imp fun {left right} precedes => ?_
  rw [isOrder] at precedes
  omega

/-! ## Pairing -/

section Faultless

variable (wired : graph.Wired) (isNode : node ∈ graph.nodes)
  (noFaults : faults (accessors (accessorMethods graph inheritance node)) = [])

include wired isNode noFaults

/-- An accessor of a class has a role of a property if it says so. -/
theorem methodIn_iff {property : Property} (listed : property ∈ ofClass graph inheritance node)
    (role : Role) (id : Nat) : property.methodIn role = some id ↔
      ∃ method, method.id = id ∧ IsAccessorOf graph inheritance node method ∧
        property.name ∈ role.claims method := by
  rw [methodIn_of_ofAccessors? (mem_ofClass_iff.mp listed), Option.map_eq_some_iff]
  refine exists_congr fun method => ?_
  rw [holder?_eq_some_iff (List.append_eq_nil_iff.mp noFaults).1, mem_accessors_iff,
    mem_accessorMethods_iff wired isNode, and_comm]

/-- An accessor of a class has all the roles that it says it has. -/
theorem exists_property_of_claims (isAccessor : IsAccessorOf graph inheritance node method)
    {role : Role} {name : String} (isNamed : name ∈ role.claims method) :
    ∃ property ∈ ofClass graph inheritance node,
      property.name = name ∧ property.methodIn role = some method.id := by
  have listed : ⟨method, name, role⟩ ∈ accessors (accessorMethods graph inheritance node) :=
    mem_accessors_iff.mpr ⟨(mem_accessorMethods_iff wired isNode).mpr isAccessor, isNamed⟩
  obtain ⟨property, isProperty, holds⟩ := exists_property_of_mem noFaults listed
  exact ⟨property, mem_ofClass_of_ofAccessors? isProperty, name_of_ofAccessors? isProperty, holds⟩

theorem ofClass_pairsExactly :
    PairsExactly graph inheritance node (ofClass graph inheritance node) where
  names := by
    intro name
    constructor
    · rintro ⟨property, listed, rfl⟩
      obtain ⟨method, _, reads⟩ :=
        (methodIn_iff wired isNode noFaults listed .getter property.getter).mp rfl
      exact ⟨method, reads⟩
    · rintro ⟨method, isAccessor, isNamed⟩
      have reads : name ∈ Role.getter.claims method := isNamed
      obtain ⟨property, listed, isName, _⟩ :=
        exists_property_of_claims wired isNode noFaults isAccessor reads
      exact ⟨property, listed, isName⟩
  getter := by
    intro property listed method member
    have reads := methodIn_iff wired isNode noFaults listed .getter method.id
    rw [methodIn, Option.some.injEq] at reads
    rw [eq_comm, reads]
    constructor
    · rintro ⟨other, sameId, isAccessor, isNamed⟩
      obtain rfl : other = method := wired.eq_of_id_eq isAccessor.member member sameId
      exact ⟨isAccessor, isNamed⟩
    · exact fun reads => ⟨method, rfl, reads⟩
  setter := fun property listed id => methodIn_iff wired isNode noFaults listed .setter id
  distinct := ofClass_names_nodup
  order := by
    intro property listed
    obtain ⟨getter, holds, isMade⟩ := Option.map_eq_some_iff.mp (mem_ofClass_iff.mp listed)
    exact ⟨getter, accessorMethods_subset node (holder?_mem holds), by rw [← isMade],
      by rw [← isMade]⟩
  sorted := ofClass_sorted
  kept := fun method isAccessor role name isNamed =>
    exists_property_of_claims wired isNode noFaults isAccessor isNamed

end Faultless

end Property

/-! ## The table -/

namespace PropertyTable

variable {unit : TranslationUnit} {markings : MarkingTable} {graph : Graph}
  {visibility : Visibility} {inheritance : Inheritance} {table : PropertyTable}

/-- An emitted class has exactly the properties that its accessors read and write. -/
theorem ofGraph_pairsExactly (isGraph : Graph.ofUnit unit markings = .ok graph)
    (built : ofGraph graph visibility inheritance = .ok table) {node : Node}
    (member : node ∈ graph.nodes) (isEmitted : visibility.isEmitted node.id = true)
    (isClass : node.kind.target = .class) :
    Property.PairsExactly graph inheritance node (table.get node.id) := by
  have wired := Graph.ofUnit_wired isGraph
  have found := wired.node?_id member
  have listed : node.id ∈ Inheritance.emittedClasses graph visibility :=
    (Inheritance.mem_emittedClasses wired).mpr ⟨isEmitted, node, found, isClass⟩
  have noFaults := exists_ofGraph_iff.mp ⟨table, built⟩ node.id listed node found
  rw [get_ofGraph built wired, if_pos listed, found, Option.map_some, Option.getD_some]
  exact Property.ofClass_pairsExactly wired member noFaults

/-- A class that inlines a base with the getter of a property, and has its setter. -/
def inheritedGetter : TranslationUnit where
  root := { id := 0, kind := .translationUnit, order := 0 }
  others :=
    [ { id := 1, kind := .class [] none, name := "B", qualifiedName := "B", parent := some 0
        order := 1 },
      { id := 2, kind := .method { returnType := "int" } false false, name := "get"
        qualifiedName := "B::get", parent := some 1, order := 2
        payloads := [.map [("getter_for", .string "x")]] },
      { id := 3, kind := .class [{ qualifiedName := "B" }] none, name := "A", qualifiedName := "A"
        parent := some 0, order := 3, payloads := [.text "visible", .text "inline_base"] },
      { id := 4, kind := .method {} false false, name := "set", qualifiedName := "A::set"
        parent := some 3, order := 4, payloads := [.map [("setter_for", .string "x")]] } ]
  valid := by decide

/-- What the class takes from its base. -/
def takenGetter : Inheritance := ⟨[(3, { inherited := [{ node := 2, inlinedFrom := some 1 }] })]⟩

theorem inheritedGetter_pairsExactly :
    ∃ markings graph table node, Graph.ofUnit inheritedGetter markings = .ok graph ∧
      ofGraph graph (Visibility.ofGraph graph {}) takenGetter = .ok table ∧
      node ∈ graph.nodes ∧ (Visibility.ofGraph graph {}).isEmitted node.id = true ∧
      node.kind.target = .class ∧ table.get node.id = [⟨"x", 2, some 4, 2⟩] ∧
      Property.PairsExactly graph takenGetter node (table.get node.id) := by
  have isPaired : (Graph.withTable? inheritedGetter).any (fun (_, graph) =>
      (ofGraph graph (Visibility.ofGraph graph {}) takenGetter).toOption.any fun table =>
        graph.nodes.any fun node => (Visibility.ofGraph graph {}).isEmitted node.id &&
          node.kind.target == .class && table.get node.id == [⟨"x", 2, some 4, 2⟩]) = true := by
    decide +kernel
  obtain ⟨markings, graph, _, isGraph, holds⟩ := Graph.exists_of_any isPaired
  obtain ⟨table, built, holds⟩ := exists_ok_of_any holds
  obtain ⟨node, member, holds⟩ := List.any_eq_true.mp holds
  rw [Bool.and_eq_true, Bool.and_eq_true, beq_iff_eq, beq_iff_eq] at holds
  obtain ⟨⟨isEmitted, isClass⟩, properties⟩ := holds
  exact ⟨markings, graph, table, node, isGraph, built, member, isEmitted, isClass, properties,
    ofGraph_pairsExactly isGraph built member isEmitted isClass⟩

end PropertyTable

end Registrar
