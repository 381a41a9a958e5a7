import Mathlib
import Registrar.Property
import Registrar.Proofs.Graph.Tree

/-!
Contract: what the table of properties can be relied on for.

Owns: that a property is read and written by accessor methods of its class, and
that every property has a getter in the graph.

Does not own: which accessors make a property.
-/

set_option autoImplicit false

namespace Registrar

namespace Property

variable {graph : Graph} {inheritance : Inheritance}

/-- The methods that read and write a property. -/
def methods (property : Property) : List Nat := property.getter :: property.setter.toList

theorem accessorMethods_subset (node : Node) :
    accessorMethods graph inheritance node ⊆ graph.nodes := by
  intro method member
  unfold accessorMethods at member
  rcases List.mem_append.mp (List.mem_of_mem_filter member) with own | inherited
  · exact Graph.mem_nodes_of_childrenOf (List.mem_of_mem_filter own)
  · obtain ⟨id, _, found⟩ := Graph.mem_nodesOf.mp inherited
    exact Graph.mem_nodes_of_node? found

theorem method_mem_of_accessor {methods : List Node} {accessor : Accessor}
    (member : accessor ∈ accessors methods) : accessor.method ∈ methods := by
  unfold accessors at member
  obtain ⟨method, listed, isOne⟩ := List.mem_flatMap.mp member
  rcases List.mem_append.mp isOne with reads | writes
  · obtain ⟨property, _, rfl⟩ := List.mem_map.mp reads
    exact listed
  · obtain ⟨property, _, rfl⟩ := List.mem_map.mp writes
    exact listed

theorem holder?_mem {methods : List Node} {property : String} {role : Role} {method : Node}
    (holds : holder? (accessors methods) property role = some method) : method ∈ methods := by
  unfold holder? at holds
  obtain ⟨accessor, isLast, rfl⟩ := Option.map_eq_some_iff.mp holds
  exact method_mem_of_accessor (List.mem_of_mem_filter (List.mem_of_getLast? isLast))

/-- A property is read and written by accessor methods of its class. -/
theorem exists_accessor_of_ofClass {node : Node} {property : Property}
    (member : property ∈ ofClass graph inheritance node) {id : Nat}
    (isMethod : id ∈ property.methods) :
    ∃ accessor ∈ accessorMethods graph inheritance node, accessor.id = id := by
  unfold ofClass at member
  rw [List.mem_mergeSort] at member
  obtain ⟨name, _, isProperty⟩ := List.mem_filterMap.mp member
  unfold ofAccessors? at isProperty
  obtain ⟨getter, holds, rfl⟩ := Option.map_eq_some_iff.mp isProperty
  rcases List.mem_cons.mp isMethod with rfl | isSetter
  · exact ⟨getter, holder?_mem holds, rfl⟩
  · obtain ⟨setter, isHolder, rfl⟩ := Option.map_eq_some_iff.mp (Option.mem_toList.mp isSetter)
    exact ⟨setter, holder?_mem isHolder, rfl⟩

end Property

namespace PropertyTable

variable {graph : Graph} {visibility : Visibility} {inheritance : Inheritance}
  {table : PropertyTable}

theorem exists_entry_of_mem_get {id : Nat} {property : Property}
    (member : property ∈ table.get id) : ∃ entry ∈ table.entries, property ∈ entry.2 := by
  unfold get at member
  cases found : table.entries.find? fun entry => entry.1 == id with
  | none => simp [found] at member
  | some entry =>
      rw [found, Option.map_some, Option.getD_some] at member
      exact ⟨entry, List.mem_of_find?_eq_some found, member⟩

theorem exists_accessor (built : ofGraph graph visibility inheritance = .ok table) {id : Nat}
    {property : Property} (member : property ∈ table.get id) {method : Nat}
    (isMethod : method ∈ property.methods) :
    ∃ node, ∃ accessor ∈ Property.accessorMethods graph inheritance node,
      accessor.id = method := by
  obtain ⟨entry, isEntry, listed⟩ := exists_entry_of_mem_get member
  unfold ofGraph at built
  dsimp only at built
  split at built
  · rw [← Except.ok.inj built] at isEntry
    obtain ⟨node, _, rfl⟩ := List.mem_map.mp (List.mem_of_mem_filter isEntry)
    exact ⟨node, Property.exists_accessor_of_ofClass listed isMethod⟩
  · cases built

/-- Every property has a getter in the graph. -/
theorem exists_getter (wired : graph.Wired)
    (built : ofGraph graph visibility inheritance = .ok table) {id : Nat} {property : Property}
    (member : property ∈ table.get id) :
    ∃ getter, graph.node? property.getter = some getter := by
  obtain ⟨node, getter, isAccessor, isGetter⟩ := exists_accessor built member List.mem_cons_self
  rw [← isGetter]
  exact ⟨getter, wired.node?_id (Property.accessorMethods_subset node isAccessor)⟩

end PropertyTable

end Registrar
