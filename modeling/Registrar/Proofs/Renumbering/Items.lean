import Mathlib
import Registrar.Proofs.Renumbering.Operators
import Registrar.Proofs.Renumbering.Properties
import Registrar.Proofs.Schedule.Exchange

/-!
Contract: items of contexts in a graph under other numbers.

Owns: that the same items stand in the same order in every context.

Does not own: in which order the contexts are registered.
-/

set_option autoImplicit false

namespace Registrar

variable {number : Nat → Nat}

/-- Everything that is known before registrations are put in order is the same
under other numbers. -/
structure Groundwork.Renumbers (number : Nat → Nat) (groundwork other : Groundwork) : Prop where
  laid : groundwork.Laid
  otherLaid : other.Laid
  graph : Graph.Renumbers number groundwork.graph other.graph
  visibility : Visibility.Renumbers number groundwork.visibility other.visibility
  inheritance : Inheritance.Renumbers number groundwork.inheritance other.inheritance
  properties : PropertyTable.Renumbers number groundwork.properties other.properties

namespace Groundwork.Renumbers

variable {groundwork other : Groundwork}

theorem operators (renumbers : Renumbers number groundwork other) :
    OperatorTable.Renumbers number groundwork.operators other.operators := by
  rw [renumbers.laid.operators, renumbers.otherLaid.operators]
  exact OperatorTable.ofGraph_renumbers renumbers.graph renumbers.visibility renumbers.inheritance

theorem attachedTo (renumbers : Renumbers number groundwork other) (id : Nat) :
    (other.operators.attachedTo (number id)).Perm
      ((groundwork.operators.attachedTo id).map number) := by
  rw [renumbers.laid.operators, renumbers.otherLaid.operators]
  exact OperatorTable.attachedTo_perm renumbers.graph renumbers.visibility renumbers.inheritance id

theorem emittedNodes (renumbers : Renumbers number groundwork other) :
    (other.graph.nodesOf other.visibility.emitted).Perm
      ((groundwork.graph.nodesOf groundwork.visibility.emitted).map (Node.renumber number)) :=
  Visibility.emittedNodes_perm renumbers.graph renumbers.visibility renumbers.laid.decided
    renumbers.otherLaid.decided

end Groundwork.Renumbers

namespace Item

def renumber (number : Nat → Nat) : Item → Item
  | .member used => .member (used.renumber number)
  | .constructors nodes => .constructors (nodes.map number)
  | .property name => .property name
  | .manualBlock node => .manualBlock (number node)

end Item

def PlacedItem.renumber (number : Nat → Nat) (placed : PlacedItem) : PlacedItem :=
  { placed with item := placed.item.renumber number }

namespace Item

/-! ## Ordering -/

def Anchoring.renumber (number : Nat → Nat) (anchoring : Anchoring) : Anchoring :=
  { anchoring with node := number anchoring.node }

section Order

variable {graph other : Graph} {visibility otherVisibility : Visibility}

theorem name?_renumber (same : Visibility.Renumbers number visibility otherVisibility)
    (item : Item) : (item.renumber number).name? otherVisibility = item.name? visibility := by
  cases item with
  | member used => exact congrArg some (same.exposedName used.node)
  | _ => rfl

theorem anchor?_renumber (renumbers : Graph.Renumbers number graph other) (item : Item) :
    (item.renumber number).anchor? other = item.anchor? graph := by
  cases item with
  | manualBlock node =>
      simp only [renumber, anchor?]
      rw [renumbers.node?_eq]
      cases graph.node? node <;> rfl
  | _ => rfl

theorem label_renumber (same : Visibility.Renumbers number visibility otherVisibility)
    (placed : PlacedItem) :
    label otherVisibility (placed.renumber number) = label visibility placed :=
  congrArg (fun name => name.getD "<manual block>") (name?_renumber same placed.item)

theorem anchorings_renumber (renumbers : Graph.Renumbers number graph other)
    (same : Visibility.Renumbers number visibility otherVisibility) (items : List PlacedItem) :
    anchorings other otherVisibility (items.map (PlacedItem.renumber number)) =
      (anchorings graph visibility items).map (Anchoring.renumber number) := by
  have sameNames : (items.map (PlacedItem.renumber number)).map
      (fun placed => placed.item.name? otherVisibility) =
      items.map fun placed => placed.item.name? visibility := by
    rw [List.map_map]
    exact List.map_congr_left fun placed _ => name?_renumber same placed.item
  unfold anchorings
  dsimp only
  rw [sameNames, List.zipIdx_map, List.filterMap_map, List.map_filterMap]
  refine List.filterMap_congr ?_
  rintro ⟨⟨item, order⟩, place⟩ _
  simp only [Function.comp_apply, Prod.map_apply, PlacedItem.renumber, id_eq]
  rw [anchor?_renumber renumbers]
  cases item with
  | manualBlock node =>
      cases (manualBlock node).anchor? graph <;> rfl
  | _ => rfl

theorem anchorFault?_renumber (renumbers : Graph.Renumbers number graph other)
    (anchoring : Anchoring) :
    anchorFault? other (anchoring.renumber number) = anchorFault? graph anchoring := by
  have sameNode : other.node? (anchoring.renumber number).node =
      (graph.node? anchoring.node).map (Node.renumber number) :=
    renumbers.node?_eq anchoring.node
  unfold anchorFault?
  rw [sameNode, Option.map_map]
  rfl

theorem keyAt_renumber (orders : List Nat) (all : List Anchoring) :
    keyAt orders (all.map (Anchoring.renumber number)) = keyAt orders all := by
  funext place
  unfold keyAt
  dsimp only
  rw [List.find?_map]
  cases found : all.find? ((fun anchoring => anchoring.place == place) ∘
      Anchoring.renumber number) with
  | none =>
      have same : all.find? (fun anchoring => anchoring.place == place) = none := found
      rw [same]
      rfl
  | some anchoring =>
      have same : all.find? (fun anchoring => anchoring.place == place) = some anchoring := found
      rw [same]
      rfl

theorem predecessors_renumber (all : List Anchoring) :
    predecessors (all.map (Anchoring.renumber number)) = predecessors all := by
  funext place
  unfold predecessors
  rw [List.flatMap_map]
  rfl

/-- Items under other numbers are put in order alike, and the same faults keep
them from it. -/
theorem inOrder_renumber (renumbers : Graph.Renumbers number graph other)
    (same : Visibility.Renumbers number visibility otherVisibility) (items : List PlacedItem) :
    inOrder other otherVisibility (items.map (PlacedItem.renumber number)) =
      (inOrder graph visibility items).map (List.map (renumber number)) := by
  have sameOrders : (items.map (PlacedItem.renumber number)).map PlacedItem.order =
      items.map PlacedItem.order := by
    rw [List.map_map]
    rfl
  have sameFaults : ((anchorings graph visibility items).map
      (Anchoring.renumber number)).filterMap (anchorFault? other) =
      (anchorings graph visibility items).filterMap (anchorFault? graph) := by
    rw [List.filterMap_map]
    exact List.filterMap_congr fun anchoring _ => anchorFault?_renumber renumbers anchoring
  have found (places : List Nat) :
      places.filterMap (fun place => (items.map (PlacedItem.renumber number))[place]?) =
        (places.filterMap fun place => items[place]?).map (PlacedItem.renumber number) := by
    rw [List.map_filterMap]
    exact List.filterMap_congr fun place _ => List.getElem?_map
  unfold inOrder
  dsimp only
  rw [anchorings_renumber renumbers same, sameFaults, sameOrders, keyAt_renumber,
    predecessors_renumber, List.length_map]
  split
  · rfl
  · split
    · rw [found, List.map_map]
      simp only [Except.map, List.map_map]
      rfl
    · rw [found, List.map_map]
      simp only [Except.map]
      congr 4
      exact List.map_congr_left fun placed _ => label_renumber same placed

end Order

/-! ## Collecting -/

section Collect

variable {groundwork other : Groundwork}

theorem emittedChildren_renumber (renumbers : Groundwork.Renumbers number groundwork other)
    (node : Node) :
    emittedChildren other (node.renumber number) =
      (emittedChildren groundwork node).map (Node.renumber number) := by
  unfold emittedChildren
  rw [renumbers.graph.childrenOf_eq, List.filter_map]
  congr 2
  funext child
  exact renumbers.visibility.emitted child.id

/-- The children of one sort are the same. -/
theorem selected_renumber (renumbers : Groundwork.Renumbers number groundwork other)
    (select selectOther : Node → Bool)
    (sameSort : ∀ node : Node, selectOther (node.renumber number) = select node) (node : Node) :
    (emittedChildren other (node.renumber number)).filter selectOther =
      ((emittedChildren groundwork node).filter select).map (Node.renumber number) := by
  rw [emittedChildren_renumber renumbers, List.filter_map]
  congr 2
  funext child
  exact sameSort child

theorem isNamespaceMember_renumber {operators otherOperators : OperatorTable}
    (same : OperatorTable.Renumbers number operators otherOperators) (node : Node) :
    isNamespaceMember otherOperators (node.renumber number) = isNamespaceMember operators node := by
  unfold isNamespaceMember
  rw [Node.renumber_kind, Node.renumber_id, same.owner?_eq, Option.isNone_map,
    Node.renumber_marking]

theorem isClassMember_renumber {operators otherOperators : OperatorTable}
    (same : OperatorTable.Renumbers number operators otherOperators) (node : Node) :
    isClassMember otherOperators (node.renumber number) = isClassMember operators node := by
  have sameAccessor : Property.isAccessor (node.renumber number) = Property.isAccessor node := rfl
  unfold isClassMember
  rw [Node.renumber_kind, Node.renumber_id, same.slot?_eq, Node.renumber_marking, sameAccessor]

theorem classMembers_renumber (renumbers : Groundwork.Renumbers number groundwork other)
    (node : Node) :
    classMembers other (node.renumber number) =
      (classMembers groundwork node).map (PlacedItem.renumber number) := by
  unfold classMembers
  rw [renumbers.inheritance.members_eq renumbers.graph renumbers.visibility,
    List.filterMap_map, List.map_filterMap]
  refine List.filterMap_congr fun used _ => ?_
  have sameNode : other.graph.node? (used.renumber number).node =
      (groundwork.graph.node? used.node).map (Node.renumber number) :=
    renumbers.graph.node?_eq used.node
  rw [Function.comp_apply, sameNode]
  cases groundwork.graph.node? used.node with
  | none => rfl
  | some declared =>
      simp only [Option.map_some, isClassMember_renumber renumbers.operators]
      cases isClassMember groundwork.operators declared <;> rfl

theorem constructorsOf_renumber (renumbers : Groundwork.Renumbers number groundwork other)
    (node : Node) :
    constructorsOf other (node.renumber number) =
      (constructorsOf groundwork node).map (PlacedItem.renumber number) := by
  have sameOrders (nodes : List Node) : (nodes.map (Node.renumber number)).map
      (fun constructor => constructor.order) = nodes.map fun constructor => constructor.order := by
    rw [List.map_map]
    rfl
  have sameIds (nodes : List Node) : (nodes.map (Node.renumber number)).map
      (fun constructor => constructor.id) =
        (nodes.map fun constructor => constructor.id).map number := by
    rw [List.map_map, List.map_map]
    rfl
  unfold constructorsOf
  dsimp only
  rw [selected_renumber renumbers isConstructor isConstructor fun _ => rfl, sameOrders, sameIds]
  split <;> rfl

theorem propertiesOf_renumber (renumbers : Groundwork.Renumbers number groundwork other)
    (node : Node) :
    propertiesOf other (node.renumber number) =
      (propertiesOf groundwork node).map (PlacedItem.renumber number) := by
  unfold propertiesOf
  rw [Node.renumber_id, renumbers.properties, List.map_map, List.map_map]
  rfl

theorem map_own_renumber (nodes : List Node) :
    (nodes.map (Node.renumber number)).map own =
      (nodes.map own).map (PlacedItem.renumber number) := by
  rw [List.map_map, List.map_map]
  rfl

/-- The operators attached to a class are the same, if in another order. -/
theorem attachedOperators_perm (renumbers : Groundwork.Renumbers number groundwork other)
    (node : Node) :
    (attachedOperators other (node.renumber number)).Perm
      ((attachedOperators groundwork node).map (PlacedItem.renumber number)) := by
  have moved := ((renumbers.attachedTo node.id).filterMap other.graph.node?).map own
  have sameNodes : ((groundwork.operators.attachedTo node.id).map number).filterMap
      other.graph.node? =
      (groundwork.graph.nodesOf (groundwork.operators.attachedTo node.id)).map
        (Node.renumber number) :=
    renumbers.graph.nodesOf_eq _
  rw [sameNodes, map_own_renumber] at moved
  exact moved

theorem attachedOperators_ordersApart (renumbers : Groundwork.Renumbers number groundwork other)
    (node : Node) :
    ((attachedOperators groundwork node).map PlacedItem.order).Nodup := by
  have distinct : (groundwork.graph.nodesOf
      (groundwork.operators.attachedTo node.id)).Nodup := by
    rw [renumbers.laid.operators]
    refine (OperatorTable.attachedTo_nodup renumbers.laid.wired node.id).filterMap ?_
    intro left right found isLeft isRight
    rw [← renumbers.graph.wired.id_eq isLeft, ← renumbers.graph.wired.id_eq isRight]
  unfold attachedOperators
  rw [List.map_map]
  refine distinct.map_on ?_
  intro left leftListed right rightListed sameOrder
  obtain ⟨leftId, _, isLeft⟩ := Graph.mem_nodesOf.mp leftListed
  obtain ⟨rightId, _, isRight⟩ := Graph.mem_nodesOf.mp rightListed
  exact renumbers.graph.eq_of_order_eq (Graph.mem_nodes_of_node? isLeft)
    (Graph.mem_nodes_of_node? isRight) sameOrder

theorem blocksOf_renumber (renumbers : Groundwork.Renumbers number groundwork other)
    (node : Node) :
    blocksOf other (node.renumber number) =
      (blocksOf groundwork node).map (PlacedItem.renumber number) := by
  unfold blocksOf
  rw [selected_renumber renumbers isInnerBlock isInnerBlock fun _ => rfl, List.map_map,
    List.map_map]
  rfl

theorem selectedMembers_renumber (renumbers : Groundwork.Renumbers number groundwork other)
    (select selectOther : Node → Bool)
    (sameSort : ∀ node : Node, selectOther (node.renumber number) = select node) (node : Node) :
    ((emittedChildren other (node.renumber number)).filter selectOther).map own =
      (((emittedChildren groundwork node).filter select).map own).map
        (PlacedItem.renumber number) := by
  rw [selected_renumber renumbers select selectOther sameSort, map_own_renumber]

/-- The operators attached to a class are its last registrations. Before them, the
registrations of a context are collected in the same order. -/
theorem registrationsOf_renumber (renumbers : Groundwork.Renumbers number groundwork other)
    (node : Node) :
    registrationsOf other (node.renumber number) =
        (registrationsOf groundwork node).map (PlacedItem.renumber number) ∨
      ∃ collected, registrationsOf groundwork node =
          collected ++ attachedOperators groundwork node ∧
        registrationsOf other (node.renumber number) =
          collected.map (PlacedItem.renumber number) ++
            attachedOperators other (node.renumber number) := by
  have ofNamespace := selectedMembers_renumber renumbers _ _
    (isNamespaceMember_renumber renumbers.operators) node
  unfold registrationsOf
  rw [Node.renumber_kind]
  cases node.kind with
  | translationUnit => exact .inl ofNamespace
  | «namespace» isInline => exact .inl ofNamespace
  | «class» bases template =>
      refine .inr ⟨_, rfl, ?_⟩
      dsimp only
      rw [classMembers_renumber renumbers, constructorsOf_renumber renumbers,
        propertiesOf_renumber renumbers, List.map_append, List.map_append]
  | enum isScoped =>
      exact .inl (selectedMembers_renumber renumbers _ _ (fun _ => rfl) node)
  | _ => exact .inl rfl

/-- Every context has the same items in the same order. -/
theorem ofContext_renumber (renumbers : Groundwork.Renumbers number groundwork other)
    (node : Node) :
    ofContext other (node.renumber number) =
      (ofContext groundwork node).map (List.map (renumber number)) := by
  unfold ofContext
  rw [← inOrder_renumber renumbers.graph renumbers.visibility]
  unfold collect
  rw [blocksOf_renumber renumbers, List.map_append]
  rcases registrationsOf_renumber renumbers node with same | ⟨collected, split, splitOther⟩
  · rw [same]
  · rw [split, splitOther, List.map_append]
    apply inOrder_eq_of_perm (attachedOperators_perm renumbers node)
    · intro placed listed
      obtain ⟨original, isAttached, rfl⟩ := List.mem_map.mp listed
      obtain ⟨operator, _, rfl⟩ := List.mem_map.mp isAttached
      rfl
    · rw [List.map_map]
      exact attachedOperators_ordersApart renumbers node

end Collect

end Item

end Registrar
