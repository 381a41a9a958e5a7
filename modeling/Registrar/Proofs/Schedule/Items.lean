import Mathlib
import Registrar.Proofs.Operator
import Registrar.Proofs.Plan
import Registrar.Proofs.Property
import Registrar.Proofs.TopologicalOrder

/-!
Contract: which items a context has.

Owns: where the items of a context come from, the nodes that they register, and
that putting them in order neither drops nor repeats one.

Does not own: which unit a context has.
-/

set_option autoImplicit false

namespace Registrar.Item

variable {groundwork : Groundwork} {context : Node}

/-! ## Sources -/

/-- Where a registration of a context comes from. -/
inductive Source (groundwork : Groundwork) (context : Node) : Item → Prop where
  | namespaceMember {declared : Node} (below : declared ∈ emittedChildren groundwork context)
      (registered : isNamespaceMember groundwork.operators declared = true) :
      Source groundwork context (.member { node := declared.id })
  | enumerator {declared : Node} (below : declared ∈ emittedChildren groundwork context)
      (isValue : declared.kind.target = .enumerator) :
      Source groundwork context (.member { node := declared.id })
  | classMember {used : Member} {declared : Node} (isClass : context.kind.target = .class)
      (taken : used ∈ groundwork.inheritance.members groundwork.graph groundwork.visibility context)
      (found : groundwork.graph.node? used.node = some declared)
      (registered : isClassMember groundwork.operators declared = true) :
      Source groundwork context (.member used)
  | constructors :
      Source groundwork context (.constructors
        (((emittedChildren groundwork context).filter isConstructor).map fun node => node.id))
  | property {property : Property} (isProperty : property ∈ groundwork.properties.get context.id) :
      Source groundwork context (.property property.name)
  | attached {declared : Node} {id : Nat} (isClass : context.kind.target = .class)
      (owned : id ∈ groundwork.operators.attachedTo context.id)
      (found : groundwork.graph.node? id = some declared) :
      Source groundwork context (.member { node := declared.id })

/-- The item is a manual block of a context. -/
def IsBlock (groundwork : Groundwork) (context : Node) (item : Item) : Prop :=
  ∃ declared ∈ emittedChildren groundwork context,
    isManualBlock declared = true ∧ item = .manualBlock declared.id

theorem source_of_mem_classMembers (isClass : context.kind.target = .class) {placed : PlacedItem}
    (member : placed ∈ classMembers groundwork context) :
    Source groundwork context placed.item := by
  unfold classMembers at member
  obtain ⟨used, taken, isItem⟩ := List.mem_filterMap.mp member
  split at isItem
  · rename_i declared found
    split at isItem
    · rename_i registered
      rw [← Option.some.inj isItem]
      exact .classMember isClass taken found registered
    · cases isItem
  · cases isItem

theorem source_of_mem_registrationsOf {placed : PlacedItem}
    (member : placed ∈ registrationsOf groundwork context) :
    Source groundwork context placed.item := by
  have ofNamespace (listed : placed ∈ ((emittedChildren groundwork context).filter
      (isNamespaceMember groundwork.operators)).map own) :
      Source groundwork context placed.item := by
    obtain ⟨declared, kept, rfl⟩ := List.mem_map.mp listed
    obtain ⟨below, registered⟩ := List.mem_filter.mp kept
    exact .namespaceMember below registered
  unfold registrationsOf at member
  cases kind : context.kind with
  | translationUnit =>
      simp only [kind] at member
      exact ofNamespace member
  | «namespace» isInline =>
      simp only [kind] at member
      exact ofNamespace member
  | «class» bases template =>
      have isClass : context.kind.target = .class := by
        rw [kind]
        rfl
      simp only [kind] at member
      rcases List.mem_append.mp member with others | attached
      · rcases List.mem_append.mp others with others | property
        · rcases List.mem_append.mp others with used | constructors
          · exact source_of_mem_classMembers isClass used
          · unfold constructorsOf at constructors
            dsimp only at constructors
            split at constructors
            · rw [List.mem_singleton.mp constructors]
              exact .constructors
            · cases constructors
        · obtain ⟨found, isProperty, rfl⟩ := List.mem_map.mp property
          exact .property isProperty
      · obtain ⟨declared, listed, rfl⟩ := List.mem_map.mp attached
        obtain ⟨id, owned, found⟩ := Graph.mem_nodesOf.mp listed
        exact .attached isClass owned found
  | enum isScoped =>
      simp only [kind] at member
      obtain ⟨declared, kept, rfl⟩ := List.mem_map.mp member
      obtain ⟨below, isValue⟩ := List.mem_filter.mp kept
      exact .enumerator below (beq_iff_eq.mp isValue)
  | _ => simp [kind] at member

theorem isBlock_of_mem_blocksOf {placed : PlacedItem}
    (member : placed ∈ blocksOf groundwork context) : IsBlock groundwork context placed.item := by
  obtain ⟨declared, kept, rfl⟩ := List.mem_map.mp member
  obtain ⟨below, isInner⟩ := List.mem_filter.mp kept
  unfold isInnerBlock at isInner
  rw [Bool.and_eq_true, Bool.and_eq_true] at isInner
  exact ⟨declared, below, isInner.1.1, rfl⟩

/-- Every item of a context comes from somewhere. -/
theorem source_of_mem_collect {placed : PlacedItem} (member : placed ∈ collect groundwork context) :
    Source groundwork context placed.item ∨ IsBlock groundwork context placed.item := by
  unfold collect at member
  exact (List.mem_append.mp member).imp source_of_mem_registrationsOf isBlock_of_mem_blocksOf

/-- The blocks around everything else are blocks of the root. -/
theorem isBlock_of_mem_rootBlocks {placement : Placement} {item : Item} {root : Node}
    (isRoot : groundwork.graph.node? Graph.root = some root)
    (member : item ∈ Schedule.rootBlocks groundwork placement) :
    IsBlock groundwork root item := by
  unfold Schedule.rootBlocks at member
  simp only [isRoot] at member
  obtain ⟨declared, kept, rfl⟩ := List.mem_map.mp member
  obtain ⟨below, isPlaced⟩ := List.mem_filter.mp kept
  rw [Bool.and_eq_true] at isPlaced
  exact ⟨declared, below, isPlaced.1, rfl⟩

theorem mem_emittedChildren (wired : groundwork.graph.Wired)
    (member : context ∈ groundwork.graph.nodes) {child : Node} :
    child ∈ emittedChildren groundwork context ↔
      (child ∈ groundwork.graph.nodes ∧ child.parent = some context.id) ∧
        groundwork.visibility.isEmitted child.id = true := by
  unfold emittedChildren
  rw [List.mem_filter, wired.mem_childrenOf member]

theorem node?_of_emittedChildren (laid : groundwork.Laid)
    (member : context ∈ groundwork.graph.nodes) {declared : Node}
    (below : declared ∈ emittedChildren groundwork context) :
    groundwork.graph.node? declared.id = some declared :=
  laid.wired.node?_id ((mem_emittedChildren laid.wired member).mp below).1.1

/-! ## Nodes -/

/-- The nodes that an item registers. A property only names its accessors. -/
def nodes : Item → List Nat
  | .member used => [used.node]
  | .constructors nodes => nodes
  | .property _ => []
  | .manualBlock node => [node]

section Nodes

variable {item : Item} (laid : groundwork.Laid) (member : context ∈ groundwork.graph.nodes)

include laid member

/-- What an item registers are nodes. Those that instantiate a template are emitted. -/
theorem Source.exists_node (source : Source groundwork context item) {id : Nat}
    (registers : id ∈ item.nodes) :
    ∃ node, groundwork.graph.node? id = some node ∧
      (node.template = none ∨ groundwork.visibility.isEmitted node.id = true) := by
  have ofChild {declared : Node} (below : declared ∈ emittedChildren groundwork context) :
      ∃ node, groundwork.graph.node? declared.id = some node ∧
        (node.template = none ∨ groundwork.visibility.isEmitted node.id = true) :=
    ⟨declared, node?_of_emittedChildren laid member below,
      .inr ((mem_emittedChildren laid.wired member).mp below).2⟩
  have withoutUse {declared : Node} (found : groundwork.graph.node? id = some declared)
      (noUse : declared.kind.template? = none) :
      ∃ node, groundwork.graph.node? id = some node ∧
        (node.template = none ∨ groundwork.visibility.isEmitted node.id = true) :=
    ⟨declared, found,
      .inl (laid.wired.template_eq_none (Graph.mem_nodes_of_node? found) noUse)⟩
  cases source with
  | namespaceMember below registered =>
      rw [List.mem_singleton.mp registers]
      exact ofChild below
  | enumerator below isValue =>
      rw [List.mem_singleton.mp registers]
      exact ofChild below
  | @classMember used declared isClass taken found registered =>
      rw [← List.mem_singleton.mp registers] at found
      apply withoutUse found
      unfold isClassMember at registered
      cases kind : declared.kind <;> simp_all [DeclarationKind.template?]
  | constructors =>
      obtain ⟨declared, kept, rfl⟩ := List.mem_map.mp registers
      exact ofChild (List.mem_of_mem_filter kept)
  | property => cases registers
  | @attached declared owned isClass isOwned found =>
      rw [laid.operators, OperatorTable.mem_attachedTo laid.wired] at isOwned
      obtain ⟨node, _, isNode, _, isOperator, _⟩ :=
        OperatorTable.exists_node_of_owner? laid.wired isOwned
      have sameId : id = owned := by
        rw [List.mem_singleton.mp registers]
        exact laid.wired.id_eq found
      rw [← sameId] at isNode
      apply withoutUse isNode
      cases kind : node.kind <;> simp_all [DeclarationKind.target, DeclarationKind.template?]

theorem Source.isConstructor_of_mem {ids : List Nat}
    (source : Source groundwork context (.constructors ids)) :
    ∀ id ∈ ids, ∃ node, groundwork.graph.node? id = some node ∧ isConstructor node = true := by
  intro id listed
  cases source with
  | constructors =>
      obtain ⟨declared, kept, rfl⟩ := List.mem_map.mp listed
      obtain ⟨below, isOne⟩ := List.mem_filter.mp kept
      exact ⟨declared, node?_of_emittedChildren laid member below, isOne⟩

theorem IsBlock.exists_node (isBlock : IsBlock groundwork context item) {id : Nat}
    (registers : id ∈ item.nodes) :
    ∃ node, groundwork.graph.node? id = some node ∧
      (node.template = none ∨ groundwork.visibility.isEmitted node.id = true) := by
  obtain ⟨declared, below, _, rfl⟩ := isBlock
  rw [List.mem_singleton.mp registers]
  exact ⟨declared, node?_of_emittedChildren laid member below,
    .inr ((mem_emittedChildren laid.wired member).mp below).2⟩

end Nodes

/-! ## Order -/

theorem filterMap_getElem?_range {α : Type} (items : List α) :
    ((List.range items.length).filterMap fun place => items[place]?) = items := by
  induction items using List.reverseRecOn with
  | nil => rfl
  | append_singleton items last inductionHypothesis =>
      have earlier : ((List.range items.length).filterMap fun place =>
          (items ++ [last])[place]?) = items := by
        have same : ∀ place ∈ List.range items.length,
            (items ++ [last])[place]? = items[place]? := by
          intro place inside
          exact List.getElem?_append_left (List.mem_range.mp inside)
        rw [List.filterMap_congr same]
        exact inductionHypothesis
      rw [List.length_append, List.length_singleton, List.range_succ, List.filterMap_append,
        earlier]
      simp

/-- Putting items in order neither drops nor repeats one. -/
theorem inOrder_perm {graph : Graph} {visibility : Visibility} {items : List PlacedItem}
    {ordered : List Item} (isOrder : inOrder graph visibility items = .ok ordered) :
    ordered.Perm (items.map PlacedItem.item) := by
  unfold inOrder at isOrder
  dsimp only at isOrder
  split at isOrder
  · cases isOrder
  · split at isOrder
    · rename_i places found
      have all := TopologicalOrder.order_perm_of_nodup found List.nodup_range
      rw [← Except.ok.inj isOrder]
      apply List.Perm.map
      have moved := all.filterMap fun place => items[place]?
      rw [filterMap_getElem?_range] at moved
      exact moved
    · cases isOrder

/-- Where items cannot be put in order, there is a fault. -/
theorem inOrder_error_ne_nil {graph : Graph} {visibility : Visibility} {items : List PlacedItem}
    {faults : List Fault} (fails : inOrder graph visibility items = .error faults) :
    faults ≠ [] := by
  unfold inOrder at fails
  dsimp only at fails
  split at fails
  · rename_i hasFaults
    rw [← Except.error.inj fails]
    intro isNil
    rw [isNil] at hasFaults
    cases hasFaults
  · split at fails
    · cases fails
    · rw [← Except.error.inj fails]
      exact List.cons_ne_nil _ _

theorem source_of_mem_ofContext {ordered : List Item}
    (isOrder : ofContext groundwork context = .ok ordered) {item : Item}
    (member : item ∈ ordered) :
    Source groundwork context item ∨ IsBlock groundwork context item := by
  obtain ⟨placed, listed, rfl⟩ := List.mem_map.mp ((inOrder_perm isOrder).mem_iff.mp member)
  exact source_of_mem_collect listed

end Registrar.Item
