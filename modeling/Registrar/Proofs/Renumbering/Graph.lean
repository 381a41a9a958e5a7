import Mathlib
import Registrar.Proofs.Graph.Tree
import Registrar.Proofs.Renumbering.Entities

/-!
Contract: graphs under other numbers.

Owns: that walking up and down a graph and looking up names in it come to the
same nodes, whatever numbers the nodes have.

Does not own: that a unit in another order has such a graph.
-/

set_option autoImplicit false

namespace Registrar

/-! ## Nodes -/

/-- The node under another number. -/
def Node.renumber (number : Nat → Nat) (node : Node) : Node :=
  { node.toEntity.renumber number with
    parent := node.parent.map number
    children := node.children.map number
    template := node.template.map number
    relocatedBy := node.relocatedBy.map number
    relocates := node.relocates.map number }

namespace Node

variable {number : Nat → Nat}

/-- What the numbers of nodes do not enter stays as it is. -/
@[simp]
theorem renumber_id (node : Node) : (node.renumber number).id = number node.id := rfl

@[simp]
theorem renumber_kind (node : Node) : (node.renumber number).kind = node.kind := rfl

@[simp]
theorem renumber_name (node : Node) : (node.renumber number).name = node.name := rfl

@[simp]
theorem renumber_qualifiedName (node : Node) :
    (node.renumber number).qualifiedName = node.qualifiedName := rfl

@[simp]
theorem renumber_order (node : Node) : (node.renumber number).order = node.order := rfl

@[simp]
theorem renumber_marking (node : Node) : (node.renumber number).marking = node.marking := rfl

@[simp]
theorem renumber_access (node : Node) : (node.renumber number).access = node.access := rfl

@[simp]
theorem renumber_parent (node : Node) :
    (node.renumber number).parent = node.parent.map number := rfl

@[simp]
theorem renumber_children (node : Node) :
    (node.renumber number).children = node.children.map number := rfl

@[simp]
theorem renumber_template (node : Node) :
    (node.renumber number).template = node.template.map number := rfl

theorem relocatingAlias?_renumber (injective : Function.Injective number) (node : Node) :
    (node.renumber number).relocatingAlias? = node.relocatingAlias?.map number := by
  have isSame : (fun requestedBy => requestedBy != node.id) =
      (fun requestedBy => requestedBy != number node.id) ∘ number := by
    funext requestedBy
    exact congrArg not injective.beq_eq.symm
  unfold relocatingAlias?
  rw [isSame]
  exact Option.filter_map

theorem relocatedByAlias_renumber (injective : Function.Injective number) (node : Node) :
    (node.renumber number).relocatedByAlias = node.relocatedByAlias := by
  unfold relocatedByAlias
  rw [relocatingAlias?_renumber injective, Option.isSome_map]

end Node

namespace Graph

/-- The other graph is the graph under other numbers. -/
structure Renumbers (number : Nat → Nat) (graph other : Graph) : Prop where
  wired : graph.Wired
  otherWired : other.Wired
  entities : Entity.Renumbers number graph.entities other.entities
  node?_eq : ∀ id, other.node? (number id) = (graph.node? id).map (Node.renumber number)

namespace Renumbers

variable {number : Nat → Nat} {graph other : Graph}

theorem injective (renumbers : Renumbers number graph other) : Function.Injective number :=
  renumbers.entities.injective

theorem number_root (renumbers : Renumbers number graph other) : number root = root :=
  renumbers.entities.root

theorem number_eq_root_iff (renumbers : Renumbers number graph other) {id : Nat} :
    number id = root ↔ id = root := by
  conv_lhs => rw [← renumbers.number_root]
  exact renumbers.injective.eq_iff

theorem size_eq (renumbers : Renumbers number graph other) : other.size = graph.size := by
  have sameLength := renumbers.entities.length_eq
  unfold Graph.entities at sameLength
  rwa [List.length_map, List.length_map] at sameLength

theorem root_eq (renumbers : Renumbers number graph other) :
    other.node? root = (graph.node? root).map (Node.renumber number) := by
  rw [← renumbers.node?_eq, renumbers.number_root]

theorem bind_node?_eq (renumbers : Renumbers number graph other) (id : Option Nat) :
    (id.map number).bind other.node? = (id.bind graph.node?).map (Node.renumber number) := by
  rw [Option.bind_map, Option.map_bind]
  exact Option.bind_congr fun found _ => renumbers.node?_eq found

theorem renumber_mem (renumbers : Renumbers number graph other) {node : Node}
    (member : node ∈ graph.nodes) : node.renumber number ∈ other.nodes := by
  have found : other.node? (number node.id) = some (node.renumber number) := by
    rw [renumbers.node?_eq, renumbers.wired.node?_id member, Option.map_some]
  exact mem_nodes_of_node? found

/-- Every node of the other graph is a node of the graph under another number. -/
theorem mem_iff (renumbers : Renumbers number graph other) (found : Node) :
    found ∈ other.nodes ↔ ∃ node ∈ graph.nodes, node.renumber number = found := by
  constructor
  · intro member
    obtain ⟨entity, isEntity, same⟩ :=
      (renumbers.entities.mem_iff found.toEntity).mp (List.mem_map_of_mem member)
    obtain ⟨node, nodeMember, rfl⟩ := List.mem_map.mp isEntity
    have sameId : number node.id = found.id := congrArg Entity.id same
    have isFound := renumbers.otherWired.node?_id member
    rw [← sameId, renumbers.node?_eq, renumbers.wired.node?_id nodeMember] at isFound
    exact ⟨node, nodeMember, Option.some.inj isFound⟩
  · rintro ⟨node, member, rfl⟩
    exact renumbers.renumber_mem member

/-- Nodes in one place in the source are one node. -/
theorem eq_of_order_eq (renumbers : Renumbers number graph other) {left right : Node}
    (leftMember : left ∈ graph.nodes) (rightMember : right ∈ graph.nodes)
    (sameOrder : left.order = right.order) : left = right := by
  have sameEntity : left.toEntity = right.toEntity :=
    renumbers.entities.eq_of_order_eq (List.mem_map_of_mem leftMember)
      (List.mem_map_of_mem rightMember) sameOrder
  exact renumbers.wired.eq_of_id_eq leftMember rightMember (congrArg Entity.id sameEntity)

theorem nodesOf_eq (renumbers : Renumbers number graph other) (ids : List Nat) :
    other.nodesOf (ids.map number) = (graph.nodesOf ids).map (Node.renumber number) := by
  unfold nodesOf
  rw [List.filterMap_map, List.map_filterMap]
  exact List.filterMap_congr fun id _ => renumbers.node?_eq id

theorem childrenOf_eq (renumbers : Renumbers number graph other) (node : Node) :
    other.childrenOf (node.renumber number) =
      (graph.childrenOf node).map (Node.renumber number) :=
  renumbers.nodesOf_eq node.children

theorem ancestorsWithin_eq (renumbers : Renumbers number graph other) (steps : Nat)
    (node : Node) :
    other.ancestorsWithin steps (node.renumber number) =
      (graph.ancestorsWithin steps node).map (Node.renumber number) := by
  induction steps generalizing node with
  | zero => rfl
  | succ steps inductionHypothesis =>
      rw [ancestorsWithin, ancestorsWithin, Node.renumber_parent, renumbers.bind_node?_eq]
      cases node.parent.bind graph.node? with
      | none => rfl
      | some parent =>
          rw [Option.map_some]
          dsimp only
          rw [inductionHypothesis, List.map_cons]

theorem ancestors_eq (renumbers : Renumbers number graph other) (node : Node) :
    other.ancestors (node.renumber number) =
      (graph.ancestors node).map (Node.renumber number) := by
  unfold ancestors
  rw [renumbers.size_eq, renumbers.ancestorsWithin_eq]

theorem resolveType_eq (renumbers : Renumbers number graph other) (name : String) :
    other.resolveType name = (graph.resolveType name).map number :=
  renumbers.entities.resolveType_eq name

end Renumbers

end Graph

end Registrar
