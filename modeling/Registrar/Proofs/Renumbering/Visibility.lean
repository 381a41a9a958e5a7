import Mathlib
import Registrar.Proofs.Renumbering.Graph
import Registrar.Proofs.Visibility

/-!
Contract: what is exposed of a graph under other numbers.

Owns: that the same nodes are visible and emitted, under the same names.

Does not own: the names of instantiations.
-/

set_option autoImplicit false

namespace Registrar

variable {number : Nat → Nat} {graph other : Graph} {configuration : Configuration}

/-! ## Requests -/

theorem InstantiationRequest.byTemplate?_renumber
    (renumbers : Graph.Renumbers number graph other) (node : Node) :
    byTemplate? other (node.renumber number) = byTemplate? graph node := by
  unfold byTemplate?
  rw [Node.renumber_template, renumbers.bind_node?_eq, Node.renumber_kind]
  cases node.template.bind graph.node? <;> rfl

namespace Visibility

/-- The other decisions are the decisions under other numbers. -/
structure Renumbers (number : Nat → Nat) (visibility other : Visibility) : Prop where
  visible : ∀ id, other.isVisible (number id) = visibility.isVisible id
  emitted : ∀ id, other.isEmitted (number id) = visibility.isEmitted id
  exposedName : ∀ id, other.exposedName (number id) = visibility.exposedName id

/-! ## Visible nodes -/

theorem onRequest_renumber (renumbers : Graph.Renumbers number graph other) (node : Node)
    (inherited : Bool) :
    onRequest other (node.renumber number) inherited = onRequest graph node inherited := by
  unfold onRequest
  rw [InstantiationRequest.byTemplate?_renumber renumbers, Node.renumber_template,
    renumbers.bind_node?_eq]
  cases node.template.bind graph.node? <;> rfl

theorem mem_encouraged {id : Nat} :
    id ∈ encouraged graph ↔ ∃ node ∈ graph.nodes, node.marking.encourage = true ∧
      ∃ target, node.kind = .typeAlias (some target) ∧ graph.resolveType target = some id := by
  unfold encouraged
  rw [List.mem_filterMap]
  refine exists_congr fun node => and_congr_right fun _ => ?_
  cases node.marking.encourage with
  | false => simp
  | true =>
      rw [if_pos rfl]
      cases kind : node.kind with
      | typeAlias target => cases target <;> simp
      | _ => simp

theorem encouraged_renumber (renumbers : Graph.Renumbers number graph other) (id : Nat) :
    (encouraged other).contains (number id) = (encouraged graph).contains id := by
  rw [Bool.eq_iff_iff, List.contains_iff_mem, List.contains_iff_mem, mem_encouraged,
    mem_encouraged]
  constructor
  · rintro ⟨found, member, encourages, target, isAlias, resolves⟩
    obtain ⟨node, nodeMember, rfl⟩ := (renumbers.mem_iff found).mp member
    refine ⟨node, nodeMember, encourages, target, isAlias, ?_⟩
    rw [renumbers.resolveType_eq, Option.map_eq_some_iff] at resolves
    obtain ⟨same, isSame, sameNumber⟩ := resolves
    rw [isSame, renumbers.injective sameNumber]
  · rintro ⟨node, member, encourages, target, isAlias, resolves⟩
    refine ⟨node.renumber number, renumbers.renumber_mem member, encourages, target, isAlias, ?_⟩
    rw [renumbers.resolveType_eq, resolves, Option.map_some]

theorem decide_renumber (renumbers : Graph.Renumbers number graph other) (node : Node)
    (inherited restricted : Bool) :
    decide other (encouraged other) (node.renumber number) inherited restricted =
      decide graph (encouraged graph) node inherited restricted := by
  have isImplicit : isImplicitInstantiation (node.renumber number) =
      isImplicitInstantiation node := rfl
  unfold decide
  rw [Node.renumber_kind, Node.renumber_access, Node.renumber_marking, Node.renumber_id,
    encouraged_renumber renumbers, isImplicit,
    Node.relocatedByAlias_renumber renumbers.injective, onRequest_renumber renumbers]

theorem handedDown_renumber (renumbers : Graph.Renumbers number graph other) (mover : Nat) :
    handedDown other (number mover) = handedDown graph mover := by
  unfold handedDown
  rw [renumbers.node?_eq]
  cases graph.node? mover <;> rfl

theorem visibleAlong_renumber (renumbers : Graph.Renumbers number graph other)
    (way : List Node) :
    visibleAlong other configuration (encouraged other) (way.map (Node.renumber number)) =
      visibleAlong graph configuration (encouraged graph) way := by
  induction way with
  | nil => rfl
  | cons node above inductionHypothesis =>
      have restricts_eq : ((node :: above).map (Node.renumber number)).any
          (restricts configuration) = (node :: above).any (restricts configuration) := by
        rw [List.any_map]
        rfl
      rw [List.map_cons] at restricts_eq ⊢
      simp only [visibleAlong]
      rw [restricts_eq, Node.relocatingAlias?_renumber renumbers.injective,
        decide_renumber renumbers]
      cases node.relocatingAlias? with
      | none => rw [Option.map_none, inductionHypothesis]
      | some mover =>
          rw [Option.map_some]
          dsimp only
          rw [handedDown_renumber renumbers]

theorem nameOf_renumber (renumbers : Graph.Renumbers number graph other) (node : Node) :
    nameOf other configuration (node.renumber number) = nameOf graph configuration node := by
  unfold nameOf
  rw [Node.relocatingAlias?_renumber renumbers.injective, renumbers.bind_node?_eq,
    Node.renumber_marking, Node.renumber_kind, Node.renumber_name]
  cases node.marking.exposeAs with
  | some name => rfl
  | none => cases node.relocatingAlias?.bind graph.node? <;> rfl

/-! ## Decisions -/

theorem isVisible_ofGraph_renumber (renumbers : Graph.Renumbers number graph other) (id : Nat) :
    (ofGraph other configuration).isVisible (number id) =
      (ofGraph graph configuration).isVisible id := by
  unfold isVisible
  rw [decision?_ofGraph, decision?_ofGraph, renumbers.node?_eq]
  cases graph.node? id with
  | none => rfl
  | some node =>
      have wayUp_eq : wayUp other (node.renumber number) =
          (wayUp graph node).map (Node.renumber number) := by
        unfold wayUp
        rw [renumbers.ancestors_eq, List.map_cons]
      simp only [Option.map_some, decisionOf, wayUp_eq]
      exact visibleAlong_renumber renumbers (wayUp graph node)

theorem exposedName_ofGraph_renumber (renumbers : Graph.Renumbers number graph other)
    (id : Nat) :
    (ofGraph other configuration).exposedName (number id) =
      (ofGraph graph configuration).exposedName id := by
  unfold exposedName
  rw [decision?_ofGraph, decision?_ofGraph, renumbers.node?_eq]
  cases graph.node? id with
  | none => rfl
  | some node => simp only [Option.map_some, decisionOf, nameOf_renumber renumbers]

/-! ## Emitted nodes -/

section Emitted

variable {isVisible isVisibleOther : Node → Bool}
  (sameVisible : ∀ node : Node, isVisibleOther (node.renumber number) = isVisible node)

include sameVisible

theorem scopeOpen_renumber (way : List Node) :
    scopeOpen isVisibleOther (way.map (Node.renumber number)) = scopeOpen isVisible way := by
  induction way with
  | nil => rfl
  | cons scope above inductionHypothesis =>
      simp only [List.map_cons, scopeOpen]
      rw [Node.renumber_kind, inductionHypothesis, sameVisible]

theorem emitsInScope_renumber (renumbers : Graph.Renumbers number graph other) (depth : Nat)
    (node : Node) :
    emitsInScope other isVisibleOther depth (node.renumber number) =
      emitsInScope graph isVisible depth node := by
  induction depth generalizing node with
  | zero => rfl
  | succ depth inductionHypothesis =>
      have sameChildren : (other.childrenOf (node.renumber number)).any
          (emitsInScope other isVisibleOther depth) =
          (graph.childrenOf node).any (emitsInScope graph isVisible depth) := by
        rw [renumbers.childrenOf_eq, List.any_map]
        congr 1
        funext child
        exact inductionHypothesis child
      have sameRelocates : (node.renumber number).relocates.isNone = node.relocates.isNone :=
        Option.isNone_map
      unfold emitsInScope
      rw [sameChildren, sameRelocates, sameVisible, Node.renumber_kind, Node.renumber_marking]

theorem emits_renumber (renumbers : Graph.Renumbers number graph other) (node : Node) :
    emits other isVisibleOther (node.renumber number) = emits graph isVisible node := by
  unfold emits
  rw [renumbers.ancestors_eq, scopeOpen_renumber sameVisible, renumbers.size_eq,
    emitsInScope_renumber sameVisible renumbers, Node.renumber_kind]

end Emitted

theorem isEmitted_ofGraph (wired : graph.Wired) (id : Nat) :
    (ofGraph graph configuration).isEmitted id =
      (graph.node? id).any (emits graph fun node =>
        (ofGraph graph configuration).isVisible node.id) := by
  rw [Bool.eq_iff_iff]
  cases found : graph.node? id with
  | none =>
      rw [Option.any_none]
      refine ⟨fun inside => ?_, nofun⟩
      unfold isEmitted at inside
      rw [List.contains_iff_mem] at inside
      obtain ⟨node, _, _, isFound⟩ :=
        (ofGraph_decided graph configuration).exists_node wired inside
      rw [found] at isFound
      cases isFound
  | some node =>
      rw [Option.any_some, ← wired.id_eq found]
      exact isEmitted_iff_emits wired rfl (Graph.mem_nodes_of_node? found)

/-- Under other numbers the same nodes are visible and emitted. -/
theorem ofGraph_renumbers (renumbers : Graph.Renumbers number graph other) :
    Renumbers number (ofGraph graph configuration) (ofGraph other configuration) where
  visible := isVisible_ofGraph_renumber renumbers
  emitted := by
    intro id
    rw [isEmitted_ofGraph renumbers.wired, isEmitted_ofGraph renumbers.otherWired,
      renumbers.node?_eq, Option.any_map]
    congr 1
    funext node
    exact emits_renumber (fun found => isVisible_ofGraph_renumber renumbers found.id)
      renumbers node
  exposedName := exposedName_ofGraph_renumber renumbers

theorem emittedNodes_nodup {visibility : Visibility} (wired : graph.Wired)
    (decided : visibility.Decided graph) : (graph.nodesOf visibility.emitted).Nodup := by
  apply List.Nodup.of_map fun node => node.id
  rw [wired.map_id_nodesOf]
  · exact decided.emitted_nodup wired
  · intro id emitted
    obtain ⟨node, _, _, isNode⟩ := decided.exists_node wired emitted
    exact Graph.node?_lt isNode

/-- The emitted nodes are the same. -/
theorem emittedNodes_perm {visibility otherVisibility : Visibility}
    (renumbers : Graph.Renumbers number graph other)
    (same : Renumbers number visibility otherVisibility) (decided : visibility.Decided graph)
    (otherDecided : otherVisibility.Decided other) :
    (other.nodesOf otherVisibility.emitted).Perm
      ((graph.nodesOf visibility.emitted).map (Node.renumber number)) := by
  have renumberedOnce :
      ((graph.nodesOf visibility.emitted).map (Node.renumber number)).Nodup := by
    refine (emittedNodes_nodup renumbers.wired decided).map_on ?_
    intro left leftListed right rightListed same
    exact renumbers.eq_of_order_eq ((mem_emittedNodes renumbers.wired).mp leftListed).1
      ((mem_emittedNodes renumbers.wired).mp rightListed).1 (congrArg (fun node => node.order) same)
  rw [List.perm_ext_iff_of_nodup (emittedNodes_nodup renumbers.otherWired otherDecided)
    renumberedOnce]
  intro node
  rw [mem_emittedNodes renumbers.otherWired, renumbers.mem_iff, List.mem_map]
  constructor
  · rintro ⟨⟨original, member, rfl⟩, emitted⟩
    rw [Node.renumber_id, same.emitted] at emitted
    exact ⟨original, (mem_emittedNodes renumbers.wired).mpr ⟨member, emitted⟩, rfl⟩
  · rintro ⟨original, listed, rfl⟩
    obtain ⟨member, emitted⟩ := (mem_emittedNodes renumbers.wired).mp listed
    rw [Node.renumber_id, same.emitted]
    exact ⟨⟨original, member, rfl⟩, emitted⟩

end Visibility

end Registrar
