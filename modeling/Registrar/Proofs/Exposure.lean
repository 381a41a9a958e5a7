import Mathlib
import Registrar.Proofs.Graph.Ancestors
import Registrar.Proofs.Graph.Redeclarations
import Registrar.Proofs.Hidden
import Registrar.Proofs.Merging.Requests

/-!
Contract: why a node is visible.

Owns: that every visible node, or one around it, has a cause of its own to be
visible, with nothing on the way that hides, and the graphs of which this is so.

Does not own: which of the visible nodes are emitted.
-/

set_option autoImplicit false

namespace Registrar

/-! ## Moves by aliases -/

/-- What moves another entity is an alias. -/
theorem Move.isAlias_of_requested {entities : List Entity} {entity : Entity} {move : Move}
    (asks : requested entities entity = .ok (some move)) (other : move.requestedBy ≠ move.target) :
    move.requestedBy = entity.id ∧ entity.kind.target = .typeAlias := by
  rcases requested_cases asks with ⟨spelling, _, _, isAlias, _, rfl⟩ | ⟨_, _, _, _, rfl⟩
  · exact ⟨rfl, by rw [isAlias]; rfl⟩
  · exact absurd rfl other

namespace Graph

variable {unit : TranslationUnit} {table : MarkingTable} {graph : Graph}

/-- The node that moved another is an alias. -/
theorem isAlias_of_relocatingAlias (built : ofUnit unit table = .ok graph) {node mover : Node}
    (member : node ∈ graph.nodes) (isMover : mover ∈ graph.nodes)
    (moved : node.relocatingAlias? = some mover.id) :
    mover.kind.target = .typeAlias ∧ node.relocatedBy = some mover.id := by
  obtain ⟨relocated, other⟩ := Option.filter_eq_some_iff.mp moved
  refine ⟨?_, relocated⟩
  obtain ⟨entity, isEntity, rfl⟩ := exists_entity_of_mem built member
  obtain ⟨asking, isAsking, rfl⟩ := exists_entity_of_mem built isMover
  obtain ⟨move, found, requestedBy⟩ := Option.map_eq_some_iff.mp relocated
  have isTarget : move.target = entity.id := by simpa using List.find?_some found
  rcases Move.mem_makeAll (List.mem_of_find?_eq_some found) with old | ⟨requester, listed, asks⟩
  · cases old
  · have byOther : move.requestedBy ≠ move.target := by
      rw [requestedBy, isTarget]
      exact bne_iff_ne.mp other
    obtain ⟨sameId, isAlias⟩ := Move.isAlias_of_requested asks byOther
    have isRequester := Entity.getElem?_id_of_mem listed
    rw [← sameId, requestedBy] at isRequester
    have same : asking = requester :=
      Option.some.inj ((Entity.getElem?_id_of_mem isAsking).symm.trans isRequester)
    rw [same]
    exact isAlias

end Graph

namespace Visibility

/-! ## Causes -/

/-- What makes a node visible of itself. -/
inductive HasCause (graph : Graph) (node : Node) : Prop
  | asked (visible : node.marking.visible = some true)
  /-- An alias of it encourages its exposure. -/
  | encouraged {other : Node} {spelling : String} (member : other ∈ graph.nodes)
      (encourages : other.marking.encourage = true)
      (isAlias : other.kind = .typeAlias (some spelling))
      (target : graph.resolveType spelling = some node.id)
  /-- An alias that is visible moved it. -/
  | relocated {mover : Node} (member : mover ∈ graph.nodes)
      (isAlias : mover.kind.target = .typeAlias) (moved : node.relocatedBy = some mover.id)
      (visible : mover.marking.visible = some true)
  /-- It is an implicit instantiation that a visible template asks for. -/
  | requested {template : Node} (member : template ∈ graph.nodes)
      (isImplicit : isImplicitInstantiation node = true)
      (instantiates : node.template = some template.id)
      (requests : (InstantiationRequest.byTemplate? graph node).isSome = true)
      (visible : template.marking.visible = some true)

/-- What keeps a node, and what inherits from it, from being visible. -/
inductive Barred (graph : Graph) (configuration : Configuration) (node : Node) : Prop
  | isPrivate (notPublic : node.access ≠ .public)
  | destructor (isDestructor : node.kind.target = .destructor)
  | root (isRoot : node.id = Graph.root)
  /-- The node or a namespace around it is kept to other modules. -/
  | restricted {scope : Node} (around : Relation.ReflTransGen graph.Below node scope)
      (elsewhere : restricts configuration scope = true)
  | hidden (visible : node.marking.visible = some false)

/-- From the node the parents lead to one with a cause, and none on the way is barred. -/
inductive Traced (graph : Graph) (configuration : Configuration) : Node → Prop
  | here {node : Node} (free : ¬ Barred graph configuration node) (cause : HasCause graph node) :
      Traced graph configuration node
  | above {node around : Node} (free : ¬ Barred graph configuration node)
      (below : graph.Below node around) (traced : Traced graph configuration around) :
      Traced graph configuration node

/-- Whatever is visible, other than a manual block, is traced to a cause. -/
def ExposesWithCause (graph : Graph) (configuration : Configuration) : Prop :=
  ∀ node ∈ graph.nodes, node.kind.target ≠ .manualBlock →
    (ofGraph graph configuration).isVisible node.id = true → Traced graph configuration node

variable {unit : TranslationUnit} {table : MarkingTable} {graph : Graph}
  {configuration : Configuration}

/-! ## One node -/

/-- What a node other than a manual block has if nothing hides it and nothing is said of
it: whether it is encouraged, or asked for, or else what it inherits. -/
def unstated (graph : Graph) (encouraged : List Nat) (node : Node) (inherited : Bool) : Bool :=
  encouraged.contains node.id ||
    if isImplicitInstantiation node && !node.relocatedByAlias then onRequest graph node inherited
    else inherited

theorem decide_eq_true_iff {encouraged : List Nat} {node : Node} {inherited restricted : Bool}
    (notBlock : node.kind.target ≠ .manualBlock) :
    decide graph encouraged node inherited restricted = true ↔
      node.kind.target ≠ .translationUnit ∧ node.kind.target ≠ .destructor ∧
        node.access = .public ∧ restricted = false ∧
        (node.marking.visible = some true ∨
          node.marking.visible = none ∧ node.kind.target ≠ .typeAlias ∧
            unstated graph encouraged node inherited = true) := by
  unfold decide unstated
  cases kind : node.kind with
  | manualBlock body => exact absurd (by rw [kind]; rfl) notBlock
  | _ =>
      cases visible : node.marking.visible <;>
        simp [DeclarationKind.target, and_assoc]

theorem onRequest_eq_true_iff {node : Node} {inherited : Bool} :
    onRequest graph node inherited = true ↔
      (InstantiationRequest.byTemplate? graph node).isSome = true ∧
        (((node.template.bind graph.node?).bind fun template => template.marking.visible) =
            some true ∨
          ((node.template.bind graph.node?).bind fun template => template.marking.visible) =
            none ∧ inherited = true) := by
  unfold onRequest
  cases (node.template.bind graph.node?).bind fun template => template.marking.visible <;> simp

/-- What is visible where less is handed down stays so where more is. -/
theorem unstated_mono {encouraged : List Nat} {node : Node} {less more : Bool}
    (grows : less = true → more = true)
    (visible : unstated graph encouraged node less = true) :
    unstated graph encouraged node more = true := by
  unfold unstated at visible ⊢
  rw [Bool.or_eq_true] at visible ⊢
  refine visible.imp_right fun handed => ?_
  by_cases isRequested : (isImplicitInstantiation node && !node.relocatedByAlias) = true
  · rw [if_pos isRequested, onRequest_eq_true_iff] at handed ⊢
    exact ⟨handed.1, handed.2.imp_right (And.imp_right grows)⟩
  · rw [if_neg isRequested] at handed ⊢
    exact grows handed

theorem mem_encouraged_iff {id : Nat} :
    id ∈ encouraged graph ↔ ∃ other ∈ graph.nodes, other.marking.encourage = true ∧
      ∃ spelling, other.kind = .typeAlias (some spelling) ∧
        graph.resolveType spelling = some id := by
  unfold encouraged
  rw [List.mem_filterMap]
  refine exists_congr fun other => and_congr_right fun _ => ?_
  constructor
  · intro isTarget
    split at isTarget
    · rename_i encourages
      split at isTarget
      · rename_i spelling isAlias
        exact ⟨encourages, spelling, isAlias, isTarget⟩
      · cases isTarget
    · cases isTarget
  · rintro ⟨encourages, spelling, isAlias, isTarget⟩
    simp [encourages, isAlias, isTarget]

/-- A node that is visible with nothing said of it has a cause, or inherits. -/
theorem cause_or_inherited (wired : graph.Wired) {node : Node} {inherited : Bool}
    (visible : unstated graph (encouraged graph) node inherited = true) :
    HasCause graph node ∨ inherited = true := by
  unfold unstated at visible
  rw [Bool.or_eq_true, List.contains_iff_mem] at visible
  rcases visible with isEncouraged | handed
  · obtain ⟨other, member, encourages, spelling, isAlias, isTarget⟩ :=
      mem_encouraged_iff.mp isEncouraged
    exact .inl (.encouraged member encourages isAlias isTarget)
  · by_cases isRequested : (isImplicitInstantiation node && !node.relocatedByAlias) = true
    · rw [if_pos isRequested, onRequest_eq_true_iff] at handed
      rw [Bool.and_eq_true] at isRequested
      obtain ⟨requests, isVisible | ⟨_, isInherited⟩⟩ := handed
      · obtain ⟨template, found, isVisible⟩ := Option.bind_eq_some_iff.mp isVisible
        obtain ⟨id, instantiates, isTemplate⟩ := Option.bind_eq_some_iff.mp found
        rw [← wired.id_eq isTemplate] at instantiates
        exact .inl (.requested (Graph.mem_nodes_of_node? isTemplate) isRequested.1 instantiates
          requests isVisible)
      · exact .inr isInherited
    · rw [if_neg isRequested] at handed
      exact .inr handed

/-! ## The way up -/

theorem decide_mono {encouraged : List Nat} {node : Node} {less more restricted : Bool}
    (grows : less = true → more = true)
    (decided : decide graph encouraged node less restricted = true) :
    decide graph encouraged node more false = true := by
  by_cases isBlock : node.kind.target = .manualBlock
  · cases kind : node.kind <;> simp [kind, DeclarationKind.target] at isBlock
    simp only [decide, kind] at decided ⊢
    simp_all
  · rw [decide_eq_true_iff isBlock] at decided ⊢
    obtain ⟨notUnit, notDestructor, isPublic, _, stated⟩ := decided
    exact ⟨notUnit, notDestructor, isPublic, rfl,
      stated.imp_right (And.imp_right (And.imp_right (unstated_mono grows)))⟩

/-- What a node inherits: from the alias that moved it, or from what is above it. -/
def inheritedAlong (graph : Graph) (configuration : Configuration) (encouraged : List Nat)
    (node : Node) (above : List Node) : Bool :=
  match node.relocatingAlias? with
  | some mover => handedDown graph mover
  | none => visibleAlong graph configuration encouraged above

theorem visibleAlong_cons {encouraged : List Nat} {node : Node} {above : List Node} :
    visibleAlong graph configuration encouraged (node :: above) =
      decide graph encouraged node (inheritedAlong graph configuration encouraged node above)
        ((node :: above).any (restricts configuration)) :=
  rfl

/-- What is visible with a part of what is around it in view stays so with more of it, of
which nothing is kept to other modules. -/
theorem visibleAlong_mono {encouraged : List Nat} {fewer more : Nat} {node : Node}
    (atMost : fewer ≤ more)
    (free : ∀ scope ∈ node :: graph.ancestorsWithin more node,
      ¬ restricts configuration scope = true)
    (visible : visibleAlong graph configuration encouraged
      (node :: graph.ancestorsWithin fewer node) = true) :
    visibleAlong graph configuration encouraged (node :: graph.ancestorsWithin more node) =
      true := by
  induction fewer generalizing node more with
  | zero =>
      rw [visibleAlong_cons] at visible ⊢
      rw [List.any_eq_false.mpr free]
      refine decide_mono (fun inherits => ?_) visible
      unfold inheritedAlong at inherits ⊢
      split at inherits
      · exact inherits
      · cases inherits
  | succ fewer inductionHypothesis =>
      obtain ⟨others, rfl⟩ : ∃ others, more = others + 1 := ⟨more - 1, by omega⟩
      rw [visibleAlong_cons] at visible ⊢
      rw [List.any_eq_false.mpr free]
      refine decide_mono (fun inherits => ?_) visible
      unfold inheritedAlong at inherits ⊢
      split at inherits
      · exact inherits
      · rw [Graph.ancestorsWithin] at inherits free ⊢
        cases up : node.parent.bind graph.node? with
        | none => simp [up, visibleAlong] at inherits
        | some parent =>
            simp only [up] at inherits free ⊢
            exact inductionHypothesis (by omega)
              (fun scope listed => free scope (List.mem_cons_of_mem node listed)) inherits

/-- A node that is visible has a cause, or what is around it is visible too. -/
theorem cause_or_above (built : Graph.ofUnit unit table = .ok graph) {node : Node}
    {above : List Node} (member : node ∈ graph.nodes) (notBlock : node.kind.target ≠ .manualBlock)
    (visible : visibleAlong graph configuration (encouraged graph) (node :: above) = true) :
    HasCause graph node ∨ visibleAlong graph configuration (encouraged graph) above = true := by
  rw [visibleAlong_cons, decide_eq_true_iff notBlock] at visible
  obtain ⟨_, _, _, _, asked | ⟨_, _, unstated⟩⟩ := visible
  · exact .inl (.asked asked)
  · have wired := Graph.ofUnit_wired built
    rcases cause_or_inherited wired unstated with cause | inherits
    · exact .inl cause
    · unfold inheritedAlong at inherits
      split at inherits
      · rename_i mover moved
        rw [handedDown] at inherits
        cases found : graph.node? mover with
        | none => simp [found] at inherits
        | some other =>
            rw [← wired.id_eq found] at moved
            have isMover := Graph.mem_nodes_of_node? found
            obtain ⟨isAlias, relocated⟩ := Graph.isAlias_of_relocatingAlias built member isMover moved
            refine .inl (.relocated isMover isAlias relocated ?_)
            cases stated : other.marking.visible <;> simp_all
      · exact .inr inherits

/-- Where the root is hidden, a node that is visible on a way up, of which nothing is kept
to other modules, is not barred. -/
theorem not_barred_of_visibleAlong (wired : graph.Wired)
    (rootHidden : (ofGraph graph configuration).isVisible Graph.root = false) {steps : Nat}
    (inside : steps ≤ graph.size) {node : Node} (member : node ∈ graph.nodes)
    (notBlock : node.kind.target ≠ .manualBlock)
    (free : ∀ scope, Relation.ReflTransGen graph.Below node scope →
      ¬ restricts configuration scope = true)
    (visible : visibleAlong graph configuration (encouraged graph)
      (node :: graph.ancestorsWithin steps node) = true) :
    ¬ Barred graph configuration node := by
  have decided := visible
  rw [visibleAlong_cons, decide_eq_true_iff notBlock] at decided
  obtain ⟨_, notDestructor, isPublic, _, stated⟩ := decided
  intro barred
  cases barred with
  | isPrivate notPublic => exact notPublic isPublic
  | destructor isDestructor => exact notDestructor isDestructor
  | root isRoot =>
      rw [← isRoot, isVisible_ofGraph wired member] at rootHidden
      refine Bool.eq_false_iff.mp rootHidden (visibleAlong_mono inside ?_ visible)
      exact fun scope listed => free scope ((wired.mem_ancestors_iff member).mp listed)
  | restricted around elsewhere => exact free _ around elsewhere
  | hidden isHidden => simp [isHidden] at stated

/-- What is around a node owns it, so it is no manual block. -/
theorem notBlock_of_below (built : Graph.ofUnit unit table = .ok graph) {node around : Node}
    (member : node ∈ graph.nodes) (below : graph.Below node around) :
    around.kind.target ≠ .manualBlock := by
  obtain ⟨id, isParent, found⟩ := below
  rw [← (Graph.ofUnit_wired built).id_eq found] at isParent
  have canOwn := Graph.canOwn_of_parent built member (Graph.mem_nodes_of_node? found) isParent
  exact DeclarationKind.notBlock_of_canOwn canOwn

/-- What makes a node visible on a way up: a cause of its own, or a visible node directly
above it. -/
theorem cause_or_below (built : Graph.ofUnit unit table = .ok graph) {steps : Nat} {node : Node}
    (member : node ∈ graph.nodes) (notBlock : node.kind.target ≠ .manualBlock)
    (visible : visibleAlong graph configuration (encouraged graph)
      (node :: graph.ancestorsWithin steps node) = true) :
    HasCause graph node ∨ ∃ fewer around, steps = fewer + 1 ∧ graph.Below node around ∧
      visibleAlong graph configuration (encouraged graph)
        (around :: graph.ancestorsWithin fewer around) = true := by
  rcases cause_or_above built member notBlock visible with cause | inherits
  · exact .inl cause
  · cases steps with
    | zero => cases inherits
    | succ fewer =>
        rw [Graph.ancestorsWithin] at inherits
        cases up : node.parent.bind graph.node? with
        | none => simp [up, visibleAlong] at inherits
        | some around =>
            simp only [up] at inherits
            exact .inr ⟨fewer, around, rfl, Graph.below_iff.mpr up, inherits⟩

/-- Where the root is hidden, a way up on which a node is visible leads to a cause. -/
theorem traced_of_visibleAlong (built : Graph.ofUnit unit table = .ok graph)
    (rootHidden : (ofGraph graph configuration).isVisible Graph.root = false) {steps : Nat}
    (inside : steps ≤ graph.size) {node : Node} (member : node ∈ graph.nodes)
    (notBlock : node.kind.target ≠ .manualBlock)
    (free : ∀ scope, Relation.ReflTransGen graph.Below node scope →
      ¬ restricts configuration scope = true)
    (visible : visibleAlong graph configuration (encouraged graph)
      (node :: graph.ancestorsWithin steps node) = true) :
    Traced graph configuration node := by
  induction steps using Nat.strong_induction_on generalizing node with
  | h steps inductionHypothesis =>
      have notBarred := not_barred_of_visibleAlong (Graph.ofUnit_wired built) rootHidden inside
        member notBlock free visible
      rcases cause_or_below built member notBlock visible with
        cause | ⟨fewer, around, rfl, below, stillVisible⟩
      · exact .here notBarred cause
      · refine .above notBarred below (inductionHypothesis fewer (Nat.lt_succ_self fewer)
          (by omega) (Graph.mem_nodes_of_below below) (notBlock_of_below built member below)
          (fun scope way => free scope (.head below way)) stillVisible)

/-- A way up on which a node is visible leads to a cause, whatever bars it. -/
theorem exists_cause_of_visibleAlong (built : Graph.ofUnit unit table = .ok graph) {steps : Nat}
    {node : Node} (member : node ∈ graph.nodes) (notBlock : node.kind.target ≠ .manualBlock)
    (visible : visibleAlong graph configuration (encouraged graph)
      (node :: graph.ancestorsWithin steps node) = true) :
    ∃ other ∈ graph.nodes, HasCause graph other := by
  induction steps using Nat.strong_induction_on generalizing node with
  | h steps inductionHypothesis =>
      rcases cause_or_below built member notBlock visible with
        cause | ⟨fewer, around, rfl, below, stillVisible⟩
      · exact ⟨node, member, cause⟩
      · exact inductionHypothesis fewer (Nat.lt_succ_self fewer)
          (Graph.mem_nodes_of_below below) (notBlock_of_below built member below) stillVisible

/-! ## The visible nodes of a unit -/

/-- Every cause was written at some declaration. -/
theorem exists_asking_of_cause (built : Graph.ofUnit unit table = .ok graph) {node : Node}
    (member : node ∈ graph.nodes) (cause : HasCause graph node) :
    ∃ declaration ∈ unit.declarations, (table.get declaration.id).visible = some true ∨
      (table.get declaration.id).encourage = true := by
  have fromVisible {other : Node} (listed : other ∈ graph.nodes)
      (asked : other.marking.visible = some true) :
      ∃ declaration ∈ unit.declarations, (table.get declaration.id).visible = some true ∨
        (table.get declaration.id).encourage = true := by
    obtain ⟨declaration, isDeclared, asks⟩ :=
      Graph.exists_asking built listed (.visible true) asked
    exact ⟨declaration, isDeclared, .inl asks⟩
  cases cause with
  | asked visible => exact fromVisible member visible
  | encouraged listed encourages =>
      obtain ⟨declaration, isDeclared, asks⟩ :=
        Graph.exists_asking built listed .encourage encourages
      exact ⟨declaration, isDeclared, .inr asks⟩
  | relocated listed _ _ visible => exact fromVisible listed visible
  | requested listed _ _ _ visible => exact fromVisible listed visible

/-- Whatever the root is declared as, it owns what is at the top of the unit. -/
theorem root_notBlock (built : Graph.ofUnit unit table = .ok graph) {root : Node}
    (isRoot : graph.node? Graph.root = some root) : root.kind.target ≠ .manualBlock := by
  obtain ⟨entity, isEntity, rfl⟩ := Graph.exists_entity_of_node? built isRoot
  exact DeclarationKind.notBlock_of_canOwn (Entity.canOwn_root isEntity)

/-- Whatever is visible is traced to a cause if and only if the root is hidden. Whether or
not it is, nothing but manual blocks is visible in a unit of which no declaration asks to be
visible or encourages that another is. -/
theorem ofGraph_exposesWithCause_iff (built : Graph.ofUnit unit table = .ok graph) :
    (ExposesWithCause graph configuration ↔
        (ofGraph graph configuration).isVisible Graph.root = false) ∧
      ((∀ declaration ∈ unit.declarations, (table.get declaration.id).visible ≠ some true ∧
          (table.get declaration.id).encourage = false) →
        ∀ node ∈ graph.nodes, (ofGraph graph configuration).isVisible node.id = true →
          node.kind.target = .manualBlock) := by
  have wired := Graph.ofUnit_wired built
  refine ⟨⟨?_, ?_⟩, ?_⟩
  · intro exposes
    obtain ⟨root, isRoot⟩ := Graph.node?_of_lt wired.nonempty
    have rootId : root.id = Graph.root := wired.id_eq isRoot
    rw [← Bool.not_eq_true, ← rootId]
    intro visible
    have traced := exposes root (Graph.mem_nodes_of_node? isRoot) (root_notBlock built isRoot)
      visible
    cases traced with
    | here free cause => exact free (.root rootId)
    | above free below traced => exact free (.root rootId)
  · intro rootHidden node member notBlock visible
    rw [isVisible_ofGraph wired member] at visible
    refine traced_of_visibleAlong built rootHidden (Nat.le_refl _) member notBlock ?_ visible
    intro scope way restricted
    rw [wayUp, visibleAlong_cons, decide_eq_true_iff notBlock] at visible
    have noneRestricts := List.any_eq_false.mp visible.2.2.2.1
    exact noneRestricts scope ((wired.mem_ancestors_iff member).mpr way) restricted
  · intro silent node member visible
    by_contra notBlock
    rw [isVisible_ofGraph wired member] at visible
    obtain ⟨other, listed, cause⟩ := exists_cause_of_visibleAlong built member notBlock visible
    obtain ⟨declaration, isDeclared, asks | encourages⟩ :=
      exists_asking_of_cause built listed cause
    · exact (silent declaration isDeclared).1 asks
    · simp [(silent declaration isDeclared).2] at encourages

/-- A root without a name is nothing but the unit, which is hidden. -/
theorem exposesWithCause_of_unnamed (built : Graph.ofUnit unit table = .ok graph)
    (unnamed : unit.root.qualifiedName = "") : ExposesWithCause graph configuration := by
  have wired := Graph.ofUnit_wired built
  refine (ofGraph_exposesWithCause_iff built).1.mpr ?_
  obtain ⟨root, isRoot⟩ := Graph.node?_of_lt wired.nonempty
  have rootId : root.id = Graph.root := wired.id_eq isRoot
  rw [← rootId, isVisible_ofGraph wired (Graph.mem_nodes_of_node? isRoot), wayUp,
    visibleAlong_cons]
  simp [decide, Graph.root_kind_of_unnamed built unnamed isRoot]

/-- A class with a base that has the name of the root, and asks to be visible. -/
def visibleClassAsRoot : TranslationUnit where
  root := { id := 0, kind := .translationUnit, qualifiedName := "A", order := 0 }
  others :=
    [ { id := 1, kind := .class [{ qualifiedName := "B" }] none, name := "A", qualifiedName := "A"
        parent := some 0, order := 1, payloads := [.text "visible"] } ]
  valid := by decide

/-- The root is visible, and nothing on a way up that leads to it is traced. -/
theorem visibleClassAsRoot_exposesRoot :
    ∃ table graph, MarkingTable.ofUnit visibleClassAsRoot = .ok table ∧
      Graph.ofUnit visibleClassAsRoot table = .ok graph ∧ ¬ ExposesWithCause graph {} := by
  have shown : (Graph.withTable? visibleClassAsRoot).any (fun (_, graph) =>
      (ofGraph graph {}).isVisible Graph.root) = true := by
    cbv
  obtain ⟨table, graph, marked, built, visible⟩ := Graph.exists_of_any shown
  refine ⟨table, graph, marked, built, ?_⟩
  rw [(ofGraph_exposesWithCause_iff built).1]
  simp [visible]

end Visibility

end Registrar
