import Mathlib
import Registrar.Proofs.Record.Scopes

/-!
Contract: the scopes that are open at a place in a schedule.

Owns: that these are the scopes of the nodes whose units came before, each opened
by an earlier record.

Does not own: which of them a record names.
-/

set_option autoImplicit false

namespace Registrar.Record

/-- One of the entries opens the scope of the node with the identifier. -/
def IsOpened (entries : List Entry) (id : Nat) (identifier : String) : Prop :=
  ∃ entry ∈ entries, entry.opening? = some (id, identifier)

theorem IsOpened.mono {few many : List Entry} {id : Nat} {identifier : String}
    (isOpened : IsOpened few id identifier) (among : few ⊆ many) :
    IsOpened many id identifier := by
  obtain ⟨entry, member, opening⟩ := isOpened
  exact ⟨entry, among member, opening⟩

/-! ## Nodes that open scopes -/

theorem findSome?_eq_bind_find? {way : List Node} {identifierOf : Node → Option String}
    (agree : ∀ above ∈ way, (identifierOf above).isSome = above.opensScope) :
    way.findSome? identifierOf = (way.find? Node.opensScope).bind identifierOf := by
  induction way with
  | nil => rfl
  | cons first rest inductionHypothesis =>
      have isFirst := agree first List.mem_cons_self
      rw [List.findSome?_cons, List.find?_cons]
      cases found : identifierOf first with
      | some identifier =>
          rw [found, Option.isSome_some] at isFirst
          rw [← isFirst]
          exact found.symm
      | none =>
          rw [found, Option.isSome_none] at isFirst
          rw [← isFirst]
          exact inductionHypothesis fun above member =>
            agree above (List.mem_cons_of_mem first member)

theorem opensScope_of_sort {node : Node} (isSort : node.kind.target = .translationUnit ∨
    node.kind.target = .class ∨ node.kind.target = .enum) : node.opensScope = true := by
  unfold Node.opensScope
  cases kind : node.kind <;> simp_all [DeclarationKind.target]

theorem opensScope_of_root {graph : Graph} (tree : graph.Tree) {node : Node}
    (member : node ∈ graph.nodes) (isRoot : node.id = Graph.root) : node.opensScope = true := by
  apply opensScope_of_sort
  rcases tree.sort_of_root member isRoot with isUnit | isClass
  · exact .inl isUnit
  · exact .inr (.inl isClass)

/-- From every node some scope is found on the way up. -/
theorem exists_opener {graph : Graph} (tree : graph.Tree) :
    ∀ node ∈ graph.nodes,
      ((node :: graph.ancestors node).find? Node.opensScope).isSome = true := by
  refine tree.induction ?_ ?_
  · intro node member isRoot
    rw [List.find?_cons, opensScope_of_root tree member isRoot]
    rfl
  · intro node member parent parentMember around inductionHypothesis
    rw [List.find?_cons]
    split
    · rfl
    · rw [tree.ancestors_of_parent member parentMember around]
      exact inductionHypothesis

theorem exists_opener_above {graph : Graph} (tree : graph.Tree) {node : Node}
    (member : node ∈ graph.nodes) (below : node.id ≠ Graph.root) :
    ∃ opener, (graph.ancestors node).find? Node.opensScope = some opener := by
  obtain ⟨parent, parentMember, around⟩ := tree.exists_parent member below
  rw [tree.ancestors_of_parent member parentMember around]
  exact Option.isSome_iff_exists.mp (exists_opener tree parent parentMember)

theorem opener?_eq_some_iff {groundwork : Groundwork} (laid : groundwork.Laid)
    {unit : ScheduledUnit} {id : Nat} :
    opener? groundwork.graph unit = some id ↔
      unit.id = .context id ∧
        ∃ node, groundwork.graph.node? id = some node ∧ node.opensScope = true := by
  unfold opener?
  constructor
  · intro isOpener
    split at isOpener
    · rename_i other isUnit
      obtain ⟨node, isOpen, rfl⟩ := Option.map_eq_some_iff.mp isOpener
      obtain ⟨found, opens⟩ := Option.filter_eq_some_iff.mp isOpen
      rw [isUnit, laid.wired.id_eq found]
      exact ⟨rfl, node, found, opens⟩
    · cases isOpener
  · rintro ⟨isUnit, node, found, opens⟩
    rw [isUnit]
    dsimp only
    rw [found, Option.filter_some, if_pos opens, Option.map_some, laid.wired.id_eq found]

/-! ## Places in a schedule -/

section Places

variable {groundwork : Groundwork} {configuration : Configuration} {schedule : Schedule}
  {inner before after : List ScheduledUnit} {unit : ScheduledUnit}
  (laid : groundwork.Laid) (made : Schedule.Made groundwork schedule inner)

theorem split_of_not_mem_left {α : Type} {left right before after : List α} {item : α}
    (split : left ++ right = before ++ item :: after) (absent : item ∉ left) :
    ∃ middle, before = left ++ middle ∧ right = middle ++ item :: after := by
  rcases List.append_eq_append_iff.mp split with ⟨middle, isBefore, isRight⟩ |
    ⟨middle, isLeft, isAfter⟩
  · exact ⟨middle, isBefore, isRight⟩
  · cases middle with
    | nil =>
        rw [List.append_nil] at isLeft
        exact ⟨[], by rw [isLeft, List.append_nil], isAfter.symm⟩
    | cons first middle =>
        rw [List.cons_append, List.cons.injEq] at isAfter
        rw [isLeft, isAfter.1] at absent
        exact absurd (List.mem_append_right before List.mem_cons_self) absent

theorem split_of_not_mem_right {α : Type} {left right before after : List α} {item : α}
    (split : left ++ right = before ++ item :: after) (absent : item ∉ right) :
    ∃ middle, left = before ++ item :: middle := by
  rcases List.append_eq_append_iff.mp split with ⟨middle, _, isRight⟩ | ⟨middle, isLeft, isAfter⟩
  · rw [isRight] at absent
    exact absurd (List.mem_append_right middle List.mem_cons_self) absent
  · cases middle with
    | nil =>
        rw [List.nil_append] at isAfter
        rw [← isAfter] at absent
        exact absurd List.mem_cons_self absent
    | cons first middle =>
        rw [List.cons_append, List.cons.injEq] at isAfter
        rw [isAfter.1]
        exact ⟨middle, isLeft⟩

include made

/-- A unit of a node stands among the units in order, behind the blocks before
everything else. -/
theorem inner_split (split : schedule.units = before ++ unit :: after) {id : Nat}
    (isNode : unit.id.node? = some id) :
    ∃ front back, inner = front ++ unit :: back ∧ front ⊆ before := by
  have noBlock {blocks : UnitId} {placement : Placement} (noNode : blocks.node? = none) :
      unit ∉ Schedule.blockUnit groundwork blocks placement := by
    intro member
    rw [Schedule.eq_of_mem_blockUnit member, noNode] at isNode
    cases isNode
  rw [made.units, List.append_assoc] at split
  obtain ⟨front, isBefore, others⟩ := split_of_not_mem_left split (noBlock rfl)
  obtain ⟨back, isInner⟩ := split_of_not_mem_right others (noBlock rfl)
  refine ⟨front, back, isInner, ?_⟩
  rw [isBefore]
  exact List.subset_append_right _ _

/-- The blocks after everything else stand behind all units in order. -/
theorem inner_before_postamble (split : schedule.units = before ++ unit :: after)
    (isPostamble : unit.id = .postamble) (absent : unit ∉ inner) : inner ⊆ before := by
  have notEarly : unit ∉ Schedule.blockUnit groundwork .early .early := by
    intro member
    rw [Schedule.eq_of_mem_blockUnit member] at isPostamble
    cases isPostamble
  rw [made.units] at split
  obtain ⟨middle, isBefore, _⟩ :=
    split_of_not_mem_left split (List.not_mem_append notEarly absent)
  intro other listed
  rw [isBefore]
  exact List.mem_append_left _ (List.mem_append_right _ listed)

include laid

theorem openers_nodup : (schedule.units.filterMap (opener? groundwork.graph)).Nodup := by
  have noOpener {id : UnitId} {placement : Placement} (noNode : id.node? = none) :
      (Schedule.blockUnit groundwork id placement).filterMap (opener? groundwork.graph) = [] := by
    rw [List.filterMap_eq_nil_iff]
    intro block member
    cases isOpener : opener? groundwork.graph block with
    | none => rfl
    | some node =>
        have isUnit := ((opener?_eq_some_iff laid).mp isOpener).1
        rw [Schedule.eq_of_mem_blockUnit member] at isUnit
        rw [show id = .context node from isUnit] at noNode
        cases noNode
  rw [made.units, List.filterMap_append, List.filterMap_append, noOpener rfl, noOpener rfl,
    List.append_nil, List.nil_append]
  have distinct : inner.Pairwise fun left right => left.id ≠ right.id :=
    List.pairwise_map.mp (made.ids_nodup laid)
  refine distinct.filterMap _ ?_
  rintro left right different id isLeft other isRight rfl
  rw [((opener?_eq_some_iff laid).mp isLeft).1, ((opener?_eq_some_iff laid).mp isRight).1]
    at different
  exact different rfl

/-- What is known of the scopes where units have been written. -/
structure At (groundwork : Groundwork) (before : List ScheduledUnit) (earlier : List Entry)
    (scopes : Scopes) : Prop where
  sound : scopes.Sound
  nodes : scopes.opened.map Prod.fst = before.filterMap (opener? groundwork.graph)
  opened : scopes.opened = earlier.filterMap Entry.opening?

theorem scopes_at (split : schedule.units = before ++ after) :
    At groundwork before
      (entries groundwork configuration schedule.aliasTargets Scopes.start before)
      (scopesAfter groundwork configuration schedule.aliasTargets Scopes.start before) := by
  have areStretches : ∀ other ∈ before, ∀ scopes, Stretch groundwork configuration scopes other
      (ofUnit groundwork configuration schedule.aliasTargets scopes other).1
      (ofUnit groundwork configuration schedule.aliasTargets scopes other).2 := by
    intro other member scopes
    apply ofUnit_stretch laid made scopes
    rw [split]
    exact List.mem_append_left _ member
  have distinct : (Scopes.start.opened.map Prod.fst ++
      before.filterMap (opener? groundwork.graph)).Nodup := by
    have all := openers_nodup laid made
    rw [split, List.filterMap_append] at all
    exact (List.nodup_append'.mp all).1
  obtain ⟨sound, nodes⟩ := scopesAfter_sound laid areStretches Scopes.start_sound distinct
  exact ⟨sound, nodes, opened_scopesAfter areStretches⟩

end Places

namespace At

variable {groundwork : Groundwork} {before : List ScheduledUnit} {earlier : List Entry}
  {scopes : Scopes} (place : At groundwork before earlier scopes)

include place

theorem isOpened_of_identifier? {id : Nat} {identifier : String}
    (found : scopes.identifier? id = some identifier) : IsOpened earlier id identifier := by
  rw [place.sound.identifier?_eq_some_iff, place.opened, List.mem_filterMap] at found
  exact found

/-- The open scopes are those of the nodes whose units came before. -/
theorem identifier?_isSome_iff (laid : groundwork.Laid) {node : Node}
    (member : node ∈ groundwork.graph.nodes) :
    (scopes.identifier? node.id).isSome = true ↔
      .context node.id ∈ before.map ScheduledUnit.id ∧ node.opensScope = true := by
  rw [Scopes.identifier?_isSome_iff, place.nodes, List.mem_filterMap, List.mem_map]
  constructor
  · rintro ⟨unit, listed, isOpener⟩
    obtain ⟨isUnit, other, found, opens⟩ := (opener?_eq_some_iff laid).mp isOpener
    rw [laid.wired.node?_id member, Option.some.injEq] at found
    subst other
    exact ⟨⟨unit, listed, isUnit⟩, opens⟩
  · rintro ⟨⟨unit, listed, isUnit⟩, opens⟩
    exact ⟨unit, listed, (opener?_eq_some_iff laid).mpr
      ⟨isUnit, node, laid.wired.node?_id member, opens⟩⟩

/-- The scope of the root is open once the unit of the root came before. -/
theorem root_isOpened (laid : groundwork.Laid) (tree : groundwork.graph.Tree) {root : Node}
    (isRoot : groundwork.graph.node? Graph.root = some root)
    (cameBefore : .context Graph.root ∈ before.map ScheduledUnit.id) :
    IsOpened earlier root.id rootIdentifier := by
  have member := Graph.mem_nodes_of_node? isRoot
  have sameId := laid.wired.id_eq isRoot
  have isOpen : (scopes.identifier? root.id).isSome = true := by
    rw [place.identifier?_isSome_iff laid member, sameId]
    exact ⟨cameBefore, opensScope_of_root tree member sameId⟩
  obtain ⟨identifier, found⟩ := Option.isSome_iff_exists.mp isOpen
  have isRootIdentifier :=
    (place.sound.rooted _ (place.sound.identifier?_eq_some_iff.mp found)).mp sameId
  rw [← show identifier = rootIdentifier from isRootIdentifier]
  exact place.isOpened_of_identifier? found

/-- Where the units of all contexts around a node came before, its scope is that of
the nearest one that opens a scope. -/
theorem around_eq (laid : groundwork.Laid) {node opener : Node}
    (areNodes : ∀ above ∈ groundwork.graph.ancestors node, above ∈ groundwork.graph.nodes)
    (cameBefore : ∀ above ∈ groundwork.graph.ancestors node,
      .context above.id ∈ before.map ScheduledUnit.id)
    (isNearest : (groundwork.graph.ancestors node).find? Node.opensScope = some opener) :
    IsOpened earlier opener.id (scopes.around groundwork.graph node) := by
  have agree : ∀ above ∈ groundwork.graph.ancestors node,
      (scopes.identifier? above.id).isSome = above.opensScope := by
    intro above listed
    rw [Bool.eq_iff_iff, place.identifier?_isSome_iff laid (areNodes above listed)]
    exact and_iff_right (cameBefore above listed)
  have isListed := List.mem_of_find?_eq_some isNearest
  have isOpen := agree opener isListed
  rw [List.find?_some isNearest, Option.isSome_iff_exists] at isOpen
  obtain ⟨identifier, found⟩ := isOpen
  unfold Scopes.around
  rw [findSome?_eq_bind_find? agree, isNearest, Option.bind_some, found, Option.getD_some]
  exact place.isOpened_of_identifier? found

end At

end Registrar.Record
