import Mathlib
import Registrar.Proofs.Graph.Tree

/-!
Contract: which declarations are taken for one entity.

Owns: that the members of a group share a key, that no two groups do, that
redeclarations are of one family, and that what stands around an entity can own
it, before and after the moves.

Does not own: what an entity is known by.
-/

set_option autoImplicit false

namespace Registrar

/-! ## Keys -/

/-- A text up to its first bar is told by the whole text. -/
theorem append_bar_inj {left right more others : List Char} (leftPlain : '|' ∉ left)
    (rightPlain : '|' ∉ right) (same : left ++ '|' :: more = right ++ '|' :: others) :
    left = right ∧ more = others := by
  induction left generalizing right with
  | nil =>
      cases right with
      | nil => exact ⟨rfl, (List.cons.inj same).2⟩
      | cons first rest =>
          rw [← (List.cons.inj same).1] at rightPlain
          exact absurd List.mem_cons_self rightPlain
  | cons first rest inductionHypothesis =>
      cases right with
      | nil =>
          rw [(List.cons.inj same).1] at leftPlain
          exact absurd List.mem_cons_self leftPlain
      | cons other further =>
          obtain ⟨sameFirst, sameRest⟩ := List.cons.inj same
          obtain ⟨isRest, isMore⟩ := inductionHypothesis
            (fun listed => leftPlain (List.mem_cons_of_mem _ listed))
            (fun listed => rightPlain (List.mem_cons_of_mem _ listed)) sameRest
          exact ⟨by rw [sameFirst, isRest], isMore⟩

theorem Target.bar_notMem_name (target : Target) : '|' ∉ target.name.toList := by
  cases target <;> decide

theorem Target.name_ne_scope (target : Target) : target.name ≠ "scope" := by
  cases target <;> decide

namespace Declaration

/-- The two declarations have one key. -/
def Redeclares (left right : Declaration) : Prop :=
  ∃ key, left.mergeKey? = some key ∧ right.mergeKey? = some key

theorem Redeclares.symm {left right : Declaration} (redeclares : left.Redeclares right) :
    right.Redeclares left := by
  obtain ⟨key, isLeft, isRight⟩ := redeclares
  exact ⟨key, isRight, isLeft⟩

theorem Redeclares.trans {left middle right : Declaration} (first : left.Redeclares middle)
    (second : middle.Redeclares right) : left.Redeclares right := by
  obtain ⟨key, isLeft, isMiddle⟩ := first
  obtain ⟨other, isOther, isRight⟩ := second
  rw [isMiddle, Option.some.injEq] at isOther
  exact ⟨key, isLeft, by rw [isOther, isRight]⟩

/-- What follows the family in a key. -/
def keyRest (declaration : Declaration) : String :=
  declaration.qualifiedName ++ "|" ++
    (declaration.kind.signature?.map Signature.overloadKey).getD ""

/-- What has a key is the root, or has a name. -/
theorem mergeKey?_eq_some {declaration : Declaration} {key : String}
    (isKey : declaration.mergeKey? = some key) :
    key = declaration.family ++ "|" ++ declaration.keyRest ∧
      (declaration.qualifiedName = "" → declaration.parent = none) := by
  unfold mergeKey? at isKey
  split at isKey
  · cases isKey
  · split at isKey
    · cases isKey
    · rename_i named
      refine ⟨?_, ?_⟩
      · rw [← Option.some.inj isKey]
        simp only [keyRest, String.append_assoc]
      · intro isEmpty
        simpa [isEmpty] using named

/-- The bar that ends the family in a key is in no family. -/
theorem bar_notMem_family (declaration : Declaration) : '|' ∉ declaration.family.toList := by
  unfold family
  split
  · decide
  · exact Target.bar_notMem_name _

/-- Redeclarations are of one family, and agree in all else that makes the key. -/
theorem Redeclares.parts_eq {left right : Declaration} (redeclares : left.Redeclares right) :
    left.family = right.family ∧ left.keyRest = right.keyRest := by
  obtain ⟨key, isLeft, isRight⟩ := redeclares
  have sameKey := (mergeKey?_eq_some isLeft).1.symm.trans (mergeKey?_eq_some isRight).1
  have sameLetters := congrArg String.toList sameKey
  simp only [String.toList_append, List.append_assoc] at sameLetters
  obtain ⟨sameFamily, sameRest⟩ := append_bar_inj left.bar_notMem_family
    right.bar_notMem_family sameLetters
  exact ⟨String.toList_inj.mp sameFamily, String.toList_inj.mp sameRest⟩

/-- Whether declarations may be nested in it is the same of redeclarations. -/
theorem Redeclares.canOwn_eq {left right : Declaration} (redeclares : left.Redeclares right) :
    left.kind.canOwn = right.kind.canOwn := by
  have sameFamily := redeclares.parts_eq.1
  unfold family at sameFamily
  cases leftOwns : left.kind.canOwn <;> cases rightOwns : right.kind.canOwn
  · rfl
  · simp only [leftOwns, rightOwns, if_true, if_false, Bool.false_eq_true] at sameFamily
    exact absurd sameFamily (Target.name_ne_scope _)
  · simp only [leftOwns, rightOwns, if_true, if_false, Bool.false_eq_true] at sameFamily
    exact absurd sameFamily.symm (Target.name_ne_scope _)
  · rfl

end Declaration

/-! ## Groups -/

namespace Group

/-- All members of each group have one key, and no two groups have the same. -/
structure Keyed (groups : List Group) : Prop where
  shared : ∀ group ∈ groups, ∀ other ∈ group.others, group.first.Redeclares other
  apart : groups.Pairwise fun left right => ¬ left.first.Redeclares right.first

/-- Adding a declaration to the group with its key adds no first member but the
declaration. -/
theorem first_of_mem_insert {key : String} {declaration : Declaration} {groups : List Group}
    {group : Group} (member : group ∈ insert key declaration groups) :
    (∃ before ∈ groups, group.first = before.first) ∨ group.first = declaration := by
  induction groups with
  | nil =>
      rw [insert, List.mem_singleton] at member
      exact .inr (by rw [member])
  | cons head rest inductionHypothesis =>
      rw [insert] at member
      split at member
      · rcases List.mem_cons.mp member with rfl | later
        · exact .inl ⟨head, List.mem_cons_self, rfl⟩
        · exact .inl ⟨group, List.mem_cons_of_mem _ later, rfl⟩
      · rcases List.mem_cons.mp member with rfl | later
        · exact .inl ⟨_, List.mem_cons_self, rfl⟩
        · refine (inductionHypothesis later).imp_left ?_
          rintro ⟨before, listed, sameFirst⟩
          exact ⟨before, List.mem_cons_of_mem _ listed, sameFirst⟩

theorem Keyed.insert {key : String} {declaration : Declaration} {groups : List Group}
    (keyed : Keyed groups) (isKey : declaration.mergeKey? = some key) :
    Keyed (insert key declaration groups) := by
  induction groups with
  | nil =>
      rw [Group.insert]
      exact ⟨by simp, List.pairwise_singleton _ _⟩
  | cons group rest inductionHypothesis =>
      obtain ⟨shared, apart⟩ := keyed
      obtain ⟨groupApart, restApart⟩ := List.pairwise_cons.mp apart
      obtain ⟨groupShared, restShared⟩ := List.forall_mem_cons.mp shared
      rw [Group.insert]
      split
      · rename_i sameKey
        rw [beq_iff_eq] at sameKey
        refine ⟨List.forall_mem_cons.mpr ⟨?_, restShared⟩,
          List.pairwise_cons.mpr ⟨groupApart, restApart⟩⟩
        intro other listed
        rcases List.mem_append.mp listed with before | new
        · exact groupShared other before
        · rw [List.mem_singleton.mp new]
          exact ⟨key, sameKey, isKey⟩
      · rename_i otherKey
        have inserted := inductionHypothesis ⟨restShared, restApart⟩
        refine ⟨List.forall_mem_cons.mpr ⟨groupShared, inserted.shared⟩,
          List.pairwise_cons.mpr ⟨?_, inserted.apart⟩⟩
        intro other listed redeclares
        rcases first_of_mem_insert listed with ⟨before, beforeListed, sameFirst⟩ | isNew
        · rw [sameFirst] at redeclares
          exact groupApart before beforeListed redeclares
        · obtain ⟨shareKey, isFirst, isOther⟩ := redeclares
          rw [isNew, isKey] at isOther
          rw [isFirst, isOther, beq_self_eq_true] at otherKey
          exact otherKey rfl

theorem Keyed.add {groups : List Group} (keyed : Keyed groups) (declaration : Declaration) :
    Keyed (add groups declaration) := by
  rw [Group.add]
  split
  · rename_i key isKey
    exact keyed.insert isKey
  · rename_i noKey
    refine ⟨?_, List.pairwise_append.mpr ⟨keyed.apart, List.pairwise_singleton _ _, ?_⟩⟩
    · intro group member other listed
      rcases List.mem_append.mp member with before | new
      · exact keyed.shared group before other listed
      · rw [List.mem_singleton.mp new] at listed
        cases listed
    · rintro group _ new isNew ⟨key, _, hasKey⟩
      rw [List.mem_singleton.mp isNew, noKey] at hasKey
      cases hasKey

theorem ofDeclarations_keyed (declarations : List Declaration) :
    Keyed (ofDeclarations declarations) := by
  have fromGroups (groups : List Group) (keyed : Keyed groups) :
      Keyed (declarations.foldl Group.add groups) := by
    induction declarations generalizing groups with
    | nil => exact keyed
    | cons declaration rest inductionHypothesis =>
        exact inductionHypothesis _ (keyed.add declaration)
  exact fromGroups [] ⟨by simp, List.Pairwise.nil⟩

theorem Keyed.redeclares_first {groups : List Group} (keyed : Keyed groups) {group : Group}
    (member : group ∈ groups) {declaration : Declaration} (listed : declaration ∈ group.members) :
    declaration = group.first ∨ group.first.Redeclares declaration :=
  (List.mem_cons.mp listed).imp_right (keyed.shared group member declaration)

/-- Two declarations are in one group exactly if they are one or have one key. -/
theorem Keyed.mem_members_iff {groups : List Group} (keyed : Keyed groups) {group : Group}
    (member : group ∈ groups) {left right : Declaration} (leftListed : left ∈ group.members)
    (rightGrouped : right ∈ groups.flatMap members) :
    right ∈ group.members ↔ left = right ∨ left.Redeclares right := by
  constructor
  · intro rightListed
    rcases keyed.redeclares_first member leftListed with isFirst | leftRedeclares
    · rw [isFirst]
      exact (keyed.redeclares_first member rightListed).imp_left Eq.symm
    · right
      rcases keyed.redeclares_first member rightListed with isFirst | rightRedeclares
      · rw [isFirst]
        exact leftRedeclares.symm
      · exact leftRedeclares.symm.trans rightRedeclares
  · rintro (isLeft | redeclares)
    · rwa [← isLeft]
    · obtain ⟨other, otherMember, rightListed⟩ := List.mem_flatMap.mp rightGrouped
      have firstToRight : group.first.Redeclares right := by
        rcases keyed.redeclares_first member leftListed with isFirst | leftRedeclares
        · rwa [← isFirst]
        · exact leftRedeclares.trans redeclares
      have firstToFirst : group.first.Redeclares other.first := by
        rcases keyed.redeclares_first otherMember rightListed with isFirst | rightRedeclares
        · rwa [← isFirst]
        · exact firstToRight.trans rightRedeclares.symm
      have isSymmetric : Std.Symm fun left right : Group =>
          ¬ left.first.Redeclares right.first := ⟨fun _ _ apart back => apart back.symm⟩
      by_cases sameGroup : group = other
      · rwa [sameGroup]
      · exact absurd firstToFirst (keyed.apart.forall member otherMember sameGroup)

/-- The group that is found for a declaration holds it. -/
theorem exists_mem_of_indexOf? {groups : List Group} {id index : Nat}
    (found : indexOf? groups id = some index) :
    ∃ group, groups[index]? = some group ∧ ∃ declaration ∈ group.members,
      declaration.id = id := by
  obtain ⟨inside, holds, _⟩ := List.findIdx?_eq_some_iff_getElem.mp found
  obtain ⟨declaration, listed, sameId⟩ := List.any_eq_true.mp holds
  exact ⟨groups[index], List.getElem?_eq_getElem inside, declaration, listed,
    beq_iff_eq.mp sameId⟩

end Group

/-! ## Redeclarations of the root -/

namespace TranslationUnit

variable {unit : TranslationUnit}

/-- A root without a name is declared once. -/
theorem not_redeclares_root (unnamed : unit.root.qualifiedName = "") {declaration : Declaration}
    (listed : declaration ∈ unit.others) : ¬ unit.root.Redeclares declaration := by
  intro redeclares
  have sameRest := redeclares.parts_eq.2
  rw [Declaration.keyRest, Declaration.keyRest, unnamed, unit.root_kind] at sameRest
  have lengths := congrArg String.length sameRest
  simp only [DeclarationKind.signature?, Option.map_none, Option.getD_none, String.length_append,
    String.length_empty] at lengths
  have isUnnamed : declaration.qualifiedName.length = 0 := by omega
  obtain ⟨key, _, isKey⟩ := redeclares
  have noParent := (Declaration.mergeKey?_eq_some isKey).2 (String.length_eq_zero_iff.mp isUnnamed)
  obtain ⟨owner, _, isOwner, _⟩ := unit.exists_owner listed
  rw [noParent] at isOwner
  cases isOwner

end TranslationUnit

/-- The group of a root without a name holds nothing else. -/
theorem Group.eq_root_of_unnamed {unit : TranslationUnit}
    (unnamed : unit.root.qualifiedName = "") {group : Group}
    (isFirst : (Group.ofDeclarations unit.declarations)[0]? = some group) :
    group = ⟨unit.root, []⟩ := by
  obtain ⟨first, rest, groups, isRoot, inside, _⟩ := Group.ledBy_ofDeclarations unit
  rw [groups, List.getElem?_cons_zero, Option.some.injEq] at isFirst
  obtain ⟨head, others⟩ := group
  subst isFirst
  change head = unit.root at isRoot
  rw [isRoot, Group.mk.injEq, List.eq_nil_iff_forall_not_mem]
  refine ⟨rfl, fun other listed => ?_⟩
  have shared := (Group.ofDeclarations_keyed unit.declarations).shared ⟨head, others⟩
    (by rw [groups]; exact List.mem_cons_self) other listed
  change head.Redeclares other at shared
  rw [isRoot] at shared
  exact TranslationUnit.not_redeclares_root unnamed (inside other listed) shared

/-! ## What stands around an entity -/

/-- A manual block owns nothing. -/
theorem DeclarationKind.notBlock_of_canOwn {kind : DeclarationKind}
    (canOwn : kind.canOwn = true) : kind.target ≠ .manualBlock := by
  rintro isBlock
  cases kind <;> simp [target] at isBlock
  cases canOwn

/-- Nor does an alias. -/
theorem DeclarationKind.notAlias_of_canOwn {kind : DeclarationKind}
    (canOwn : kind.canOwn = true) : kind.target ≠ .typeAlias := by
  rintro isAlias
  cases kind <;> simp [target] at isAlias
  cases canOwn

namespace Entity

variable {unit : TranslationUnit} {table : MarkingTable}

/-- Whether an entity can own others is the same of each of its declarations. -/
theorem canOwn_ofGroup {group : Group} (member : group ∈ Group.ofDeclarations unit.declarations)
    {declaration : Declaration} (listed : declaration ∈ group.members) (index : Nat) :
    (ofGroup table (Group.ofDeclarations unit.declarations) index group).1.kind.canOwn =
      declaration.kind.canOwn := by
  obtain ⟨other, otherListed, sameKind⟩ :=
    exists_kind_ofGroup table (Group.ofDeclarations unit.declarations) index group
  have together := ((Group.ofDeclarations_keyed unit.declarations).mem_members_iff member
    otherListed (List.mem_flatMap.mpr ⟨group, member, listed⟩)).mp listed
  rw [sameKind]
  rcases together with rfl | redeclares
  · rfl
  · exact redeclares.canOwn_eq

/-- Whatever the root is declared as, it owns what is at the top of the unit. -/
theorem canOwn_root {entity : Entity} (isFirst : (ofUnit unit table)[0]? = some entity) :
    entity.kind.canOwn = true := by
  rw [getElem?_ofGroups, Option.map_eq_some_iff] at isFirst
  obtain ⟨group, isGroup, rfl⟩ := isFirst
  have listed : unit.root ∈ group.members := by
    obtain ⟨first, rest, groups, isRoot, _⟩ := Group.ledBy_ofDeclarations unit
    rw [groups, List.getElem?_cons_zero, Option.some.injEq] at isGroup
    rw [← isGroup, ← isRoot]
    exact first.mem_members_first
  rw [canOwn_ofGroup (List.mem_of_getElem? isGroup) listed, unit.root_kind]
  rfl

/-- What stands around an entity in the source can own it. -/
theorem canOwn_of_lexicalParent {entity : Entity} (member : entity ∈ ofUnit unit table)
    {parent : Nat} (around : entity.lexicalParent = some parent) :
    ∃ owner, (ofUnit unit table)[parent]? = some owner ∧ owner.kind.canOwn = true := by
  obtain ⟨index, group, isGroup, rfl⟩ := exists_group_of_mem member
  rw [lexicalParent_ofGroup, Option.bind_eq_some_iff] at around
  obtain ⟨id, isParent, found⟩ := around
  have listed : group.primary ∈ unit.declarations :=
    Group.mem_of_mem_ofDeclarations (List.mem_of_getElem? isGroup) group.primary_mem_members
  rcases List.mem_cons.mp listed with isRoot | isOther
  · rw [isRoot, unit.root_parent] at isParent
    cases isParent
  · obtain ⟨owner, ownerListed, isOwner, canOwn⟩ := unit.exists_owner isOther
    obtain ⟨ownerGroup, isOwnerGroup, declaration, grouped, sameId⟩ :=
      Group.exists_mem_of_indexOf? found
    have ownerMember := List.mem_of_getElem? isOwnerGroup
    rw [isParent, Option.some.injEq] at isOwner
    have isSame : declaration = owner :=
      TranslationUnit.eq_of_id_eq (Group.mem_of_mem_ofDeclarations ownerMember grouped)
        ownerListed (sameId.trans isOwner)
    refine ⟨_, by rw [getElem?_ofGroups, isOwnerGroup, Option.map_some], ?_⟩
    rw [canOwn_ofGroup ownerMember grouped, isSame, canOwn]

/-- A move leads into something that can own what is moved. -/
theorem canOwn_of_requested {entity : Entity} {move : Move}
    (member : entity ∈ ofUnit unit table)
    (asks : Move.requested (ofUnit unit table) entity = .ok (some move)) {parent : Nat}
    (leadsTo : move.parent = some parent) :
    ∃ owner, (ofUnit unit table)[parent]? = some owner ∧ owner.kind.canOwn = true := by
  rcases Move.requested_cases asks with ⟨_, _, _, _, _, rfl⟩ | ⟨_, _, _, found, rfl⟩
  · exact canOwn_of_lexicalParent member leadsTo
  · rw [Option.some.injEq] at leadsTo
    rw [Move.destination?, Option.filter_eq_some_iff, leadsTo] at found
    cases owner : (ofUnit unit table)[parent]? with
    | none => simp [owner] at found
    | some context =>
        simp only [owner] at found
        exact ⟨context, rfl, by rw [DeclarationKind.canOwn, found.2, Bool.true_or]⟩

/-- After the moves, what stands around an entity can own it. -/
theorem canOwn_of_parentAfter {entity : Entity} (member : entity ∈ ofUnit unit table)
    {parent : Nat}
    (around : entity.parentAfter (Move.ofEntities (ofUnit unit table)).1 = some parent) :
    ∃ owner, (ofUnit unit table)[parent]? = some owner ∧ owner.kind.canOwn = true := by
  rw [parentAfter] at around
  split at around
  · rename_i move found
    rcases Move.mem_makeAll (List.mem_of_find?_eq_some found) with old | ⟨other, listed, asks⟩
    · cases old
    · exact canOwn_of_requested listed asks around
  · exact canOwn_of_lexicalParent member around

end Entity

/-! ## Nodes of declarations -/

namespace Graph

variable {unit : TranslationUnit} {table : MarkingTable} {graph : Graph}

/-- What stands around a node can own it. -/
theorem canOwn_of_parent (built : ofUnit unit table = .ok graph) {node parent : Node}
    (member : node ∈ graph.nodes) (parentMember : parent ∈ graph.nodes)
    (around : node.parent = some parent.id) : parent.kind.canOwn = true := by
  obtain ⟨entity, isEntity, rfl⟩ := exists_entity_of_mem built member
  obtain ⟨other, isOther, rfl⟩ := exists_entity_of_mem built parentMember
  obtain ⟨owner, isOwner, canOwn⟩ := Entity.canOwn_of_parentAfter isEntity around
  have found : (Entity.ofUnit unit table)[other.id]? = some owner := isOwner
  rw [Entity.getElem?_id_of_mem isOther, Option.some.injEq] at found
  rw [← found] at canOwn
  exact canOwn

/-- A root without a name is nothing but the root. -/
theorem root_kind_of_unnamed (built : ofUnit unit table = .ok graph)
    (unnamed : unit.root.qualifiedName = "") {top : Node} (isTop : graph.node? root = some top) :
    top.kind = .translationUnit := by
  obtain ⟨entity, isEntity, rfl⟩ := exists_entity_of_node? built isTop
  rw [Entity.getElem?_ofGroups, Option.map_eq_some_iff] at isEntity
  obtain ⟨group, isGroup, rfl⟩ := isEntity
  obtain ⟨declaration, listed, sameKind⟩ :=
    Entity.exists_kind_ofGroup table (Group.ofDeclarations unit.declarations) root group
  rw [Group.eq_root_of_unnamed unnamed isGroup, Group.members, List.mem_singleton] at listed
  rw [listed, unit.root_kind] at sameKind
  exact sameKind

/-- The declarations of a node are those of the group of its number. -/
theorem exists_group_at (built : ofUnit unit table = .ok graph) {node : Node}
    (member : node ∈ graph.nodes) :
    ∃ group, (Group.ofDeclarations unit.declarations)[node.id]? = some group ∧
      ∀ declaration ∈ unit.declarations,
        node.declarations.contains declaration.id = true ↔ declaration ∈ group.members := by
  obtain ⟨entity, isEntity, rfl⟩ := exists_entity_of_mem built member
  obtain ⟨index, group, isGroup, rfl⟩ := Entity.exists_group_of_mem isEntity
  refine ⟨group, isGroup, ?_⟩
  intro declaration listed
  change (group.inSourceOrder.map Declaration.id).contains declaration.id = true ↔ _
  rw [List.contains_iff_mem, List.mem_map, ← Group.mem_inSourceOrder]
  constructor
  · rintro ⟨other, grouped, sameId⟩
    have otherListed := Group.mem_of_mem_ofDeclarations (List.mem_of_getElem? isGroup)
      (Group.mem_inSourceOrder.mp grouped)
    rwa [← TranslationUnit.eq_of_id_eq otherListed listed sameId]
  · intro grouped
    exact ⟨declaration, grouped, rfl⟩

/-- No declaration is merged into a node twice. -/
theorem declarations_nodup (built : ofUnit unit table = .ok graph) {node : Node}
    (member : node ∈ graph.nodes) : node.declarations.Nodup := by
  obtain ⟨entity, isEntity, rfl⟩ := exists_entity_of_mem built member
  obtain ⟨index, group, isGroup, rfl⟩ := Entity.exists_group_of_mem isEntity
  exact Group.inSourceOrder_ids_nodup (List.mem_of_getElem? isGroup)

/-- Every declaration has a node. -/
theorem nodeOf?_isSome (built : ofUnit unit table = .ok graph) {declaration : Declaration}
    (listed : declaration ∈ unit.declarations) : (graph.nodeOf? declaration.id).isSome := by
  obtain ⟨group, member, grouped⟩ := Group.exists_mem_ofDeclarations listed
  obtain ⟨index, isGroup⟩ := List.mem_iff_getElem?.mp member
  have isEntity : (Entity.ofGroup table (Group.ofDeclarations unit.declarations) index group).1 ∈
      Entity.ofUnit unit table := by
    refine List.mem_of_getElem? (i := index) ?_
    rw [Entity.getElem?_ofGroups, isGroup, Option.map_some]
  have found := node?_of_entity built isEntity
  rw [nodeOf?, Option.isSome_map, List.find?_isSome]
  refine ⟨_, mem_nodes_of_node? found, ?_⟩
  change (group.inSourceOrder.map Declaration.id).contains declaration.id = true
  rw [List.contains_iff_mem]
  exact List.mem_map_of_mem (Group.mem_inSourceOrder.mpr grouped)

/-- The node that is found for a declaration has it. -/
theorem exists_node_of_nodeOf? {id number : Nat} (found : graph.nodeOf? id = some number) :
    ∃ node ∈ graph.nodes, node.id = number ∧ node.declarations.contains id = true := by
  obtain ⟨node, isFound, sameId⟩ := Option.map_eq_some_iff.mp found
  have holds := List.find?_some isFound
  exact ⟨node, List.mem_of_find?_eq_some isFound, sameId, holds⟩

/-- Two declarations have one node exactly if they are one or have one key. -/
theorem nodeOf?_eq_iff (built : ofUnit unit table = .ok graph) {left right : Declaration}
    (leftListed : left ∈ unit.declarations) (rightListed : right ∈ unit.declarations) :
    graph.nodeOf? left.id = graph.nodeOf? right.id ↔ left = right ∨ left.Redeclares right := by
  have keyed := Group.ofDeclarations_keyed unit.declarations
  have grouped {declaration : Declaration} (listed : declaration ∈ unit.declarations) :=
    (Group.ofDeclarations_perm unit.declarations).mem_iff.mpr listed
  constructor
  · intro sameNode
    obtain ⟨number, leftFound⟩ := Option.isSome_iff_exists.mp (nodeOf?_isSome built leftListed)
    have rightFound := leftFound
    rw [sameNode] at rightFound
    obtain ⟨node, member, isNode, hasLeft⟩ := exists_node_of_nodeOf? leftFound
    obtain ⟨other, otherMember, isOther, hasRight⟩ := exists_node_of_nodeOf? rightFound
    rw [(ofUnit_wired built).eq_of_id_eq otherMember member (isOther.trans isNode.symm)]
      at hasRight
    obtain ⟨group, isGroup, hasDeclaration⟩ := exists_group_at built member
    rw [hasDeclaration left leftListed] at hasLeft
    rw [hasDeclaration right rightListed] at hasRight
    exact (keyed.mem_members_iff (List.mem_of_getElem? isGroup) hasLeft
      (grouped rightListed)).mp hasRight
  · intro together
    -- Every node has both of them or neither.
    have hasBoth : ∀ node ∈ graph.nodes,
        node.declarations.contains left.id = node.declarations.contains right.id := by
      intro node member
      obtain ⟨group, isGroup, hasDeclaration⟩ := exists_group_at built member
      have groupMember := List.mem_of_getElem? isGroup
      rw [Bool.eq_iff_iff, hasDeclaration left leftListed, hasDeclaration right rightListed]
      constructor
      · intro hasLeft
        exact (keyed.mem_members_iff groupMember hasLeft (grouped rightListed)).mpr together
      · intro hasRight
        exact (keyed.mem_members_iff groupMember hasRight (grouped leftListed)).mpr
          (together.imp Eq.symm Declaration.Redeclares.symm)
    unfold nodeOf?
    rw [List.find?_congr hasBoth]

end Graph

end Registrar
