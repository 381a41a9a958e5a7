import Mathlib
import Registrar.Proofs.Graph.Aliases
import Registrar.Proofs.Graph.Rooting

/-!
Contract: manual blocks among the nodes.

Owns: that a manual block is declared once and stays where it is declared, so that
a block before or after everything else is directly below the root.

Does not own: which blocks are emitted.
-/

set_option autoImplicit false

namespace Registrar

/-- What has no key is alone in its group. -/
theorem Group.Keyed.eq_singleton {groups : List Group} (keyed : Keyed groups) {group : Group}
    (member : group ∈ groups) {declaration : Declaration} (listed : declaration ∈ group.members)
    (noKey : declaration.mergeKey? = none) : group = ⟨declaration, []⟩ := by
  have notDeclaredAgain (other : Declaration) : ¬ other.Redeclares declaration := by
    rintro ⟨key, _, isKey⟩
    rw [noKey] at isKey
    cases isKey
  have isFirst : declaration = group.first :=
    (keyed.redeclares_first member listed).resolve_right (notDeclaredAgain _)
  obtain ⟨first, others⟩ := group
  obtain rfl : declaration = first := isFirst
  rw [Group.mk.injEq, List.eq_nil_iff_forall_not_mem]
  exact ⟨rfl, fun other isOther =>
    notDeclaredAgain other (keyed.shared _ member other isOther).symm⟩

theorem Declaration.mergeKey?_of_block {declaration : Declaration}
    (isBlock : declaration.kind.target = .manualBlock) : declaration.mergeKey? = none := by
  unfold Declaration.mergeKey?
  rw [if_pos (beq_iff_eq.mpr isBlock)]

/-- The group of the root is found for it. -/
theorem Group.indexOf?_root (unit : TranslationUnit) :
    indexOf? (ofDeclarations unit.declarations) unit.root.id = some 0 := by
  obtain ⟨first, rest, groups, isRoot, _⟩ := ledBy_ofDeclarations unit
  have holdsRoot : (first.members.any fun declaration =>
      declaration.id == unit.root.id) = true := by
    rw [← isRoot]
    exact List.any_eq_true.mpr ⟨first.first, first.mem_members_first, beq_self_eq_true _⟩
  rw [indexOf?, groups, List.findIdx?_cons, if_pos holdsRoot]

namespace Entity

variable {unit : TranslationUnit} {table : MarkingTable}

/-- A block is declared once, which says all that is known of it. -/
theorem exists_declaration_of_block {entity : Entity} (member : entity ∈ ofUnit unit table)
    (isBlock : entity.kind.target = .manualBlock) :
    ∃ declaration ∈ unit.declarations, declaration.kind.target = .manualBlock ∧
      entity.marking = table.get declaration.id ∧
      entity.lexicalParent =
        declaration.parent.bind (Group.indexOf? (Group.ofDeclarations unit.declarations)) := by
  obtain ⟨index, group, isGroup, rfl⟩ := exists_group_of_mem member
  obtain ⟨declaration, listed, sameKind⟩ :=
    exists_kind_ofGroup table (Group.ofDeclarations unit.declarations) index group
  rw [sameKind] at isBlock
  have groupMember := List.mem_of_getElem? isGroup
  have alone := (Group.ofDeclarations_keyed unit.declarations).eq_singleton groupMember listed
    (Declaration.mergeKey?_of_block isBlock)
  have inOrder : group.inSourceOrder = [declaration] := by
    rw [alone]
    exact List.mergeSort_singleton _
  have isPrimary : group.primary = declaration := by
    rw [Group.primary, inOrder, List.headD_cons]
  refine ⟨declaration, Group.mem_of_mem_ofDeclarations groupMember listed, isBlock, ?_, ?_⟩
  · simp only [ofGroup, inOrder, List.headD_cons, List.tail_cons, mergeMarkings]
  · rw [lexicalParent_ofGroup, isPrimary]

end Entity

/-- What has no fault and is placed before or after everything else is declared below the
root. -/
theorem Examination.parent_of_outerPlacement {unit : TranslationUnit} {declaration : Declaration}
    {marking : Marking} (noCauses : causes unit declaration marking = [])
    (placed : marking.placement = some .early ∨ marking.placement = some .postamble) :
    declaration.parent = some unit.root.id := by
  unfold causes at noCauses
  have isAtRoot : isAtRoot unit declaration = true := by
    by_contra notAtRoot
    rcases placed with isPlaced | isPlaced <;> simp [misplaced, isPlaced, notAtRoot] at noCauses
  unfold Examination.isAtRoot at isAtRoot
  split at isAtRoot
  · rename_i owner found
    obtain ⟨id, isParent, isOwner⟩ := Option.bind_eq_some_iff.mp found
    obtain ⟨listed, rfl⟩ := TranslationUnit.get?_eq_some_iff.mp isOwner
    rcases List.mem_cons.mp listed with rfl | isOther
    · exact isParent
    · exact absurd (beq_iff_eq.mp isAtRoot) (unit.target_of_mem_others isOther)
  · cases isAtRoot

namespace Graph

variable {unit : TranslationUnit} {table : MarkingTable} {graph : Graph}

/-- No block has a name that is looked up. -/
theorem notBlock_of_named (built : ofUnit unit table = .ok graph) {name : String} {node : Node}
    (named : graph.named? name = some node) : node.kind.target ≠ .manualBlock := by
  obtain ⟨id, found, isNode⟩ := Option.bind_eq_some_iff.mp named
  obtain ⟨entity, isEntity, rfl⟩ := exists_entity_of_node? built isNode
  rw [lookup, entities_of_ofUnit built, Entity.lookup] at found
  split at found
  · -- The empty name is that of the root, which owns what is at the top.
    rw [← Option.some.inj found] at isEntity
    exact DeclarationKind.notBlock_of_canOwn (Entity.canOwn_root isEntity)
  · obtain ⟨other, isOther, rfl⟩ := Option.map_eq_some_iff.mp found
    rw [Entity.getElem?_id_of_mem (List.mem_of_find?_eq_some isOther),
      Option.some.injEq] at isEntity
    have isNamed := List.find?_some isOther
    rw [beq_iff_eq, isEntity] at isNamed
    intro isBlock
    change entity.kind.target = .manualBlock at isBlock
    cases kind : entity.kind <;> simp [kind, DeclarationKind.target] at isBlock
    simp [Entity.lookupName?, Entity.isNamed, kind, DeclarationKind.target,
      DeclarationKind.isContext] at isNamed

/-- No move is one of a block: no alias stands for it, and it asks for none itself. -/
theorem find?_of_block (marked : MarkingTable.ofUnit unit = .ok table)
    (built : ofUnit unit table = .ok graph) {entity : Entity}
    (member : entity ∈ Entity.ofUnit unit table) (isBlock : entity.kind.target = .manualBlock) :
    Move.find? (Move.ofEntities (Entity.ofUnit unit table)).1 entity.id = none := by
  rw [Option.eq_none_iff_forall_ne_some]
  intro move found
  have isTarget : move.target = entity.id := by simpa using List.find?_some found
  rcases Move.mem_makeAll (List.mem_of_find?_eq_some found) with old | ⟨other, listed, asks⟩
  · cases old
  · rcases Move.requested_cases asks with
      ⟨spelling, target, _, _, resolves, rfl⟩ | ⟨context, _, into, _, rfl⟩
    · obtain rfl : target = entity.id := isTarget
      rw [← entities_of_ofUnit built] at resolves
      obtain ⟨node, isNode, stands⟩ :=
        (resolveType_eq_some_iff (ofUnit_wired built) (root_notAlias built)).mp resolves
      obtain ⟨last, named⟩ := stands.exists_named.1
      rw [node?_of_entity built member, Option.some.injEq] at isNode
      rw [← isNode] at named
      exact notBlock_of_named built named isBlock
    · have isSame := Entity.getElem?_id_of_mem listed
      rw [show other.id = entity.id from isTarget, Entity.getElem?_id_of_mem member,
        Option.some.injEq] at isSame
      rw [← isSame] at into
      obtain ⟨declaration, isDeclared, sameSort, sameMarking, _⟩ :=
        Entity.exists_declaration_of_block member isBlock
      have isMarking := (MarkingTable.get_of_mem marked isDeclared).1
      rw [sameSort] at isMarking
      rw [sameMarking, Marking.ofPayloads_exposeHere (by decide) isMarking] at into
      cases into

/-- A block before or after everything else is directly below the root. -/
theorem parent_of_outerBlock (marked : MarkingTable.ofUnit unit = .ok table)
    (built : ofUnit unit table = .ok graph) {node : Node} (member : node ∈ graph.nodes)
    (isBlock : node.kind.target = .manualBlock)
    (placed : node.marking.placement = some .early ∨ node.marking.placement = some .postamble) :
    node.parent = some root := by
  obtain ⟨entity, isEntity, rfl⟩ := exists_entity_of_mem built member
  obtain ⟨declaration, listed, _, sameMarking, lexicalParent⟩ :=
    Entity.exists_declaration_of_block isEntity isBlock
  change entity.marking.placement = _ ∨ entity.marking.placement = _ at placed
  rw [sameMarking] at placed
  have isParent := Examination.parent_of_outerPlacement (MarkingTable.get_of_mem marked listed).2
    placed
  change entity.parentAfter _ = some root
  rw [Entity.parentAfter, find?_of_block marked built isEntity isBlock]
  dsimp only
  rw [lexicalParent, isParent, Option.bind_some, Group.indexOf?_root]
  rfl

end Graph

end Registrar
