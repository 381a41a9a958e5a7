import Mathlib
import Registrar.Proofs.Inheritance.Takes
import Registrar.Proofs.Renumbering.Visibility

/-!
Contract: what classes take from their bases in a graph under other numbers.

Owns: that the same classes take the same supertypes and members, in the same
order.

Does not own: what becomes of the members.
-/

set_option autoImplicit false

namespace Registrar

variable {number : Nat → Nat} {graph other : Graph} {visibility otherVisibility : Visibility}
  {configuration : Configuration}

/-! ## What is taken -/

def Member.renumber (number : Nat → Nat) (used : Member) : Member :=
  { node := number used.node, inlinedFrom := used.inlinedFrom.map number }

def BaseUse.renumber (number : Nat → Nat) (use : BaseUse) : BaseUse :=
  { use with node := use.node.map number }

def ClassBases.renumber (number : Nat → Nat) (gained : ClassBases) : ClassBases :=
  { bases := gained.bases.map (BaseUse.renumber number)
    registered := gained.registered.map number
    inherited := gained.inherited.map (Member.renumber number) }

namespace Inheritance

/-- The other classes take the same under other numbers. -/
structure Renumbers (number : Nat → Nat) (inheritance other : Inheritance) : Prop where
  get?_eq : ∀ id, other.get? (number id) =
    (inheritance.get? id).map (ClassBases.renumber number)
  inlined_iff : ∀ id, number id ∈ other.inlinedNodes ↔ id ∈ inheritance.inlinedNodes

/-! ## Bases -/

theorem classNamed?_renumber (renumbers : Graph.Renumbers number graph other) (name : String) :
    classNamed? other name = (classNamed? graph name).map (Node.renumber number) := by
  unfold classNamed?
  rw [renumbers.resolveType_eq, renumbers.bind_node?_eq, Option.filter_map]
  rfl

theorem namesOf_renumber (renumbers : Graph.Renumbers number graph other) (base : BaseClause) :
    namesOf other base = namesOf graph base := by
  unfold namesOf
  rw [classNamed?_renumber renumbers, Option.map_map]
  rfl

theorem usesOf_renumber (renumbers : Graph.Renumbers number graph other) (node : Node) :
    usesOf other (node.renumber number) = (usesOf graph node).map (BaseUse.renumber number) := by
  have sameBases : basesOf (node.renumber number) = basesOf node := rfl
  unfold usesOf
  rw [sameBases, List.map_map]
  refine List.map_congr_left fun base _ => ?_
  simp only [modeOf, namesOf_renumber renumbers, classNamed?_renumber renumbers, Option.map_map,
    Node.renumber_marking, Function.comp_apply, BaseUse.renumber]
  rfl

/-! ## Members -/

theorem inlinableMembers_renumber (renumbers : Graph.Renumbers number graph other)
    (base : Node) :
    inlinableMembers other (base.renumber number) =
      (inlinableMembers graph base).map number := by
  unfold inlinableMembers
  rw [renumbers.childrenOf_eq, List.filter_map, List.map_map, List.map_map]
  rfl

theorem ownNames_renumber (renumbers : Graph.Renumbers number graph other)
    (same : Visibility.Renumbers number visibility otherVisibility) (node : Node) :
    ownNames other otherVisibility (node.renumber number) = ownNames graph visibility node := by
  unfold ownNames
  rw [renumbers.childrenOf_eq, List.filter_map, List.map_map]
  exact List.map_congr_left fun member _ => same.exposedName member.id

theorem register_renumber (injective : Function.Injective number) (gained : ClassBases)
    (supertype : Nat) :
    register (gained.renumber number) (number supertype) =
      (register gained supertype).renumber number := by
  have sameKnown : (gained.renumber number).registered.contains (number supertype) =
      gained.registered.contains supertype := contains_map injective _ _
  unfold register
  rw [sameKnown]
  split
  · rfl
  · simp [ClassBases.renumber]

theorem inherit_renumber (injective : Function.Injective number)
    (same : Visibility.Renumbers number visibility otherVisibility) (taken : List String)
    (gained : ClassBases) (member : Member) :
    inherit otherVisibility taken (gained.renumber number) (member.renumber number) =
      (inherit visibility taken gained member).renumber number := by
  have sameName : otherVisibility.exposedName (member.renumber number).node =
      visibility.exposedName member.node := same.exposedName member.node
  have sameKnown : ((gained.renumber number).inherited.any fun other =>
      other.node == (member.renumber number).node) =
      gained.inherited.any fun other => other.node == member.node := by
    unfold ClassBases.renumber
    rw [List.any_map]
    congr 1
    funext known
    exact injective.beq_eq
  unfold inherit
  rw [sameName, sameKnown]
  split
  · rfl
  · simp [ClassBases.renumber]

theorem absorb_renumber (renumbers : Graph.Renumbers number graph other)
    (same : Visibility.Renumbers number visibility otherVisibility) (taken : List String)
    (gained : ClassBases) (base : Nat) (handedOn : ClassBases) :
    absorb other otherVisibility taken (gained.renumber number) (number base)
        (handedOn.renumber number) =
      (absorb graph visibility taken gained base handedOn).renumber number := by
  have registers (supertypes : List Nat) (gained : ClassBases) :
      (supertypes.map number).foldl register (gained.renumber number) =
        (supertypes.foldl register gained).renumber number := by
    rw [List.foldl_map]
    exact List.foldl_hom (ClassBases.renumber number)
      fun gained supertype => register_renumber renumbers.injective gained supertype
  have inherits (members : List Member) (gained : ClassBases) :
      (members.map (Member.renumber number)).foldl (inherit otherVisibility taken)
          (gained.renumber number) =
        (members.foldl (inherit visibility taken) gained).renumber number := by
    rw [List.foldl_map]
    exact List.foldl_hom (ClassBases.renumber number)
      fun gained member => inherit_renumber renumbers.injective same taken gained member
  have sameOwn : ((other.node? (number base)).map fun node =>
      (inlinableMembers other node).map fun member =>
        ({ node := member, inlinedFrom := some (number base) } : Member)).getD [] =
      (((graph.node? base).map fun node =>
        (inlinableMembers graph node).map fun member =>
          ({ node := member, inlinedFrom := some base } : Member)).getD []).map
            (Member.renumber number) := by
    rw [renumbers.node?_eq]
    cases graph.node? base with
    | none => rfl
    | some node =>
        simp only [Option.map_some, Option.getD_some, inlinableMembers_renumber renumbers,
          List.map_map]
        rfl
  have sameHanded : (handedOn.renumber number).inherited =
      handedOn.inherited.map (Member.renumber number) := rfl
  have sameSupertypes : (handedOn.renumber number).registered =
      handedOn.registered.map number := rfl
  unfold absorb
  dsimp only
  rw [sameOwn, sameHanded, sameSupertypes, registers, ← List.map_append, inherits]

/-! ## Taking -/

theorem gather_renumber (renumbers : Graph.Renumbers number graph other)
    (same : Visibility.Renumbers number visibility otherVisibility) (taken : List String)
    {handsOn handsOnOther : Nat → Option ClassBases}
    (sameHanded : ∀ base, handsOnOther (number base) =
      (handsOn base).map (ClassBases.renumber number))
    (uses : List BaseUse) (gained : ClassBases) :
    gather other otherVisibility taken handsOnOther (uses.map (BaseUse.renumber number))
        (gained.renumber number) =
      (gather graph visibility taken handsOn uses gained).map (ClassBases.renumber number) := by
  induction uses generalizing gained with
  | nil => rfl
  | cons use rest inductionHypothesis =>
      have sameNode : (use.renumber number).node = use.node.map number := rfl
      have sameMode : (use.renumber number).mode = use.mode := rfl
      have sameAccess : (use.renumber number).access = use.access := rfl
      rw [List.map_cons]
      unfold gather
      rw [sameNode, sameMode, sameAccess]
      cases use.node with
      | none => exact inductionHypothesis gained
      | some base =>
          rw [Option.map_some]
          cases use.mode with
          | keep =>
              dsimp only
              rw [same.emitted]
              split
              · rw [register_renumber renumbers.injective, inductionHypothesis]
              · exact inductionHypothesis gained
          | hide => exact inductionHypothesis gained
          | inline =>
              dsimp only
              rw [sameHanded, Option.map_bind, Option.bind_map]
              refine Option.bind_congr fun handedOn _ => ?_
              rw [Function.comp_apply, absorb_renumber renumbers same]
              exact inductionHypothesis _

theorem takenWithin_renumber (renumbers : Graph.Renumbers number graph other)
    (same : Visibility.Renumbers number visibility otherVisibility) (depth id : Nat) :
    takenWithin other otherVisibility depth (number id) =
      (takenWithin graph visibility depth id).map (ClassBases.renumber number) := by
  induction depth generalizing id with
  | zero => rfl
  | succ depth inductionHypothesis =>
      unfold takenWithin
      rw [renumbers.node?_eq]
      cases graph.node? id with
      | none => rfl
      | some node =>
          simp only [Option.map_some]
          rw [usesOf_renumber renumbers, ownNames_renumber renumbers same]
          exact gather_renumber renumbers same _ inductionHypothesis (usesOf graph node)
            { bases := usesOf graph node }

theorem takes_renumber_iff (renumbers : Graph.Renumbers number graph other)
    (same : Visibility.Renumbers number visibility otherVisibility) {id : Nat}
    {gained : ClassBases} :
    Takes other otherVisibility (number id) gained ↔
      ∃ original, Takes graph visibility id original ∧ original.renumber number = gained := by
  unfold Takes
  constructor
  · rintro ⟨depth, isTaken⟩
    rw [takenWithin_renumber renumbers same, Option.map_eq_some_iff] at isTaken
    obtain ⟨original, isOriginal, isSame⟩ := isTaken
    exact ⟨original, ⟨depth, isOriginal⟩, isSame⟩
  · rintro ⟨original, ⟨depth, isTaken⟩, rfl⟩
    exact ⟨depth, by rw [takenWithin_renumber renumbers same, isTaken, Option.map_some]⟩

theorem inlines_renumber_iff (renumbers : Graph.Renumbers number graph other) {id base : Nat} :
    Inlines other (number id) base ↔ ∃ original, Inlines graph id original ∧
      number original = base := by
  unfold Inlines
  rw [renumbers.node?_eq]
  constructor
  · rintro ⟨found, isFound, use, isUse, isBase, isInlined⟩
    obtain ⟨node, isNode, rfl⟩ := Option.map_eq_some_iff.mp isFound
    rw [usesOf_renumber renumbers] at isUse
    obtain ⟨originalUse, isOriginal, rfl⟩ := List.mem_map.mp isUse
    obtain ⟨original, isOriginalBase, isSame⟩ := Option.map_eq_some_iff.mp isBase
    exact ⟨original, ⟨node, isNode, originalUse, isOriginal, isOriginalBase, isInlined⟩, isSame⟩
  · rintro ⟨original, ⟨node, isNode, use, isUse, isBase, isInlined⟩, rfl⟩
    refine ⟨node.renumber number, by rw [isNode, Option.map_some], use.renumber number, ?_, ?_,
      isInlined⟩
    · rw [usesOf_renumber renumbers]
      exact List.mem_map_of_mem isUse
    · unfold BaseUse.renumber
      rw [isBase, Option.map_some]

/-! ## Classes that are followed -/

theorem mem_emittedClasses_renumber (renumbers : Graph.Renumbers number graph other)
    (same : Visibility.Renumbers number visibility otherVisibility) (id : Nat) :
    id ∈ emittedClasses other otherVisibility ↔
      ∃ original ∈ emittedClasses graph visibility, number original = id := by
  rw [mem_emittedClasses renumbers.otherWired]
  constructor
  · rintro ⟨emitted, found, isFound, isClass⟩
    obtain ⟨node, member, rfl⟩ := (renumbers.mem_iff found).mp (Graph.mem_nodes_of_node? isFound)
    have sameId : number node.id = id := renumbers.otherWired.id_eq isFound
    rw [← sameId, same.emitted] at emitted
    refine ⟨node.id, (mem_emittedClasses renumbers.wired).mpr
      ⟨emitted, node, renumbers.wired.node?_id member, isClass⟩, sameId⟩
  · rintro ⟨original, listed, rfl⟩
    obtain ⟨emitted, node, isNode, isClass⟩ := (mem_emittedClasses renumbers.wired).mp listed
    refine ⟨by rw [same.emitted, emitted], node.renumber number, ?_, isClass⟩
    rw [renumbers.node?_eq, isNode, Option.map_some]

theorem followed_renumber_iff (renumbers : Graph.Renumbers number graph other)
    (same : Visibility.Renumbers number visibility otherVisibility) (id : Nat) :
    Followed other otherVisibility id ↔
      ∃ original, Followed graph visibility original ∧ number original = id := by
  constructor
  · rintro ⟨first, isFirst, path⟩
    obtain ⟨start, isStart, rfl⟩ := (mem_emittedClasses_renumber renumbers same first).mp isFirst
    induction path with
    | refl => exact ⟨start, ⟨start, isStart, .refl⟩, rfl⟩
    | tail _ inlines inductionHypothesis =>
        obtain ⟨middle, ⟨first, isEmitted, path⟩, rfl⟩ := inductionHypothesis
        obtain ⟨last, isLast, rfl⟩ := (inlines_renumber_iff renumbers).mp inlines
        exact ⟨last, ⟨first, isEmitted, path.tail isLast⟩, rfl⟩
  · rintro ⟨original, ⟨first, isFirst, path⟩, rfl⟩
    refine ⟨number first,
      (mem_emittedClasses_renumber renumbers same _).mpr ⟨first, isFirst, rfl⟩, ?_⟩
    induction path with
    | refl => exact .refl
    | tail _ inlines inductionHypothesis =>
        exact inductionHypothesis.tail ((inlines_renumber_iff renumbers).mpr ⟨_, inlines, rfl⟩)

theorem get?_renumber (renumbers : Graph.Renumbers number graph other)
    (same : Visibility.Renumbers number visibility otherVisibility)
    {inheritance found : Inheritance}
    (built : (ofGraph graph visibility configuration).1 = .ok inheritance)
    (isFound : (ofGraph other otherVisibility configuration).1 = .ok found) (id : Nat) :
    found.get? (number id) = (inheritance.get? id).map (ClassBases.renumber number) := by
  rw [Option.ext_iff]
  intro gained
  rw [get?_eq_some_iff renumbers.otherWired isFound, followed_renumber_iff renumbers same,
    takes_renumber_iff renumbers same, Option.map_eq_some_iff]
  simp only [get?_eq_some_iff renumbers.wired built]
  constructor
  · rintro ⟨⟨original, followed, sameId⟩, taken, isTaken, rfl⟩
    rw [renumbers.injective sameId] at followed
    exact ⟨taken, ⟨followed, isTaken⟩, rfl⟩
  · rintro ⟨taken, ⟨followed, isTaken⟩, rfl⟩
    exact ⟨⟨id, followed, rfl⟩, taken, isTaken, rfl⟩

theorem mem_inlinedNodes_renumber_iff (renumbers : Graph.Renumbers number graph other)
    (same : Visibility.Renumbers number visibility otherVisibility)
    {inheritance found : Inheritance}
    (built : (ofGraph graph visibility configuration).1 = .ok inheritance)
    (isFound : (ofGraph other otherVisibility configuration).1 = .ok found) (id : Nat) :
    number id ∈ found.inlinedNodes ↔ id ∈ inheritance.inlinedNodes := by
  unfold inlinedNodes
  simp only [List.mem_flatMap, List.mem_map]
  constructor
  · rintro ⟨entry, listed, member, isMember, sameNode⟩
    obtain ⟨followed, isTaken⟩ := (mem_classes_iff renumbers.otherWired isFound).mp listed
    obtain ⟨original, isFollowed, sameId⟩ := (followed_renumber_iff renumbers same _).mp followed
    rw [← sameId, takes_renumber_iff renumbers same] at isTaken
    obtain ⟨gained, isGained, isSame⟩ := isTaken
    rw [← isSame] at isMember
    obtain ⟨used, isUsed, rfl⟩ := List.mem_map.mp isMember
    exact ⟨(original, gained),
      (mem_classes_iff renumbers.wired built).mpr ⟨isFollowed, isGained⟩, used, isUsed,
      renumbers.injective sameNode⟩
  · rintro ⟨entry, listed, member, isMember, rfl⟩
    obtain ⟨followed, isTaken⟩ := (mem_classes_iff renumbers.wired built).mp listed
    refine ⟨(number entry.1, entry.2.renumber number),
      (mem_classes_iff renumbers.otherWired isFound).mpr
        ⟨(followed_renumber_iff renumbers same _).mpr ⟨entry.1, followed, rfl⟩,
          (takes_renumber_iff renumbers same).mpr ⟨entry.2, isTaken, rfl⟩⟩,
      member.renumber number, List.mem_map_of_mem isMember, rfl⟩

/-- Under other numbers the same classes take the same, if they take anything. -/
theorem ofGraph_renumbers (renumbers : Graph.Renumbers number graph other)
    (same : Visibility.Renumbers number visibility otherVisibility) {inheritance : Inheritance}
    (built : (ofGraph graph visibility configuration).1 = .ok inheritance) :
    ∃ found, (ofGraph other otherVisibility configuration).1 = .ok found ∧
      Renumbers number inheritance found := by
  have takes := (exists_ofGraph_iff renumbers.wired).mp ⟨inheritance, built⟩
  have takesOther : ∀ id ∈ emittedClasses other otherVisibility,
      ∃ gained, Takes other otherVisibility id gained := by
    intro id listed
    obtain ⟨original, isOriginal, rfl⟩ := (mem_emittedClasses_renumber renumbers same id).mp listed
    obtain ⟨gained, isTaken⟩ := takes original isOriginal
    exact ⟨gained.renumber number, (takes_renumber_iff renumbers same).mpr ⟨gained, isTaken, rfl⟩⟩
  obtain ⟨found, isFound⟩ := (exists_ofGraph_iff renumbers.otherWired).mpr takesOther
  exact ⟨found, isFound, get?_renumber renumbers same built isFound,
    mem_inlinedNodes_renumber_iff renumbers same built isFound⟩

/-! ## What a class has -/

namespace Renumbers

variable {inheritance otherInheritance : Inheritance}

theorem registered_eq (sameTaken : Renumbers number inheritance otherInheritance) (id : Nat) :
    otherInheritance.registered (number id) = (inheritance.registered id).map number := by
  unfold Inheritance.registered
  rw [sameTaken.get?_eq]
  cases inheritance.get? id <;> rfl

theorem inherited_eq (sameTaken : Renumbers number inheritance otherInheritance) (id : Nat) :
    otherInheritance.inherited (number id) =
      (inheritance.inherited id).map (Member.renumber number) := by
  unfold Inheritance.inherited
  rw [sameTaken.get?_eq]
  cases inheritance.get? id <;> rfl

theorem members_eq (sameTaken : Renumbers number inheritance otherInheritance)
    (renumbers : Graph.Renumbers number graph other)
    (same : Visibility.Renumbers number visibility otherVisibility) (node : Node) :
    otherInheritance.members other otherVisibility (node.renumber number) =
      (inheritance.members graph visibility node).map (Member.renumber number) := by
  have sameOwn : (fun member : Node =>
      isMemberKind member.kind && otherVisibility.isEmitted member.id) ∘ Node.renumber number =
      fun member : Node => isMemberKind member.kind && visibility.isEmitted member.id := by
    funext member
    simp [same.emitted]
  unfold Inheritance.members
  dsimp only
  rw [renumbers.childrenOf_eq, List.filter_map, sameOwn, Node.renumber_id,
    sameTaken.inherited_eq, List.map_append, List.map_map, List.map_map]
  rfl

end Renumbers

end Inheritance

end Registrar
