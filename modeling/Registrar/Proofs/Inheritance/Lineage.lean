import Mathlib
import Registrar.Proofs.Inheritance.Takes

/-!
Contract: what a class takes, told by the ways through inlined bases.

Owns: which members and which supertypes come to a class, through which bases, and
that each comes once.

Does not own: the access of the bases on the way.

What one inlined base hands on is what it took itself, so a way is followed base by
base. No way comes back to a class that takes something, and the inductions here go
along the ways.
-/

set_option autoImplicit false

namespace Registrar.Inheritance

variable {graph : Graph} {visibility : Visibility} {configuration : Configuration}

/-- The one class has the other as a public base, and keeps it. -/
def Keeps (graph : Graph) (id base : Nat) : Prop :=
  ∃ node, graph.node? id = some node ∧
    ∃ use ∈ usesOf graph node, use.node = some base ∧ use.mode = .keep ∧ use.access = .public

/-- The class has the member as a public one that is not marked as hidden. -/
def Offers (graph : Graph) (id member : Nat) : Prop :=
  ∃ node, graph.node? id = some node ∧ ∃ child ∈ graph.childrenOf node, child.id = member ∧
    isMemberKind child.kind = true ∧ child.access = .public ∧
      child.marking.visible ≠ some false

/-- The class has a member of its own that is exposed under the name. -/
def Declares (graph : Graph) (visibility : Visibility) (id : Nat) (name : String) : Prop :=
  ∃ node, graph.node? id = some node ∧ ∃ child ∈ graph.childrenOf node,
    isMemberKind child.kind = true ∧ visibility.exposedName child.id = name

/-- The one class inlines the other, and lets members of the name pass. -/
def InlinesPast (graph : Graph) (visibility : Visibility) (name : String) (id base : Nat) :
    Prop :=
  Inlines graph id base ∧ ¬ Declares graph visibility id name

theorem mem_ownNames_iff {id : Nat} {node : Node} {name : String}
    (found : graph.node? id = some node) :
    name ∈ ownNames graph visibility node ↔ Declares graph visibility id name := by
  simp [ownNames, Declares, found, and_assoc]

theorem offers_iff {id member : Nat} :
    Offers graph id member ↔
      ∃ node, graph.node? id = some node ∧ member ∈ inlinableMembers graph node := by
  refine exists_congr fun node => and_congr_right fun _ => ?_
  simp only [inlinableMembers, List.mem_map, List.mem_filter, Bool.and_eq_true, beq_iff_eq,
    bne_iff_ne, ne_eq]
  exact exists_congr fun child => by tauto

/-- A member is a member of one class only. -/
theorem Offers.unique (wired : graph.Wired) {left right member : Nat}
    (isLeft : Offers graph left member) (isRight : Offers graph right member) :
    left = right := by
  obtain ⟨leftNode, foundLeft, child, below, rfl, _⟩ := isLeft
  obtain ⟨rightNode, foundRight, other, otherBelow, sameId, _⟩ := isRight
  have isChild := (wired.mem_childrenOf (Graph.mem_nodes_of_node? foundLeft)).mp below
  have isOther := (wired.mem_childrenOf (Graph.mem_nodes_of_node? foundRight)).mp otherBelow
  have same := wired.eq_of_id_eq isOther.1 isChild.1 sameId
  rw [same, isChild.2, Option.some.injEq] at isOther
  rw [← wired.id_eq foundLeft, ← wired.id_eq foundRight, isOther.2]

/-! ## What one base contributes -/

/-- Where each step adds just what its item contributes, all steps add just what some
item does. -/
theorem foldl_gains {α β : Type} {step : β → α → β} (holds : β → Prop) (adds : α → Prop)
    (gains : ∀ gained item, holds (step gained item) ↔ holds gained ∨ adds item)
    (items : List α) (gained : β) :
    holds (items.foldl step gained) ↔ holds gained ∨ ∃ item ∈ items, adds item := by
  induction items generalizing gained with
  | nil => simp
  | cons first rest inductionHypothesis =>
      rw [List.foldl_cons, inductionHypothesis, gains, or_assoc, List.exists_mem_cons_iff]

theorem mem_registered_register (gained : ClassBases) (base supertype : Nat) :
    supertype ∈ (register gained base).registered ↔
      supertype ∈ gained.registered ∨ supertype = base := by
  unfold register
  split
  · rename_i isKnown
    rw [List.contains_iff_mem] at isKnown
    refine (or_iff_left_of_imp ?_).symm
    rintro rfl
    exact isKnown
  · rw [List.mem_append, List.mem_singleton]

theorem inherited_register (gained : ClassBases) (base : Nat) :
    (register gained base).inherited = gained.inherited := by
  unfold register
  split <;> rfl

theorem registered_inherit (taken : List String) (gained : ClassBases) (member : Member) :
    (inherit visibility taken gained member).registered = gained.registered := by
  unfold inherit
  split <;> rfl

theorem mem_inherited_inherit (taken : List String) (gained : ClassBases) (member : Member)
    (id : Nat) :
    id ∈ (inherit visibility taken gained member).inherited.map Member.node ↔
      id ∈ gained.inherited.map Member.node ∨
        (member.node = id ∧ visibility.exposedName id ∉ taken) := by
  unfold inherit
  split
  · rename_i notTaken
    refine (or_iff_left_of_imp ?_).symm
    rintro ⟨rfl, isFree⟩
    rw [Bool.or_eq_true, List.contains_iff_mem, or_iff_right isFree, List.any_eq_true] at notTaken
    obtain ⟨other, isListed, isSame⟩ := notTaken
    exact List.mem_map.mpr ⟨other, isListed, beq_iff_eq.mp isSame⟩
  · rename_i isTaken
    rw [Bool.or_eq_true, not_or, List.contains_iff_mem] at isTaken
    rw [List.map_append, List.mem_append, List.map_singleton, List.mem_singleton]
    refine or_congr_right ⟨?_, fun isMember => isMember.1.symm⟩
    rintro rfl
    exact ⟨rfl, isTaken.1⟩

theorem mem_registered_absorb (taken : List String) (gained handedOn : ClassBases)
    (base supertype : Nat) :
    supertype ∈ (absorb graph visibility taken gained base handedOn).registered ↔
      supertype ∈ gained.registered ∨ supertype ∈ handedOn.registered := by
  have registers := foldl_gains (fun gained : ClassBases => supertype ∈ gained.registered)
    (fun other => supertype = other)
    (fun gained other => mem_registered_register gained other supertype)
  have inherits := foldl_gains (fun gained : ClassBases => supertype ∈ gained.registered)
    (fun _ => False)
    (fun gained member => by rw [@registered_inherit visibility taken gained member, or_false])
  unfold absorb
  rw [inherits, registers]
  simp

theorem mem_inherited_absorb (taken : List String) (gained handedOn : ClassBases)
    (base member : Nat) :
    member ∈ (absorb graph visibility taken gained base handedOn).inherited.map Member.node ↔
      member ∈ gained.inherited.map Member.node ∨
        visibility.exposedName member ∉ taken ∧
          (Offers graph base member ∨ member ∈ handedOn.inherited.map Member.node) := by
  have registers := foldl_gains
    (fun gained : ClassBases => member ∈ gained.inherited.map Member.node) (fun _ => False)
    (fun gained other => by rw [inherited_register gained other, or_false])
  have inherits := foldl_gains
    (fun gained : ClassBases => member ∈ gained.inherited.map Member.node)
    (fun used => used.node = member ∧ visibility.exposedName member ∉ taken)
    (fun gained used => mem_inherited_inherit taken gained used member)
  have offered : (∃ used ∈ ((graph.node? base).map fun node =>
      (inlinableMembers graph node).map fun inlined =>
        ({ node := inlined, inlinedFrom := some base } : Member)).getD [],
      used.node = member) ↔ Offers graph base member := by
    rw [offers_iff]
    cases graph.node? base <;> simp
  unfold absorb
  rw [inherits, registers, ← offered]
  simp only [and_false, exists_false, or_false, List.mem_append, List.mem_map, or_and_right,
    exists_or, ← and_assoc, exists_and_right]
  rw [← or_and_right, and_comm]

/-! ## What all bases contribute -/

/-- Where a kept base and an inlined one each add just what they contribute, all bases
of a class do. -/
theorem gather_gains {taken : List String} {handsOn : Nat → Option ClassBases}
    {holds : ClassBases → Prop} {kept : Nat → Prop} {handed : Nat → ClassBases → Prop}
    (registers : ∀ gained base, holds (register gained base) ↔ holds gained ∨ kept base)
    (absorbs : ∀ gained base handedOn,
      holds (absorb graph visibility taken gained base handedOn) ↔
        holds gained ∨ handed base handedOn)
    {uses : List BaseUse} {gained result : ClassBases}
    (isResult : gather graph visibility taken handsOn uses gained = some result) :
    holds result ↔ holds gained ∨ ∃ use ∈ uses, ∃ base, use.node = some base ∧
      ((use.mode = .keep ∧ use.access = .public ∧ visibility.isEmitted base = true ∧ kept base) ∨
        (use.mode = .inline ∧ ∃ handedOn, handsOn base = some handedOn ∧ handed base handedOn)) := by
  induction uses generalizing gained with
  | nil =>
      rw [gather, Option.some.injEq] at isResult
      simp [isResult]
  | cons use rest inductionHypothesis =>
      rw [List.exists_mem_cons_iff, ← or_assoc]
      cases isBase : use.node with
      | none =>
          simp only [gather, isBase] at isResult
          simp [inductionHypothesis isResult]
      | some base =>
          cases mode : use.mode with
          | keep =>
              simp only [gather, isBase, mode] at isResult
              rw [inductionHypothesis isResult]
              split
              · rename_i isKept
                rw [Bool.and_eq_true, beq_iff_eq] at isKept
                simp [registers, isKept]
              · rename_i notKept
                have nothing : ¬ (use.access = .public ∧ visibility.isEmitted base = true ∧
                    kept base) := by
                  rintro ⟨isPublic, emitted, _⟩
                  exact notKept (by rw [isPublic, emitted]; rfl)
                simp [nothing]
          | hide =>
              simp only [gather, isBase, mode] at isResult
              simp [inductionHypothesis isResult]
          | inline =>
              simp only [gather, isBase, mode] at isResult
              obtain ⟨handedOn, isHanded, onwards⟩ := Option.bind_eq_some_iff.mp isResult
              rw [inductionHypothesis onwards, absorbs]
              simp [isHanded]

/-- Where all bases of a class are gathered, each inlined one hands something on. -/
theorem exists_handedOn_of_gather {taken : List String} {handsOn : Nat → Option ClassBases}
    {uses : List BaseUse} {gained result : ClassBases}
    (isResult : gather graph visibility taken handsOn uses gained = some result) :
    ∀ use ∈ uses, ∀ base, use.node = some base → use.mode = .inline →
      ∃ handedOn, handsOn base = some handedOn := by
  induction uses generalizing gained with
  | nil => simp
  | cons use rest inductionHypothesis =>
      by_cases inlined : ∃ base, use.node = some base ∧ use.mode = .inline
      · obtain ⟨base, isBase, mode⟩ := inlined
        simp only [gather, isBase, mode] at isResult
        obtain ⟨handedOn, isHanded, onwards⟩ := Option.bind_eq_some_iff.mp isResult
        refine List.forall_mem_cons.mpr ⟨?_, inductionHypothesis onwards⟩
        intro other isOther _
        rw [isBase, Option.some.injEq] at isOther
        exact ⟨handedOn, isOther ▸ isHanded⟩
      · obtain ⟨next, gathers, _⟩ := @exists_pass graph visibility use inlined taken gained
        rw [gathers] at isResult
        refine List.forall_mem_cons.mpr ⟨?_, inductionHypothesis isResult⟩
        exact fun base isBase mode => absurd ⟨base, isBase, mode⟩ inlined

/-! ## Ways -/

namespace Takes

variable {id : Nat} {gained : ClassBases}

/-- What a class takes was gathered from what its inlined bases take. -/
theorem exists_gather (takes : Takes graph visibility id gained) {node : Node}
    (found : graph.node? id = some node) :
    ∃ depth, gather graph visibility (ownNames graph visibility node)
      (takenWithin graph visibility depth) (usesOf graph node) { bases := usesOf graph node } =
        some gained := by
  obtain ⟨depth, isTaken⟩ := takes
  obtain ⟨less, _, _, gathers⟩ := exists_gather_of_takenWithin found isTaken
  exact ⟨less, gathers⟩

theorem exists_of_inlines (takes : Takes graph visibility id gained) {base : Nat}
    (inlines : Inlines graph id base) :
    ∃ handedOn, Takes graph visibility base handedOn := by
  obtain ⟨node, found, use, isUse, isBase, isInlined⟩ := inlines
  obtain ⟨depth, gathers⟩ := takes.exists_gather found
  obtain ⟨handedOn, isHanded⟩ :=
    exists_handedOn_of_gather gathers use isUse base isBase isInlined
  exact ⟨handedOn, depth, isHanded⟩

/-- The ways through inlined bases from a class that takes something all end. -/
theorem accessible (takes : Takes graph visibility id gained) :
    Acc (fun base id => Inlines graph id base) id := by
  obtain ⟨depth, isTaken⟩ := takes
  induction depth generalizing id gained with
  | zero => cases isTaken
  | succ depth inductionHypothesis =>
      refine ⟨id, ?_⟩
      rintro base ⟨node, found, use, isUse, isBase, isInlined⟩
      simp only [takenWithin, found] at isTaken
      obtain ⟨handedOn, isHanded⟩ :=
        exists_handedOn_of_gather isTaken use isUse base isBase isInlined
      exact inductionHypothesis isHanded

/-- A class takes just what its kept bases and its inlined ones contribute. -/
theorem gains (takes : Takes graph visibility id gained) (holds : ClassBases → Prop)
    {kept : Nat → Prop} {handed : List String → Nat → ClassBases → Prop}
    (registers : ∀ gained base, holds (register gained base) ↔ holds gained ∨ kept base)
    (absorbs : ∀ taken gained base handedOn,
      holds (absorb graph visibility taken gained base handedOn) ↔
        holds gained ∨ handed taken base handedOn)
    (nothing : ∀ bases, ¬ holds { bases }) :
    holds gained ↔
      (∃ base, Keeps graph id base ∧ visibility.isEmitted base = true ∧ kept base) ∨
        ∃ base handedOn, Inlines graph id base ∧ Takes graph visibility base handedOn ∧
          ∃ node, graph.node? id = some node ∧
            handed (ownNames graph visibility node) base handedOn := by
  cases found : graph.node? id with
  | none =>
      obtain ⟨depth, isTaken⟩ := takes
      cases depth with
      | zero => cases isTaken
      | succ depth =>
          simp only [takenWithin, found, Option.some.injEq] at isTaken
          simp [← isTaken, nothing [], Keeps, Inlines, found]
  | some node =>
      obtain ⟨depth, gathers⟩ := takes.exists_gather found
      rw [gather_gains registers (absorbs _) gathers, or_iff_right (nothing _)]
      simp only [Option.some.injEq, exists_eq_left']
      constructor
      · rintro ⟨use, isUse, base, isBase, ⟨mode, isPublic, emitted, isKept⟩ |
          ⟨mode, handedOn, isHanded, contributes⟩⟩
        · exact .inl ⟨base, ⟨node, found, use, isUse, isBase, mode, isPublic⟩, emitted, isKept⟩
        · exact .inr ⟨base, handedOn, ⟨node, found, use, isUse, isBase, mode⟩,
            ⟨depth, isHanded⟩, contributes⟩
      · rintro (⟨base, ⟨other, isOther, use, isUse, isBase, mode, isPublic⟩, emitted, isKept⟩ |
          ⟨base, handedOn, ⟨other, isOther, use, isUse, isBase, mode⟩, takesBase, contributes⟩)
        all_goals
          rw [found, Option.some.injEq] at isOther
          rw [← isOther] at isUse
        · exact ⟨use, isUse, base, isBase, .inl ⟨mode, isPublic, emitted, isKept⟩⟩
        · -- What the base takes at the depth of the class is what it takes at any depth.
          obtain ⟨again, isAgain⟩ := exists_handedOn_of_gather gathers use isUse base isBase mode
          have same : again = handedOn := Takes.unique ⟨depth, isAgain⟩ takesBase
          exact ⟨use, isUse, base, isBase, .inr ⟨mode, again, isAgain, same ▸ contributes⟩⟩

/-- The supertypes of a class are those that it keeps and those that its inlined bases
hand on. -/
theorem mem_registered_iff_step (takes : Takes graph visibility id gained) {supertype : Nat} :
    supertype ∈ gained.registered ↔
      (Keeps graph id supertype ∧ visibility.isEmitted supertype = true) ∨
        ∃ base handedOn, Inlines graph id base ∧ Takes graph visibility base handedOn ∧
          supertype ∈ handedOn.registered := by
  have step := takes.gains (fun gained => supertype ∈ gained.registered)
    (fun gained base => mem_registered_register gained base supertype)
    (fun taken gained base handedOn => mem_registered_absorb taken gained handedOn base supertype)
    (fun _ => List.not_mem_nil)
  rw [step]
  refine or_congr ?_ ?_
  · constructor
    · rintro ⟨base, keeps, emitted, rfl⟩
      exact ⟨keeps, emitted⟩
    · rintro ⟨keeps, emitted⟩
      exact ⟨supertype, keeps, emitted, rfl⟩
  · constructor
    · rintro ⟨base, handedOn, inlines, takesBase, _, _, isHanded⟩
      exact ⟨base, handedOn, inlines, takesBase, isHanded⟩
    · rintro ⟨base, handedOn, inlines, takesBase, isHanded⟩
      have ⟨node, found, _⟩ := inlines
      exact ⟨base, handedOn, inlines, takesBase, node, found, isHanded⟩

/-- The supertypes of a class are the emitted ones that it, or a class on a way through
inlined bases, keeps. -/
theorem mem_registered_iff (takes : Takes graph visibility id gained) {supertype : Nat} :
    supertype ∈ gained.registered ↔ visibility.isEmitted supertype = true ∧
      ∃ keeper, Relation.ReflTransGen (Inlines graph) id keeper ∧
        Keeps graph keeper supertype := by
  induction takes.accessible generalizing gained with
  | intro id _ inductionHypothesis =>
      rw [takes.mem_registered_iff_step]
      constructor
      · rintro (⟨keeps, emitted⟩ | ⟨base, handedOn, inlines, takesBase, isHanded⟩)
        · exact ⟨emitted, id, .refl, keeps⟩
        · obtain ⟨emitted, keeper, way, keeps⟩ :=
            (inductionHypothesis base inlines takesBase).mp isHanded
          exact ⟨emitted, keeper, way.head inlines, keeps⟩
      · rintro ⟨emitted, keeper, way, keeps⟩
        rcases way.cases_head with rfl | ⟨base, inlines, rest⟩
        · exact .inl ⟨keeps, emitted⟩
        · obtain ⟨handedOn, takesBase⟩ := takes.exists_of_inlines inlines
          exact .inr ⟨base, handedOn, inlines, takesBase,
            (inductionHypothesis base inlines takesBase).mpr ⟨emitted, keeper, rest, keeps⟩⟩

/-- The members that a class takes are those that its inlined bases have or take, less
those that are named as a member of its own. -/
theorem mem_inherited_iff_step (takes : Takes graph visibility id gained) {member : Nat} :
    member ∈ gained.inherited.map Member.node ↔
      ∃ base handedOn, InlinesPast graph visibility (visibility.exposedName member) id base ∧
        Takes graph visibility base handedOn ∧
          (Offers graph base member ∨ member ∈ handedOn.inherited.map Member.node) := by
  have step := takes.gains (fun gained => member ∈ gained.inherited.map Member.node)
    (fun gained base => by rw [inherited_register gained base, or_false])
    (fun taken gained base handedOn => mem_inherited_absorb taken gained handedOn base member)
    (fun _ => List.not_mem_nil)
  rw [step]
  constructor
  · rintro (⟨_, _, _, isFalse⟩ | ⟨base, handedOn, inlines, takesBase, node, found, isFree, taken⟩)
    · exact isFalse.elim
    · rw [mem_ownNames_iff found] at isFree
      exact ⟨base, handedOn, ⟨inlines, isFree⟩, takesBase, taken⟩
  · rintro ⟨base, handedOn, ⟨inlines, isFree⟩, takesBase, taken⟩
    have ⟨node, found, _⟩ := inlines
    rw [← mem_ownNames_iff found] at isFree
    exact .inr ⟨base, handedOn, inlines, takesBase, node, found, isFree, taken⟩

/-- The members that a class takes are those that some class on a way through inlined
bases has to offer, where no class before it on the way has a member of the name. -/
theorem mem_inherited_iff (takes : Takes graph visibility id gained) {member : Nat} :
    member ∈ gained.inherited.map Member.node ↔
      ∃ origin, Offers graph origin member ∧ Relation.TransGen
        (InlinesPast graph visibility (visibility.exposedName member)) id origin := by
  induction takes.accessible generalizing gained with
  | intro id _ inductionHypothesis =>
      rw [takes.mem_inherited_iff_step]
      constructor
      · rintro ⟨base, handedOn, passes, takesBase, offers | isHanded⟩
        · exact ⟨base, offers, .single passes⟩
        · obtain ⟨origin, offers, way⟩ :=
            (inductionHypothesis base passes.1 takesBase).mp isHanded
          exact ⟨origin, offers, way.head passes⟩
      · rintro ⟨origin, offers, way⟩
        obtain ⟨base, passes, rest⟩ := Relation.TransGen.head'_iff.mp way
        obtain ⟨handedOn, takesBase⟩ := takes.exists_of_inlines passes.1
        refine ⟨base, handedOn, passes, takesBase, ?_⟩
        rcases Relation.reflTransGen_iff_eq_or_transGen.mp rest with rfl | onwards
        · exact .inl offers
        · exact .inr ((inductionHypothesis base passes.1 takesBase).mpr ⟨origin, offers, onwards⟩)

end Takes

/-! ## The table of a unit -/

section OfGraph

variable {inheritance : Inheritance} {id : Nat}

/-- The class takes just the members that come to it along ways through inlined bases on
which no member of the name stands, each once and as a member of the class that has it,
and has no member twice. -/
structure InheritsExactly (graph : Graph) (visibility : Visibility) (inheritance : Inheritance)
    (id : Nat) : Prop where
  taken : ∀ used : Member, used ∈ inheritance.inherited id ↔
    ∃ origin, used.inlinedFrom = some origin ∧ Offers graph origin used.node ∧
      Relation.TransGen (InlinesPast graph visibility (visibility.exposedName used.node)) id origin
  once : ((inheritance.inherited id).map Member.node).Nodup
  apart : ∀ node, graph.node? id = some node →
    ((inheritance.members graph visibility node).map Member.node).Nodup

theorem takes_of_get? (wired : graph.Wired)
    (built : (ofGraph graph visibility configuration).1 = .ok inheritance)
    (followed : (inheritance.get? id).isSome = true) :
    ∃ gained, Takes graph visibility id gained ∧ inheritance.inherited id = gained.inherited ∧
      inheritance.registered id = gained.registered := by
  obtain ⟨gained, found⟩ := Option.isSome_iff_exists.mp followed
  refine ⟨gained, ((get?_eq_some_iff wired built).mp found).2, ?_, ?_⟩
  · simp [inherited, found]
  · simp [registered, found]

theorem get?_isSome_of_inlines (wired : graph.Wired)
    (built : (ofGraph graph visibility configuration).1 = .ok inheritance)
    (followed : (inheritance.get? id).isSome = true) {base : Nat}
    (inlines : Inlines graph id base) : (inheritance.get? base).isSome = true := by
  obtain ⟨gained, found⟩ := Option.isSome_iff_exists.mp followed
  obtain ⟨⟨first, emitted, way⟩, takes⟩ := (get?_eq_some_iff wired built).mp found
  obtain ⟨handedOn, takesBase⟩ := takes.exists_of_inlines inlines
  exact Option.isSome_iff_exists.mpr
    ⟨handedOn, (get?_eq_some_iff wired built).mpr ⟨⟨first, emitted, way.tail inlines⟩, takesBase⟩⟩

theorem get?_isSome_of_registered {supertype : Nat}
    (isRegistered : supertype ∈ inheritance.registered id) :
    (inheritance.get? id).isSome = true := by
  cases found : inheritance.get? id with
  | none => simp [registered, found] at isRegistered
  | some gained => rfl

theorem accessible_of_get? (wired : graph.Wired)
    (built : (ofGraph graph visibility configuration).1 = .ok inheritance)
    (followed : (inheritance.get? id).isSome = true) :
    Acc (fun base id => Inlines graph id base) id := by
  obtain ⟨gained, takes, _⟩ := takes_of_get? wired built followed
  exact takes.accessible

/-- What a class takes from inlined bases is what its ways through them tell. -/
theorem ofGraph_inheritsExactly {unit : TranslationUnit} {table : MarkingTable}
    (isGraph : Graph.ofUnit unit table = .ok graph)
    (built : (ofGraph graph visibility configuration).1 = .ok inheritance)
    (followed : (inheritance.get? id).isSome = true) :
    InheritsExactly graph visibility inheritance id := by
  have wired := Graph.ofUnit_wired isGraph
  obtain ⟨gained, takes, isInherited, _⟩ := takes_of_get? wired built followed
  refine ⟨?_, inherited_nodup wired built id, ?_⟩
  · intro used
    constructor
    · intro isUsed
      obtain ⟨base, baseNode, isOrigin, _, found, inlinable⟩ :=
        exists_base_of_inherited wired built isUsed
      have offers : Offers graph base used.node := offers_iff.mpr ⟨baseNode, found, inlinable⟩
      rw [isInherited] at isUsed
      obtain ⟨origin, isOffered, way⟩ := takes.mem_inherited_iff.mp (List.mem_map_of_mem isUsed)
      rw [isOffered.unique wired offers] at way
      exact ⟨base, isOrigin, offers, way⟩
    · rintro ⟨origin, isOrigin, offers, way⟩
      have listed := takes.mem_inherited_iff.mpr ⟨origin, offers, way⟩
      rw [← isInherited] at listed
      obtain ⟨other, isOther, sameNode⟩ := List.mem_map.mp listed
      obtain ⟨base, baseNode, isBase, _, found, inlinable⟩ :=
        exists_base_of_inherited wired built isOther
      rw [sameNode] at inlinable
      -- A node is a member of one class only, so it is listed as coming from there.
      have sameOrigin := offers.unique wired (offers_iff.mpr ⟨baseNode, found, inlinable⟩)
      have same : other = used := by
        cases other
        cases used
        simp_all
      exact same ▸ isOther
  · intro node found
    exact members_nodup wired built (Graph.mem_nodes_of_node? found)

/-- What an emitted class of a unit takes, if it passes a test and every emitted class
takes something. -/
theorem exists_of_any {unit : TranslationUnit} {test : Graph → ClassBases → Bool}
    (passed : (Graph.withTable? unit).any (fun made =>
      let graph := made.2
      let visibility := Visibility.ofGraph graph {}
      let takes := takenWithin graph visibility graph.size
      (emittedClasses graph visibility).all (fun other => (takes other).isSome) &&
        (emittedClasses graph visibility).contains id && (takes id).any (test graph)) = true) :
    ∃ table graph inheritance gained, Graph.ofUnit unit table = .ok graph ∧
      (ofGraph graph (Visibility.ofGraph graph {}) {}).1 = .ok inheritance ∧
        inheritance.get? id = some gained ∧ test graph gained = true := by
  obtain ⟨table, graph, _, isGraph, holds⟩ := Graph.exists_of_any passed
  simp only [Bool.and_eq_true, List.all_eq_true, List.contains_iff_mem, Option.any_eq_true]
    at holds
  obtain ⟨⟨allTake, emitted⟩, gained, isTaken, isPassed⟩ := holds
  have wired := Graph.ofUnit_wired isGraph
  obtain ⟨inheritance, built⟩ := (@exists_ofGraph_iff graph _ {} wired).mpr fun other listed => by
    obtain ⟨taken, isOther⟩ := Option.isSome_iff_exists.mp (allTake other listed)
    exact ⟨taken, graph.size, isOther⟩
  refine ⟨table, graph, inheritance, gained, isGraph, built, ?_, isPassed⟩
  exact (get?_eq_some_iff wired built).mpr ⟨⟨id, emitted, .refl⟩, graph.size, isTaken⟩

/-- Two ways lead from the last class to the same base. On one of them a class has a
member of the same name as the base. -/
def diamond : TranslationUnit where
  root := { id := 0, kind := .translationUnit, order := 0 }
  others :=
    [ { id := 1, kind := .class [] none, name := "Base", qualifiedName := "Base"
        parent := some 0, order := 1, payloads := [.text "visible"] },
      { id := 2, kind := .class [{ qualifiedName := "Base" }] none, name := "Top"
        qualifiedName := "Top", parent := some 0, order := 2 },
      { id := 3, kind := .field "int" false false, name := "x", qualifiedName := "Top::x"
        parent := some 2, order := 3 },
      { id := 4, kind := .class [{ qualifiedName := "Top" }] none, name := "Left"
        qualifiedName := "Left", parent := some 0, order := 4
        payloads := [.text "inline_base"] },
      { id := 5, kind := .field "int" false false, name := "x", qualifiedName := "Left::x"
        parent := some 4, order := 5 },
      { id := 6, kind := .class [{ qualifiedName := "Top" }] none, name := "Right"
        qualifiedName := "Right", parent := some 0, order := 6
        payloads := [.text "inline_base"] },
      { id := 7
        kind := .class [{ qualifiedName := "Left" }, { qualifiedName := "Right" }] none
        name := "Bottom", qualifiedName := "Bottom", parent := some 0, order := 7
        payloads := [.text "visible", .text "inline_base"] } ]
  valid := by decide

theorem exists_diamond :
    ∃ table graph inheritance, Graph.ofUnit diamond table = .ok graph ∧
      (ofGraph graph (Visibility.ofGraph graph {}) {}).1 = .ok inheritance ∧
      (inheritance.get? 7).isSome = true ∧
      inheritance.inherited 7 =
        [{ node := 5, inlinedFrom := some 4 }, { node := 3, inlinedFrom := some 2 }] ∧
      inheritance.registered 7 = [1] := by
  obtain ⟨table, graph, inheritance, gained, isGraph, built, found, holds⟩ :=
    @exists_of_any 7 diamond (fun _ gained => gained.inherited ==
        [{ node := 5, inlinedFrom := some 4 }, { node := 3, inlinedFrom := some 2 }] &&
      gained.registered == [1]) (by decide +kernel)
  rw [Bool.and_eq_true, beq_iff_eq, beq_iff_eq] at holds
  refine ⟨table, graph, inheritance, isGraph, built, ?_, ?_, ?_⟩
  · rw [found]
    rfl
  · rw [inherited, found]
    exact holds.1
  · rw [Inheritance.registered, found]
    exact holds.2

theorem diamond_inheritsExactly :
    ∃ table graph inheritance, Graph.ofUnit diamond table = .ok graph ∧
      (ofGraph graph (Visibility.ofGraph graph {}) {}).1 = .ok inheritance ∧
      (inheritance.get? 7).isSome = true ∧
      inheritance.inherited 7 =
        [{ node := 5, inlinedFrom := some 4 }, { node := 3, inlinedFrom := some 2 }] ∧
      InheritsExactly graph (Visibility.ofGraph graph {}) inheritance 7 := by
  obtain ⟨table, graph, inheritance, isGraph, built, followed, isInherited, _⟩ := exists_diamond
  exact ⟨table, graph, inheritance, isGraph, built, followed, isInherited,
    ofGraph_inheritsExactly isGraph built followed⟩

/-- The class is registered with just the emitted classes that it, or a class on a way
through inlined bases, keeps as public bases, each once. A class that it does not keep,
and none of those, is not among them. -/
structure RegistersExactly (graph : Graph) (visibility : Visibility) (inheritance : Inheritance)
    (id : Nat) : Prop where
  registered : ∀ supertype, supertype ∈ inheritance.registered id ↔
    IsSupertype graph visibility supertype ∧
      ∃ keeper, Relation.ReflTransGen (Inlines graph) id keeper ∧ Keeps graph keeper supertype
  once : (inheritance.registered id).Nodup
  unkept : ∀ node base, graph.node? id = some node →
    (∀ use ∈ usesOf graph node, use.node = some base → use.mode = .hide ∨ use.mode = .inline) →
    (∀ keeper, Relation.TransGen (Inlines graph) id keeper → ¬ Keeps graph keeper base) →
    base ∉ inheritance.registered id

theorem mem_registered_iff (wired : graph.Wired)
    (built : (ofGraph graph visibility configuration).1 = .ok inheritance)
    (followed : (inheritance.get? id).isSome = true) {supertype : Nat} :
    supertype ∈ inheritance.registered id ↔ visibility.isEmitted supertype = true ∧
      ∃ keeper, Relation.ReflTransGen (Inlines graph) id keeper ∧
        Keeps graph keeper supertype := by
  obtain ⟨gained, takes, _, isRegistered⟩ := takes_of_get? wired built followed
  rw [isRegistered, takes.mem_registered_iff]

/-- What the bases on a way through inlined ones are registered with, the class is. -/
theorem registered_subset (wired : graph.Wired)
    (built : (ofGraph graph visibility configuration).1 = .ok inheritance)
    (followed : (inheritance.get? id).isSome = true) {base : Nat}
    (way : Relation.ReflTransGen (Inlines graph) id base) :
    inheritance.registered base ⊆ inheritance.registered id := by
  intro supertype isRegistered
  obtain ⟨emitted, keeper, rest, keeps⟩ :=
    (mem_registered_iff wired built (get?_isSome_of_registered isRegistered)).mp isRegistered
  exact (mem_registered_iff wired built followed).mpr ⟨emitted, keeper, way.trans rest, keeps⟩

/-- What a class is registered with it keeps, or an inlined base is registered with it. -/
theorem registered_cases (wired : graph.Wired)
    (built : (ofGraph graph visibility configuration).1 = .ok inheritance) {supertype : Nat}
    (isRegistered : supertype ∈ inheritance.registered id) :
    Keeps graph id supertype ∨
      ∃ base, Inlines graph id base ∧ supertype ∈ inheritance.registered base := by
  have followed := get?_isSome_of_registered isRegistered
  obtain ⟨emitted, keeper, way, keeps⟩ :=
    (mem_registered_iff wired built followed).mp isRegistered
  rcases way.cases_head with rfl | ⟨base, inlines, rest⟩
  · exact .inl keeps
  · have baseFollowed := get?_isSome_of_inlines wired built followed inlines
    exact .inr ⟨base, inlines,
      (mem_registered_iff wired built baseFollowed).mpr ⟨emitted, keeper, rest, keeps⟩⟩

/-- What a class is registered with is what its ways through inlined bases tell. -/
theorem ofGraph_registersExactly {unit : TranslationUnit} {table : MarkingTable}
    (isGraph : Graph.ofUnit unit table = .ok graph)
    (built : (ofGraph graph visibility configuration).1 = .ok inheritance)
    (followed : (inheritance.get? id).isSome = true) :
    RegistersExactly graph visibility inheritance id := by
  have wired := Graph.ofUnit_wired isGraph
  refine ⟨?_, registered_nodup wired built id, ?_⟩
  · intro supertype
    rw [mem_registered_iff wired built followed]
    constructor
    · rintro ⟨emitted, keeper, way, keeps⟩
      have ⟨node, _, use, isUse, isBase, _⟩ := keeps
      exact ⟨⟨emitted, usesOf_areClasses wired node use isUse supertype isBase⟩,
        keeper, way, keeps⟩
    · rintro ⟨isSupertype, keeper, way, keeps⟩
      exact ⟨isSupertype.1, keeper, way, keeps⟩
  · intro node base found notKept noKeeper isRegistered
    obtain ⟨_, keeper, way, keeps⟩ := (mem_registered_iff wired built followed).mp isRegistered
    rcases Relation.reflTransGen_iff_eq_or_transGen.mp way with rfl | onwards
    · obtain ⟨other, isOther, use, isUse, isBase, mode, _⟩ := keeps
      rw [found, Option.some.injEq] at isOther
      have := notKept use (isOther ▸ isUse) isBase
      simp [mode] at this
    · exact noKeeper keeper onwards keeps

theorem diamond_registersExactly :
    ∃ table graph inheritance, Graph.ofUnit diamond table = .ok graph ∧
      (ofGraph graph (Visibility.ofGraph graph {}) {}).1 = .ok inheritance ∧
      (inheritance.get? 7).isSome = true ∧ inheritance.registered 7 = [1] ∧
      RegistersExactly graph (Visibility.ofGraph graph {}) inheritance 7 := by
  obtain ⟨table, graph, inheritance, isGraph, built, followed, _, isRegistered⟩ := exists_diamond
  exact ⟨table, graph, inheritance, isGraph, built, followed, isRegistered,
    ofGraph_registersExactly isGraph built followed⟩

end OfGraph

end Registrar.Inheritance
