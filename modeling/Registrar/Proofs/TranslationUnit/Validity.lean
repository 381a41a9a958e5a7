import Mathlib
import Registrar.Proofs.TranslationUnit

/-!
Contract: which lists of declarations are units, and what a unit answers.

Owns: the exact condition on lists of declarations, that declarations are looked up
exactly, that every declaration but the root stands in one list of children, in source
order, and where the ways up end.

Does not own: what the declarations mean.

A declaration may name itself as the one around it, since it is looked for where it is
listed itself. No way leads from such a declaration to the root.
-/

set_option autoImplicit false

namespace Registrar

/-! ## Conditions -/

/-- The declaration names the other one as the one around it, which can own it. -/
structure Declaration.IsOwnedBy (declaration owner : Declaration) : Prop where
  parent : declaration.parent = some owner.id
  canOwn : owner.kind.isContext = true ∨ owner.kind = .classTemplate

/-- The list begins with a root, and nothing else in it is one. No number is given twice.
All that follows the root fits what is before it. -/
structure ListsUnit (fits : List Declaration → Declaration → Prop)
    (declarations : List Declaration) : Prop where
  rootFirst : ∃ root others, declarations = root :: others ∧ root.kind = .translationUnit ∧
    root.parent = none ∧ ∀ other ∈ others, other.kind ≠ .translationUnit
  distinct : (declarations.map Declaration.id).Nodup
  others : ∀ before declaration after, declarations = before ++ declaration :: after →
    before ≠ [] → fits before declaration

/-- The declaration is owned by one before it. -/
def OwnedBefore (before : List Declaration) (declaration : Declaration) : Prop :=
  ∃ owner ∈ before, declaration.IsOwnedBy owner

/-- The declaration is owned by one before it, or by itself. -/
def OwnedSoFar (before : List Declaration) (declaration : Declaration) : Prop :=
  OwnedBefore before declaration ∨ declaration.IsOwnedBy declaration

theorem ownedSoFar_iff {before : List Declaration} {declaration : Declaration} :
    OwnedSoFar before declaration ↔
      ∃ owner ∈ before ++ [declaration], declaration.IsOwnedBy owner := by
  simp [OwnedSoFar, OwnedBefore, or_and_right, exists_or]

theorem DeclarationKind.canOwn_iff {kind : DeclarationKind} :
    kind.canOwn = true ↔ kind.isContext = true ∨ kind = .classTemplate := by
  simp [canOwn]

theorem DeclarationKind.target_eq_translationUnit_iff {kind : DeclarationKind} :
    kind.target = .translationUnit ↔ kind = .translationUnit := by
  cases kind <;> simp [target]

/-- Nothing is wrong with a declaration that has a new number, is owned so far and is no
root. -/
theorem violationAfter?_eq_none_iff_owned {earlier : List Declaration} {declaration : Declaration}
    (distinct : (earlier.map Declaration.id).Nodup) :
    violationAfter? earlier declaration = none ↔
      (∀ other ∈ earlier, other.id ≠ declaration.id) ∧ OwnedSoFar earlier declaration ∧
        declaration.kind ≠ .translationUnit := by
  rw [violationAfter?_eq_none_iff, ne_eq, DeclarationKind.target_eq_translationUnit_iff]
  refine and_congr_right fun isNew => and_congr_left' ?_
  have stillDistinct : ((earlier ++ [declaration]).map Declaration.id).Nodup := by
    rw [List.map_append, List.map_singleton, List.nodup_append']
    refine ⟨distinct, List.nodup_singleton _, ?_⟩
    rw [List.disjoint_singleton, List.mem_map]
    rintro ⟨other, listed, sameId⟩
    exact isNew other listed sameId
  rw [ownedSoFar_iff]
  constructor
  · rintro ⟨owner, found, canOwn⟩
    obtain ⟨id, isParent, isOwner⟩ := Option.bind_eq_some_iff.mp found
    obtain ⟨member, rfl⟩ := findDeclaration?_eq_some isOwner
    exact ⟨owner, member, isParent, DeclarationKind.canOwn_iff.mp canOwn⟩
  · rintro ⟨owner, member, isParent, canOwn⟩
    refine ⟨owner, ?_, DeclarationKind.canOwn_iff.mpr canOwn⟩
    rw [isParent, Option.bind_some]
    exact (findDeclaration?_eq_some_iff stillDistinct).mpr ⟨member, rfl⟩

namespace ListsUnit

variable {fits : List Declaration → Declaration → Prop} {declarations : List Declaration}

theorem mono {other : List Declaration → Declaration → Prop} (lists : ListsUnit fits declarations)
    (weaker : ∀ before, ∀ declaration ∈ declarations, fits before declaration →
      other before declaration) : ListsUnit other declarations where
  rootFirst := lists.rootFirst
  distinct := lists.distinct
  others := fun before declaration after isSplit nonempty =>
    weaker before declaration (by simp [isSplit]) (lists.others before declaration after isSplit
      nonempty)

/-- What is listed later has another number. -/
theorem id_ne_of_mem_before (lists : ListsUnit fits declarations)
    {before after : List Declaration} {declaration earlier : Declaration}
    (isSplit : declarations = before ++ declaration :: after) (listed : earlier ∈ before) :
    earlier.id ≠ declaration.id := by
  have distinct := lists.distinct
  rw [isSplit, List.map_append, List.map_cons] at distinct
  exact (List.nodup_append.mp distinct).2.2 _ (List.mem_map_of_mem listed) _ List.mem_cons_self

/-- In a unit whose declarations are owned by earlier ones none is owned by itself. -/
theorem not_isOwnedBy_self (lists : ListsUnit OwnedBefore declarations)
    {declaration : Declaration} (member : declaration ∈ declarations) :
    ¬ declaration.IsOwnedBy declaration := by
  intro ownsItself
  obtain ⟨before, after, isSplit⟩ := List.append_of_mem member
  cases before with
  | nil =>
      obtain ⟨root, others, isCons, _, noParent, _⟩ := lists.rootFirst
      rw [isSplit, List.nil_append, List.cons.injEq] at isCons
      rw [isCons.1] at ownsItself
      have isParent := ownsItself.parent
      rw [noParent] at isParent
      cases isParent
  | cons head before =>
      obtain ⟨owner, listed, isOwned⟩ := lists.others _ _ _ isSplit (List.cons_ne_nil _ _)
      have sameId := isOwned.parent.symm.trans ownsItself.parent
      exact lists.id_ne_of_mem_before isSplit listed (Option.some.inj sameId)

end ListsUnit

namespace TranslationUnit

variable {unit : TranslationUnit}

theorem listsUnit (unit : TranslationUnit) : ListsUnit OwnedSoFar unit.declarations where
  rootFirst := by
    refine ⟨unit.root, unit.others, rfl, unit.root_kind, unit.root_parent, ?_⟩
    intro other member isRoot
    exact unit.target_of_mem_others member
      (DeclarationKind.target_eq_translationUnit_iff.mpr isRoot)
  distinct := unit.ids_nodup
  others := by
    intro before declaration after isSplit nonempty
    obtain ⟨root, before, rfl⟩ := List.exists_cons_of_ne_nil nonempty
    obtain ⟨rfl, isOthers⟩ := List.cons.inj isSplit
    have fits := violationFrom?_eq_none_iff.mp (unitViolation?_eq_none_iff.mp unit.valid).2.2
      before declaration after isOthers
    have distinct := unit.ids_nodup
    rw [isSplit, List.map_append] at distinct
    exact ((violationAfter?_eq_none_iff_owned (List.nodup_append.mp distinct).1).mp fits).2.1

/-- A list is a unit exactly if all that follows its root is owned so far. -/
theorem exists_ofDeclarations_iff {declarations : List Declaration} :
    (∃ unit, ofDeclarations declarations = .ok unit) ↔ ListsUnit OwnedSoFar declarations := by
  constructor
  · rintro ⟨unit, isUnit⟩
    rw [← ofDeclarations_eq_ok_iff.mp isUnit]
    exact unit.listsUnit
  · intro lists
    obtain ⟨root, others, rfl, isRoot, noParent, notRoots⟩ := lists.rootFirst
    have fits : unitViolation? (root :: others) = none := by
      refine unitViolation?_eq_none_iff.mpr ⟨by rw [isRoot]; rfl, noParent, ?_⟩
      refine violationFrom?_eq_none_iff.mpr fun before declaration after isOthers => ?_
      have isSplit : root :: others = (root :: before) ++ declaration :: after := by
        rw [isOthers, List.cons_append]
      have distinct := lists.distinct
      rw [isSplit, List.map_append] at distinct
      refine (violationAfter?_eq_none_iff_owned (List.nodup_append.mp distinct).1).mpr
        ⟨?_, lists.others _ _ _ isSplit (List.cons_ne_nil _ _), notRoots declaration ?_⟩
      · exact fun other listed => lists.id_ne_of_mem_before isSplit listed
      · rw [isOthers]
        exact List.mem_append_right _ List.mem_cons_self
    exact ⟨⟨root, others, fits⟩, ofDeclarations_eq_ok_iff.mpr rfl⟩

/-! ## Ways up -/

/-- The one declaration is directly within the other. -/
def Within (unit : TranslationUnit) (declaration around : Declaration) : Prop :=
  declaration.parent.bind unit.get? = some around

theorem within_of_isOwnedBy {declaration owner : Declaration} (listed : owner ∈ unit.declarations)
    (isOwned : declaration.IsOwnedBy owner) : unit.Within declaration owner := by
  rw [Within, isOwned.parent, Option.bind_some]
  exact get?_eq_some_iff.mpr ⟨listed, rfl⟩

/-- Every way up ends at the root, or at a declaration that is owned by itself. -/
theorem exists_top {declaration : Declaration} (member : declaration ∈ unit.declarations) :
    ∃ top ∈ unit.declarations, Relation.ReflTransGen unit.Within declaration top ∧
      (top = unit.root ∨ top.IsOwnedBy top) := by
  obtain ⟨before, after, isSplit⟩ := List.append_of_mem member
  -- An owner that comes before has fewer declarations before it.
  induction isLength : before.length using Nat.strong_induction_on
    generalizing declaration before after with
  | h length inductionHypothesis =>
      cases before with
      | nil =>
          refine ⟨declaration, member, .refl, .inl ?_⟩
          exact (List.cons.inj isSplit).1.symm
      | cons head before =>
          rcases unit.listsUnit.others _ _ _ isSplit (List.cons_ne_nil _ _) with
            ⟨owner, listed, isOwned⟩ | ownsItself
          · obtain ⟨first, second, isBefore⟩ := List.append_of_mem listed
            have ownerMember : owner ∈ unit.declarations := by
              rw [isSplit]
              exact List.mem_append_left _ listed
            have shorter : first.length < length := by
              rw [← isLength, isBefore, List.length_append, List.length_cons]
              omega
            obtain ⟨top, topMember, way, isTop⟩ := inductionHypothesis first.length shorter
              ownerMember first (second ++ declaration :: after)
              (by rw [isSplit, isBefore, List.append_assoc, List.cons_append]) rfl
            exact ⟨top, topMember, .head (within_of_isOwnedBy ownerMember isOwned) way, isTop⟩
          · exact ⟨declaration, member, .refl, .inr ownsItself⟩

/-! ## Lists of children -/

theorem mem_children {id : Nat} {declaration : Declaration} :
    declaration ∈ unit.children id ↔ declaration ∈ unit.others ∧ declaration.parent = some id := by
  rw [children, List.mem_mergeSort, List.mem_filter, beq_iff_eq]

theorem children_ids_nodup (unit : TranslationUnit) (id : Nat) :
    ((unit.children id).map Declaration.id).Nodup := by
  have sorted := (List.mergeSort_perm
    (unit.others.filter fun declaration => declaration.parent == some id) sourceOrder).map
      Declaration.id
  have distinct : (unit.others.map Declaration.id).Nodup := (List.nodup_cons.mp unit.ids_nodup).2
  exact sorted.nodup_iff.mpr (distinct.sublist (List.filter_sublist.map Declaration.id))

/-- Every declaration but the root stands in one list of children, once. -/
theorem flatMap_children_perm (unit : TranslationUnit) :
    (unit.declarations.flatMap fun declaration => unit.children declaration.id).Perm
      unit.others := by
  have distinct : unit.others.Nodup :=
    (List.nodup_cons.mp unit.ids_nodup).2.of_map Declaration.id
  refine (List.perm_ext_iff_of_nodup ?_ distinct).mpr fun declaration => ?_
  · rw [List.nodup_flatMap]
    refine ⟨fun owner _ => (unit.children_ids_nodup owner.id).of_map Declaration.id, ?_⟩
    refine (List.pairwise_map.mp unit.ids_nodup).imp ?_
    intro left right different declaration inLeft inRight
    have sameParent := (mem_children.mp inLeft).2.symm.trans (mem_children.mp inRight).2
    exact different (Option.some.inj sameParent)
  · rw [List.mem_flatMap]
    constructor
    · rintro ⟨owner, _, listed⟩
      exact (mem_children.mp listed).1
    · intro member
      obtain ⟨owner, ownerMember, isParent, _⟩ := unit.exists_owner member
      exact ⟨owner, ownerMember, mem_children.mpr ⟨member, isParent⟩⟩

/-- Children stand in source order, and those of one place by number. -/
theorem children_sorted (unit : TranslationUnit) (id : Nat) :
    (unit.children id).Pairwise fun left right =>
      left.order < right.order ∨ left.order = right.order ∧ left.id < right.id := by
  refine pairwise_before_of_sourceOrder ?_ (unit.children_ids_nodup id)
  apply pairwise_mergeSort_of_numbers
  intro left right
  exact sourceOrder_iff

/-! ## What a unit answers -/

/-- The unit lists the declarations, finds each by its number, and has each but the root in
one list of children, in source order. -/
structure Answers (unit : TranslationUnit) (declarations : List Declaration) : Prop where
  lists : unit.declarations = declarations
  finds : ∀ id declaration, unit.get? id = some declaration ↔
    declaration ∈ declarations ∧ declaration.id = id
  childrenOf : ∀ id declaration, declaration ∈ unit.children id ↔
    declaration ∈ unit.others ∧ declaration.parent = some id
  partition : (declarations.flatMap fun declaration => unit.children declaration.id).Perm
    unit.others
  sorted : ∀ id, (unit.children id).Pairwise fun left right =>
    left.order < right.order ∨ left.order = right.order ∧ left.id < right.id

theorem answers (unit : TranslationUnit) : unit.Answers unit.declarations where
  lists := rfl
  finds := fun _ _ => get?_eq_some_iff
  childrenOf := fun _ _ => mem_children
  partition := unit.flatMap_children_perm
  sorted := unit.children_sorted

/-- The list is a unit exactly if every declaration after the root is owned by an earlier one,
and if it is one, the unit answers and every way up ends at the root. -/
structure ValidatesExactly (declarations : List Declaration) : Prop where
  accepts_iff : (∃ unit, ofDeclarations declarations = .ok unit) ↔
    ListsUnit OwnedBefore declarations
  answers : ∀ unit, ofDeclarations declarations = .ok unit → unit.Answers declarations
  reachesRoot : ∀ unit, ofDeclarations declarations = .ok unit →
    ∀ declaration ∈ declarations, Relation.ReflTransGen unit.Within declaration unit.root

/-- A list is a unit exactly if all that follows its root is owned by an earlier declaration
or by itself. What is validated is exact of all lists but those that are units with a
declaration which is owned by itself. -/
theorem ofDeclarations_validatesExactly_iff (declarations : List Declaration) :
    ((∃ unit, ofDeclarations declarations = .ok unit) ↔ ListsUnit OwnedSoFar declarations) ∧
      (∀ unit, ofDeclarations declarations = .ok unit → unit.Answers declarations ∧
        ∀ declaration ∈ declarations, ∃ top,
          Relation.ReflTransGen unit.Within declaration top ∧
            (top = unit.root ∨ top.IsOwnedBy top)) ∧
      (ValidatesExactly declarations ↔ ∀ unit, ofDeclarations declarations = .ok unit →
        ∀ declaration ∈ declarations, ¬ declaration.IsOwnedBy declaration) := by
  refine ⟨exists_ofDeclarations_iff, ?_, ⟨?_, ?_⟩⟩
  · intro unit isUnit
    obtain rfl := ofDeclarations_eq_ok_iff.mp isUnit
    refine ⟨unit.answers, fun declaration member => ?_⟩
    obtain ⟨top, _, way, isTop⟩ := exists_top member
    exact ⟨top, way, isTop⟩
  · intro exactly unit isUnit declaration member
    exact (exactly.accepts_iff.mp ⟨unit, isUnit⟩).not_isOwnedBy_self member
  · intro noneOwnsItself
    refine ⟨⟨?_, ?_⟩, ?_, ?_⟩
    · rintro ⟨unit, isUnit⟩
      refine (exists_ofDeclarations_iff.mp ⟨unit, isUnit⟩).mono ?_
      intro before declaration member ownedSoFar
      exact ownedSoFar.resolve_right (noneOwnsItself unit isUnit declaration member)
    · intro lists
      exact exists_ofDeclarations_iff.mpr (lists.mono fun _ _ _ => Or.inl)
    · intro unit isUnit
      obtain rfl := ofDeclarations_eq_ok_iff.mp isUnit
      exact unit.answers
    · intro unit isUnit declaration member
      obtain rfl := ofDeclarations_eq_ok_iff.mp isUnit
      obtain ⟨top, topMember, way, isRoot | ownsItself⟩ := exists_top member
      · rwa [← isRoot]
      · exact absurd ownsItself (noneOwnsItself unit isUnit top topMember)

/-- A namespace that names itself as what is around it. -/
def ownNamespace : TranslationUnit where
  root := { id := 0, kind := .translationUnit, order := 0 }
  others :=
    [ { id := 1, kind := .namespace false, name := "n", qualifiedName := "n", parent := some 1
        order := 1 } ]
  valid := by decide

/-- It is in a unit, and is not validated exactly. -/
theorem ownNamespace_isAccepted :
    ofDeclarations ownNamespace.declarations = .ok ownNamespace ∧
      ¬ ValidatesExactly ownNamespace.declarations := by
  have isUnit := ofDeclarations_eq_ok_iff.mpr (rfl : ownNamespace.declarations = _)
  refine ⟨isUnit, ?_⟩
  rw [(ofDeclarations_validatesExactly_iff ownNamespace.declarations).2.2]
  intro noneOwnsItself
  exact noneOwnsItself ownNamespace isUnit _ (List.mem_cons_of_mem _ List.mem_cons_self)
    ⟨rfl, .inl rfl⟩

end TranslationUnit

end Registrar
