import Mathlib
import Registrar.TranslationUnit.Basic

/-!
Contract: what every translation unit can be relied on for.

Owns: that the root is a root, that numbers of declarations are distinct, and
that every other declaration has an owner in the unit.

Does not own: the exact conditions on lists of declarations.
-/

set_option autoImplicit false

namespace Registrar

/-- What is sorted by one number, and by another where the first is the same, is in
that order. -/
theorem pairwise_mergeSort_of_numbers {α : Type} {le : α → α → Bool} {order number : α → Nat}
    (isOrder : ∀ left right, le left right = true ↔
      order left < order right ∨ order left = order right ∧ number left ≤ number right)
    (items : List α) : (items.mergeSort le).Pairwise fun left right => le left right = true := by
  refine List.pairwise_mergeSort ?_ ?_ items
  · intro first second third
    simp only [isOrder]
    omega
  · intro left right
    rw [Bool.or_eq_true, isOrder, isOrder]
    omega

theorem findDeclaration?_eq_some {declarations : List Declaration} {id : Nat}
    {declaration : Declaration} (found : findDeclaration? declarations id = some declaration) :
    declaration ∈ declarations ∧ declaration.id = id := by
  refine ⟨List.mem_of_find?_eq_some found, ?_⟩
  simpa using List.find?_some found

theorem findDeclaration?_eq_none {declarations : List Declaration} {id : Nat} :
    findDeclaration? declarations id = none ↔
      ∀ declaration ∈ declarations, declaration.id ≠ id := by
  rw [findDeclaration?, List.find?_eq_none]
  simp

/-- Declarations with one number each are found by it. -/
theorem findDeclaration?_eq_some_iff {declarations : List Declaration}
    (distinct : (declarations.map Declaration.id).Nodup) {id : Nat} {declaration : Declaration} :
    findDeclaration? declarations id = some declaration ↔
      declaration ∈ declarations ∧ declaration.id = id := by
  constructor
  · exact findDeclaration?_eq_some
  · rintro ⟨member, sameId⟩
    cases found : findDeclaration? declarations id with
    | none => exact absurd sameId (findDeclaration?_eq_none.mp found declaration member)
    | some other =>
        obtain ⟨otherMember, otherId⟩ := findDeclaration?_eq_some found
        rw [List.inj_on_of_nodup_map distinct otherMember member (otherId.trans sameId.symm)]

/-- Nothing is wrong with a declaration that has a new number and an owner and is no
root. The owner is looked for among the earlier ones and the declaration itself. -/
theorem violationAfter?_eq_none_iff {earlier : List Declaration} {declaration : Declaration} :
    violationAfter? earlier declaration = none ↔
      (∀ other ∈ earlier, other.id ≠ declaration.id) ∧
        (∃ owner, declaration.parent.bind (findDeclaration? (earlier ++ [declaration])) =
          some owner ∧ owner.kind.canOwn = true) ∧
        declaration.kind.target ≠ .translationUnit := by
  rw [violationAfter?, ← findDeclaration?_eq_none]
  cases known : findDeclaration? earlier declaration.id with
  | some other => simp
  | none =>
      cases parent : declaration.parent with
      | none => simp
      | some id =>
          cases found : findDeclaration? (earlier ++ [declaration]) id with
          | none => simp [found]
          | some owner => cases canOwn : owner.kind.canOwn <;> simp [found, canOwn]

/-- A declaration with which nothing is wrong has a new number and an owner. -/
theorem violationAfter?_eq_none {earlier : List Declaration} {declaration : Declaration}
    (fits : violationAfter? earlier declaration = none) :
    (∀ other ∈ earlier, other.id ≠ declaration.id) ∧
      ∃ owner ∈ earlier ++ [declaration],
        declaration.parent = some owner.id ∧ owner.kind.canOwn = true := by
  obtain ⟨isNew, ⟨owner, found, canOwn⟩, _⟩ := violationAfter?_eq_none_iff.mp fits
  obtain ⟨id, isParent, isOwner⟩ := Option.bind_eq_some_iff.mp found
  obtain ⟨member, rfl⟩ := findDeclaration?_eq_some isOwner
  exact ⟨isNew, owner, member, isParent, canOwn⟩

/-- Nothing is wrong with declarations that follow others if nothing is with any of
them, after those before it. -/
theorem violationFrom?_eq_none_iff {rest earlier : List Declaration} :
    violationFrom? earlier rest = none ↔ ∀ before declaration after,
      rest = before ++ declaration :: after →
        violationAfter? (earlier ++ before) declaration = none := by
  induction rest generalizing earlier with
  | nil => simp [violationFrom?]
  | cons first rest inductionHypothesis =>
      rw [violationFrom?]
      constructor
      · intro fits before declaration after isSplit
        cases violation : violationAfter? earlier first with
        | some found => simp [violation] at fits
        | none =>
            simp only [violation] at fits
            cases before with
            | nil =>
                rw [List.nil_append, List.cons.injEq] at isSplit
                rwa [List.append_nil, ← isSplit.1]
            | cons head before =>
                rw [List.cons_append, List.cons.injEq] at isSplit
                rw [← isSplit.1, List.append_cons]
                exact inductionHypothesis.mp fits before declaration after isSplit.2
      · intro allFit
        have firstFits := allFit [] first rest rfl
        rw [List.append_nil] at firstFits
        rw [firstFits]
        refine inductionHypothesis.mpr fun before declaration after isSplit => ?_
        rw [← List.append_cons]
        exact allFit (first :: before) declaration after (by rw [isSplit, List.cons_append])

/-- The declarations that follow others one by one, without anything wrong, have
new numbers and owners. -/
theorem violationFrom?_eq_none {rest earlier : List Declaration}
    (fits : violationFrom? earlier rest = none)
    (distinct : (earlier.map Declaration.id).Nodup) :
    ((earlier ++ rest).map Declaration.id).Nodup ∧
      ∀ declaration ∈ rest, ∃ owner ∈ earlier ++ rest,
        declaration.parent = some owner.id ∧ owner.kind.canOwn = true := by
  induction rest generalizing earlier with
  | nil => simpa using distinct
  | cons declaration rest inductionHypothesis =>
      rw [violationFrom?] at fits
      cases violation : violationAfter? earlier declaration with
      | some found => simp [violation] at fits
      | none =>
          simp only [violation] at fits
          obtain ⟨isNew, owner, ownerMember, isParent⟩ := violationAfter?_eq_none violation
          have extended : ((earlier ++ [declaration]).map Declaration.id).Nodup := by
            rw [List.map_append, List.nodup_append]
            refine ⟨distinct, by simp, ?_⟩
            intro id idMember other otherMember
            obtain ⟨earlierOne, earlierMember, rfl⟩ := List.mem_map.mp idMember
            rw [List.map_singleton, List.mem_singleton] at otherMember
            rw [otherMember]
            exact isNew earlierOne earlierMember
          have onwards := inductionHypothesis fits extended
          rw [List.append_assoc, List.singleton_append] at onwards
          refine ⟨onwards.1, ?_⟩
          intro other member
          rcases List.mem_cons.mp member with rfl | later
          · refine ⟨owner, ?_, isParent⟩
            rw [List.append_cons]
            exact List.mem_append_left _ ownerMember
          · exact onwards.2 other later

theorem target_of_violationFrom? {rest earlier : List Declaration}
    (fits : violationFrom? earlier rest = none) :
    ∀ declaration ∈ rest, declaration.kind.target ≠ .translationUnit := by
  intro declaration member
  obtain ⟨before, after, isSplit⟩ := List.append_of_mem member
  have fitsHere := violationFrom?_eq_none_iff.mp fits before declaration after isSplit
  exact (violationAfter?_eq_none_iff.mp fitsHere).2.2

/-- What makes a list of declarations a unit. -/
theorem unitViolation?_eq_none_iff {root : Declaration} {others : List Declaration} :
    unitViolation? (root :: others) = none ↔
      root.kind.target = .translationUnit ∧ root.parent = none ∧
        violationFrom? [root] others = none := by
  rw [unitViolation?]
  by_cases isRoot : root.kind.target = .translationUnit
  · cases parent : root.parent <;> simp [isRoot]
  · simp [isRoot]

namespace TranslationUnit

theorem sourceOrder_iff {left right : Declaration} :
    sourceOrder left right = true ↔
      left.order < right.order ∨ left.order = right.order ∧ left.id ≤ right.id := by
  simp [sourceOrder]

/-- Among declarations in source order with distinct numbers each is strictly before the
later ones. -/
theorem pairwise_before_of_sourceOrder {declarations : List Declaration}
    (ordered : declarations.Pairwise fun left right => sourceOrder left right = true)
    (distinct : (declarations.map Declaration.id).Nodup) :
    declarations.Pairwise fun left right =>
      left.order < right.order ∨ left.order = right.order ∧ left.id < right.id := by
  refine (ordered.and (List.pairwise_map.mp distinct)).imp ?_
  rintro left right ⟨before, different⟩
  rw [sourceOrder_iff] at before
  omega

variable (unit : TranslationUnit)

private theorem unit_valid :
    unit.root.kind.target = .translationUnit ∧ unit.root.parent = none ∧
      violationFrom? [unit.root] unit.others = none :=
  unitViolation?_eq_none_iff.mp unit.valid

theorem root_kind : unit.root.kind = .translationUnit := by
  have isTarget := (unit_valid unit).1
  cases kind : unit.root.kind <;> simp_all [DeclarationKind.target]

theorem root_parent : unit.root.parent = none := (unit_valid unit).2.1

/-- No two declarations have one number. -/
theorem ids_nodup : (unit.declarations.map Declaration.id).Nodup :=
  (violationFrom?_eq_none (unit_valid unit).2.2 (by simp)).1

/-- Every declaration but the root has an owner in the unit, which can be one. -/
theorem exists_owner {declaration : Declaration} (member : declaration ∈ unit.others) :
    ∃ owner ∈ unit.declarations,
      declaration.parent = some owner.id ∧ owner.kind.canOwn = true :=
  (violationFrom?_eq_none (unit_valid unit).2.2 (by simp)).2 declaration member

/-- Only the root is a root. -/
theorem target_of_mem_others {declaration : Declaration} (member : declaration ∈ unit.others) :
    declaration.kind.target ≠ .translationUnit :=
  target_of_violationFrom? (unit_valid unit).2.2 declaration member

variable {unit}

/-- A unit is made of the declarations that it lists. -/
theorem ofDeclarations_eq_ok_iff {declarations : List Declaration} :
    ofDeclarations declarations = .ok unit ↔ unit.declarations = declarations := by
  obtain ⟨root, others, valid⟩ := unit
  cases declarations with
  | nil => exact ⟨nofun, nofun⟩
  | cons first rest =>
      simp only [ofDeclarations]
      constructor
      · intro isUnit
        split at isUnit
        · cases Except.ok.inj isUnit
          rfl
        · cases isUnit
      · intro same
        cases same
        split
        · rfl
        · rename_i found violation
          rw [valid] at violation
          cases violation

/-- Declarations of one number are one declaration. -/
theorem eq_of_id_eq {left right : Declaration} (leftMember : left ∈ unit.declarations)
    (rightMember : right ∈ unit.declarations) (sameId : left.id = right.id) : left = right :=
  List.inj_on_of_nodup_map unit.ids_nodup leftMember rightMember sameId

/-- Looking up a number finds the declaration that has it. -/
theorem get?_eq_some_iff {id : Nat} {declaration : Declaration} :
    unit.get? id = some declaration ↔
      declaration ∈ unit.declarations ∧ declaration.id = id :=
  findDeclaration?_eq_some_iff unit.ids_nodup

end TranslationUnit

end Registrar
