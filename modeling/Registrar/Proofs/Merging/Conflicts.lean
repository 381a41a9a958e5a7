import Mathlib
import Registrar.Proofs.Graph.Grouping

/-!
Contract: when redeclarations contradict each other.

Owns: what two annotations that agree are merged into, and that a group has a
conflict if and only if two of its annotations contradict each other.

Does not own: what the merged annotation asks for.

A conflict leaves the annotation half merged, and the next redeclaration is
merged into that. While there is no conflict, what was merged contradicts
exactly what one of the annotations before contradicts; so the first
contradiction in source order is found, whatever is made of the later ones.
-/

set_option autoImplicit false

namespace Registrar

namespace Marking

/-! ## Two values -/

/-- Both are set, to different values. -/
def Differ {α : Type} (mine theirs : Option α) : Prop :=
  ∃ value other, mine = some value ∧ theirs = some other ∧ value ≠ other

section Values

variable {α : Type} {mine theirs third : Option α}

theorem not_differ_self : ¬ Differ mine mine := by
  rintro ⟨value, other, isMine, isOther, differs⟩
  exact differs (Option.some.inj (isMine.symm.trans isOther))

theorem differ_comm : Differ mine theirs ↔ Differ theirs mine := by
  unfold Differ
  rw [exists_comm]
  simp only [and_left_comm, ne_comm]

/-- Of two values that agree, each that is set is taken. -/
theorem or_eq_some_iff_of_agree {value : α} (agree : ¬ Differ mine theirs) :
    mine.or theirs = some value ↔ mine = some value ∨ theirs = some value := by
  cases mine with
  | none => simp
  | some own =>
      cases theirs with
      | none => simp
      | some other =>
          obtain rfl : own = other := by simpa [Differ] using agree
          simp

variable [DecidableEq α]

theorem disagree_eq_true : disagree mine theirs = true ↔ Differ mine theirs := by
  unfold Differ
  cases mine <;> cases theirs <;> simp [disagree]

/-- Of two values that agree, what contradicts either contradicts the one that is
taken. -/
theorem disagree_or (agree : disagree mine theirs = false) :
    disagree (mine.or theirs) third = (disagree mine third || disagree theirs third) := by
  cases mine with
  | none => rfl
  | some value =>
      cases theirs with
      | none => simp [disagree]
      | some other =>
          obtain rfl : value = other := by simpa [disagree] using agree
          simp

theorem disagree_or_right : disagree (mine.or theirs) theirs = disagree mine theirs := by
  cases mine with
  | none => cases theirs <;> simp [disagree]
  | some value => rfl

end Values

/-! ## Two annotations -/

/-- The two annotations set a part that has one value to different values. -/
def Contradicts (mine theirs : Marking) : Prop :=
  Differ mine.visible theirs.visible ∨ Differ mine.exposeAs theirs.exposeAs ∨
    Differ mine.moduleName theirs.moduleName ∨ Differ mine.exposeHere theirs.exposeHere ∨
    Differ mine.arithmetic theirs.arithmetic ∨ Differ mine.exportValues theirs.exportValues ∨
    Differ mine.dynamicAttributes theirs.dynamicAttributes ∨
    Differ mine.holderType theirs.holderType ∨ Differ mine.returnPolicy theirs.returnPolicy ∨
    Differ mine.implicitConversion theirs.implicitConversion ∨
    Differ mine.readonly theirs.readonly ∨ Differ mine.noConversion theirs.noConversion

/-- The first annotation with the parts that have one value filled from the second. -/
def fill (mine theirs : Marking) : Marking :=
  { mine with
    visible := mine.visible.or theirs.visible
    exposeAs := mine.exposeAs.or theirs.exposeAs
    moduleName := mine.moduleName.or theirs.moduleName
    exposeHere := mine.exposeHere.or theirs.exposeHere
    arithmetic := mine.arithmetic.or theirs.arithmetic
    exportValues := mine.exportValues.or theirs.exportValues
    dynamicAttributes := mine.dynamicAttributes.or theirs.dynamicAttributes
    holderType := mine.holderType.or theirs.holderType
    returnPolicy := mine.returnPolicy.or theirs.returnPolicy
    implicitConversion := mine.implicitConversion.or theirs.implicitConversion
    readonly := mine.readonly.or theirs.readonly
    noConversion := mine.noConversion.or theirs.noConversion }

variable {mine theirs third merged : Marking}

theorem contradicts_iff_exists_part :
    mine.Contradicts theirs ↔ ∃ part ∈ singleValued, part.disagreeOn mine theirs = true := by
  simp [Contradicts, singleValued, disagree_eq_true]

theorem not_contradicts_iff :
    ¬ mine.Contradicts theirs ↔ ∀ part ∈ singleValued, part.disagreeOn mine theirs = false := by
  rw [contradicts_iff_exists_part]
  simp

theorem not_contradicts_self (marking : Marking) : ¬ marking.Contradicts marking := by
  simp [Contradicts, not_differ_self]

theorem contradicts_comm : mine.Contradicts theirs ↔ theirs.Contradicts mine := by
  unfold Contradicts
  simp only [differ_comm]

/-- Parts are filled to the end if and only if the two agree on each, provided that filling
one leaves what the two disagree on. -/
theorem fillSingleValued_agree_iff {parts : List SingleValued}
    (independent : ∀ part ∈ parts, ∀ other ∈ parts, ∀ mine,
      other.disagreeOn (part.fillFrom mine theirs) theirs = other.disagreeOn mine theirs) :
    (fillSingleValued parts mine theirs).2 = none ↔
      ∀ part ∈ parts, part.disagreeOn mine theirs = false := by
  induction parts generalizing mine with
  | nil => simp [fillSingleValued]
  | cons part rest inductionHypothesis =>
      have later := @inductionHypothesis (part.fillFrom mine theirs)
        fun first member other otherMember =>
          independent first (List.mem_cons_of_mem part member) other
            (List.mem_cons_of_mem part otherMember)
      have unchanged (other : SingleValued) (member : other ∈ rest) :=
        independent part List.mem_cons_self other (List.mem_cons_of_mem part member) mine
      rw [fillSingleValued, List.forall_mem_cons]
      split
      · rename_i differs
        simp [differs]
      · rename_i agrees
        rw [later, Bool.eq_false_iff.mpr agrees]
        simp only [true_and]
        exact forall₂_congr fun other member => by rw [unchanged other member]

theorem fillSingleValued_eq_foldl {parts : List SingleValued}
    (agree : (fillSingleValued parts mine theirs).2 = none) :
    (fillSingleValued parts mine theirs).1 =
      parts.foldl (fun marking part => part.fillFrom marking theirs) mine := by
  induction parts generalizing mine with
  | nil => rfl
  | cons part rest inductionHypothesis =>
      rw [fillSingleValued] at agree ⊢
      split at agree
      · cases agree
      · rename_i agrees
        rw [if_neg agrees]
        exact inductionHypothesis agree

/-- Filling a part from an annotation leaves what contradicts that annotation. -/
theorem disagreeOn_fillFrom {part other : SingleValued} (member : part ∈ singleValued)
    (otherMember : other ∈ singleValued) :
    other.disagreeOn (part.fillFrom mine theirs) theirs = other.disagreeOn mine theirs := by
  simp only [singleValued, List.mem_cons, List.not_mem_nil, or_false] at member otherMember
  rcases member with rfl | rfl | rfl | rfl | rfl | rfl | rfl | rfl | rfl | rfl | rfl | rfl <;>
    rcases otherMember with
      rfl | rfl | rfl | rfl | rfl | rfl | rfl | rfl | rfl | rfl | rfl | rfl <;>
    first | rfl | exact disagree_or_right

theorem fillSingleValued_conflict_iff :
    (fillSingleValued singleValued mine theirs).2 = none ↔ ¬ mine.Contradicts theirs := by
  rw [not_contradicts_iff]
  exact fillSingleValued_agree_iff
    fun part member other otherMember _ => disagreeOn_fillFrom member otherMember

/-- A redeclaration is merged without conflict if and only if the two annotations do not
contradict each other. -/
theorem mergeRedeclaration_conflict_iff :
    (mine.mergeRedeclaration theirs).2 = none ↔ ¬ mine.Contradicts theirs := by
  rw [← fillSingleValued_conflict_iff, mergeRedeclaration]
  split
  · rename_i filled isFilled
    simp [isFilled]
  · rfl

/-- What is merged without conflict, part by part. -/
theorem mergeRedeclaration_eq_iff :
    mine.mergeRedeclaration theirs = (merged, none) ↔
      ¬ mine.Contradicts theirs ∧ merged = mergeCollections (mine.fill theirs) theirs := by
  have filledIs (agree : ¬ mine.Contradicts theirs) :
      mine.mergeRedeclaration theirs = (mergeCollections (mine.fill theirs) theirs, none) := by
    have noConflict := fillSingleValued_conflict_iff.mpr agree
    have isFilled : fillSingleValued singleValued mine theirs = (mine.fill theirs, none) :=
      Prod.ext (fillSingleValued_eq_foldl noConflict) noConflict
    rw [mergeRedeclaration, isFilled]
  constructor
  · intro isMerged
    have agree := mergeRedeclaration_conflict_iff.mp (congrArg Prod.snd isMerged)
    exact ⟨agree, (Prod.mk.inj (isMerged.symm.trans (filledIs agree))).1⟩
  · rintro ⟨agree, rfl⟩
    exact filledIs agree

/-- What two annotations that agree are merged into contradicts what either contradicts. -/
theorem contradicts_merged_iff (isMerged : mine.mergeRedeclaration theirs = (merged, none)) :
    merged.Contradicts third ↔ mine.Contradicts third ∨ theirs.Contradicts third := by
  obtain ⟨agree, rfl⟩ := mergeRedeclaration_eq_iff.mp isMerged
  have eachPart : ∀ part ∈ singleValued,
      part.disagreeOn (mergeCollections (mine.fill theirs) theirs) third =
        (part.disagreeOn mine third || part.disagreeOn theirs third) := by
    intro part member
    have agreeOn := not_contradicts_iff.mp agree part member
    simp only [singleValued, List.mem_cons, List.not_mem_nil, or_false] at member
    rcases member with rfl | rfl | rfl | rfl | rfl | rfl | rfl | rfl | rfl | rfl | rfl | rfl <;>
      exact disagree_or agreeOn
  simp only [contradicts_iff_exists_part, ← exists_or, ← and_or_left, ← Bool.or_eq_true]
  exact exists_congr fun part => and_congr_right fun member => by rw [eachPart part member]

end Marking

/-! ## A group of redeclarations -/

namespace Entity

open Marking

variable {table : MarkingTable}

/-- Nothing is wrong with redeclarations that are merged into an annotation if and only if
none contradicts it and no two contradict each other. -/
theorem mergeMarkings_faults_eq_nil_iff {name : String} {marking : Marking}
    {declarations : List Declaration} :
    (mergeMarkings table name marking declarations).2 = [] ↔
      (∀ declaration ∈ declarations, ¬ marking.Contradicts (table.get declaration.id)) ∧
        declarations.Pairwise fun earlier later =>
          ¬ (table.get earlier.id).Contradicts (table.get later.id) := by
  induction declarations generalizing marking with
  | nil => simp [mergeMarkings]
  | cons declaration rest inductionHypothesis =>
      rw [List.forall_mem_cons, List.pairwise_cons]
      cases isMerged : marking.mergeRedeclaration (table.get declaration.id) with
      | mk merged conflict =>
          cases conflict with
          | some kind =>
              have contradicts : marking.Contradicts (table.get declaration.id) := by
                rw [← not_not (a := marking.Contradicts _), ← mergeRedeclaration_conflict_iff,
                  isMerged]
                simp
              simp [mergeMarkings, isMerged, contradicts]
          | none =>
              have agree := (mergeRedeclaration_eq_iff.mp isMerged).1
              simp only [mergeMarkings, isMerged]
              rw [inductionHypothesis]
              simp only [contradicts_merged_iff isMerged, not_or, forall_and]
              tauto

/-- Every fault in the annotations of redeclarations is a conflict, told of one of them. -/
theorem eq_of_mem_mergeMarkings {name : String} {marking : Marking}
    {declarations : List Declaration} {fault : Fault}
    (listed : fault ∈ (mergeMarkings table name marking declarations).2) :
    ∃ declaration ∈ declarations, ∃ directive,
      fault = (Fault.ofCause (.conflictingRedeclarations name directive)).located
        declaration.displayName declaration.location := by
  induction declarations generalizing marking with
  | nil => cases listed
  | cons declaration rest inductionHypothesis =>
      have later {merged : Marking}
          (isLater : fault ∈ (mergeMarkings table name merged rest).2) :
          ∃ other ∈ declaration :: rest, ∃ directive,
            fault = (Fault.ofCause (.conflictingRedeclarations name directive)).located
              other.displayName other.location := by
        obtain ⟨other, isOther, isConflict⟩ := inductionHypothesis isLater
        exact ⟨other, List.mem_cons_of_mem declaration isOther, isConflict⟩
      cases isMerged : marking.mergeRedeclaration (table.get declaration.id) with
      | mk merged conflict =>
          simp only [mergeMarkings, isMerged] at listed
          cases conflict with
          | none => exact later listed
          | some kind =>
              rcases List.mem_cons.mp listed with rfl | isLater
              · exact ⟨declaration, List.mem_cons_self, kind.name, rfl⟩
              · exact later isLater

theorem ofGroup_faults_eq_nil_iff {groups : List Group} {id : Nat} {group : Group} :
    (ofGroup table groups id group).2 = [] ↔
      ∀ first ∈ group.members, ∀ second ∈ group.members,
        ¬ (table.get first.id).Contradicts (table.get second.id) := by
  have fromOrdered : (ofGroup table groups id group).2 = [] ↔
      group.inSourceOrder.Pairwise fun earlier later =>
        ¬ (table.get earlier.id).Contradicts (table.get later.id) := by
    rw [group.inSourceOrder_eq_cons, List.pairwise_cons]
    exact mergeMarkings_faults_eq_nil_iff
  simp only [fromOrdered, ← @Group.mem_inSourceOrder group]
  constructor
  · intro apart first firstMember second secondMember
    have symmetric : Std.Symm fun earlier later : Declaration =>
        ¬ (table.get earlier.id).Contradicts (table.get later.id) :=
      ⟨fun _ _ agree => contradicts_comm.not.mp agree⟩
    exact apart.forall_of_forall (fun _ _ => not_contradicts_self _) firstMember secondMember
  · intro agree
    exact List.pairwise_of_forall_mem_list agree

/-- A group of redeclarations has a conflict if and only if two of its annotations set a
part that has one value to different values. -/
theorem ofGroup_conflicts_iff (table : MarkingTable) (groups : List Group) (id : Nat)
    (group : Group) :
    (∃ fault ∈ (ofGroup table groups id group).2, ∃ name directive,
        fault.cause = .conflictingRedeclarations name directive) ↔
      ∃ first ∈ group.members, ∃ second ∈ group.members,
        (table.get first.id).Contradicts (table.get second.id) := by
  have anyFault : (∃ fault ∈ (ofGroup table groups id group).2, ∃ name directive,
      fault.cause = .conflictingRedeclarations name directive) ↔
        (ofGroup table groups id group).2 ≠ [] := by
    constructor
    · rintro ⟨fault, listed, _⟩
      exact List.ne_nil_of_mem listed
    · intro someFault
      obtain ⟨fault, listed⟩ := List.exists_mem_of_ne_nil _ someFault
      obtain ⟨declaration, _, directive, rfl⟩ := eq_of_mem_mergeMarkings listed
      exact ⟨_, listed, _, directive, rfl⟩
  rw [anyFault, ne_eq, ofGroup_faults_eq_nil_iff]
  push Not
  rfl

end Entity

end Registrar
