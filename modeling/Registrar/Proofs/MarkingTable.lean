import Mathlib
import Registrar.Proofs.References

/-!
Contract: which annotations of a unit are faulty, and what is told of them.

Owns: that the table of annotations exists just if every declaration carries an annotation that
fits it, that it has the annotation of every declaration, and that otherwise every defect of every
declaration is told.

Does not own: when payloads hold an annotation by themselves.
-/

set_option autoImplicit false

namespace Registrar

open Examination

/-! ## Annotations and defects -/

namespace Declaration

/-- The payloads hold the annotation, what it refers to are arguments of the declaration, and it
comes before or after everything only directly below the root. -/
structure Carries (unit : TranslationUnit) (declaration : Declaration) (marking : Marking) :
    Prop where
  holds : Marking.ofPayloads declaration.payloads declaration.kind.target = .ok marking
  resolves : ∀ signature, declaration.kind.signature? = some signature →
    Resolves (argumentReferences marking) signature declaration.kind.hasThis
  placed : marking.placement = some .early ∨ marking.placement = some .postamble →
    declaration.parent = some unit.root.id

/-- A cause for which the annotation of the declaration does not fit it. -/
inductive Defect (unit : TranslationUnit) (declaration : Declaration) : Cause → Prop where
  | payloads {cause : Cause}
      (fails : Marking.ofPayloads declaration.payloads declaration.kind.target = .error cause) :
      Defect unit declaration cause
  | reference {marking : Marking} {signature : Signature} {directive : DirectiveKind}
      {reference : ArgumentRef}
      (holds : Marking.ofPayloads declaration.payloads declaration.kind.target = .ok marking)
      (isSignature : declaration.kind.signature? = some signature)
      (refers : (directive, reference) ∈ argumentReferences marking)
      (unknown : reference.resolve? signature.parameterNames declaration.kind.hasThis = none) :
      Defect unit declaration (.unknownArgument directive.name reference.text)
  | placement {marking : Marking} {placement : Placement}
      (holds : Marking.ofPayloads declaration.payloads declaration.kind.target = .ok marking)
      (isPlacement : marking.placement = some placement)
      (isOuter : placement = .early ∨ placement = .postamble)
      (inner : declaration.parent ≠ some unit.root.id) :
      Defect unit declaration (.misplacedManualBlock placement.kind.name)

variable {unit : TranslationUnit} {declaration : Declaration}

/-- A declaration has no defect exactly if it carries an annotation that fits it. -/
theorem exists_carries_iff :
    (∃ marking, declaration.Carries unit marking) ↔ ∀ cause, ¬ declaration.Defect unit cause := by
  constructor
  · intro carries cause defect
    obtain ⟨marking, isHeld, resolves, placed⟩ := carries
    cases defect with
    | payloads fails => cases isHeld.symm.trans fails
    | reference holds isSignature refers unknown =>
        cases isHeld.symm.trans holds
        have resolved := resolves _ isSignature _ refers
        simp [unknown] at resolved
    | placement holds isPlacement isOuter inner =>
        cases isHeld.symm.trans holds
        apply inner
        apply placed
        simpa [isPlacement] using isOuter
  · intro noDefect
    cases holds : Marking.ofPayloads declaration.payloads declaration.kind.target with
    | error cause => exact absurd (.payloads holds) (noDefect cause)
    | ok marking =>
        refine ⟨marking, holds, ?_, ?_⟩
        · intro signature isSignature named refers
          by_contra unresolved
          rw [Bool.not_eq_true, Option.isSome_eq_false_iff, Option.isNone_iff_eq_none]
            at unresolved
          exact noDefect _ (.reference holds isSignature refers unresolved)
        · intro isOuter
          by_contra inner
          cases isOuter with
          | inl isEarly => exact noDefect _ (.placement holds isEarly (.inl rfl) inner)
          | inr isPostamble => exact noDefect _ (.placement holds isPostamble (.inr rfl) inner)

end Declaration

/-! ## One declaration -/

namespace Examination

variable {unit : TranslationUnit} {declaration : Declaration}

/-- Only what is owned by the root is directly below it: no other declaration is a root. -/
theorem isAtRoot_iff : isAtRoot unit declaration = true ↔
    declaration.parent = some unit.root.id := by
  unfold isAtRoot
  cases isParent : declaration.parent with
  | none => simp
  | some parent =>
      rw [Option.bind_some, Option.some.injEq]
      constructor
      · intro isRoot
        cases found : unit.get? parent with
        | none => simp [found] at isRoot
        | some owner =>
            obtain ⟨member, isOwner⟩ := TranslationUnit.get?_eq_some_iff.mp found
            simp only [found, beq_iff_eq] at isRoot
            cases List.mem_cons.mp member with
            | inl isFirst => rw [← isOwner, isFirst]
            | inr isOther => exact absurd isRoot (unit.target_of_mem_others isOther)
      · intro sameId
        have found : unit.get? parent = some unit.root :=
          TranslationUnit.get?_eq_some_iff.mpr ⟨List.mem_cons_self, sameId.symm⟩
        simp [found, unit.root_kind, DeclarationKind.target]

theorem mem_unresolved_iff {references : List (DirectiveKind × ArgumentRef)}
    {signature : Signature} {hasThis : Bool} {cause : Cause} :
    cause ∈ unresolved references signature hasThis ↔
      ∃ directive reference, (directive, reference) ∈ references ∧
        reference.resolve? signature.parameterNames hasThis = none ∧
        cause = .unknownArgument directive.name reference.text := by
  unfold unresolved
  rw [List.mem_filterMap]
  constructor
  · intro isUnresolved
    obtain ⟨⟨directive, reference⟩, refers, isCause⟩ := isUnresolved
    cases resolved : reference.resolve? signature.parameterNames hasThis with
    | some number => simp [resolved] at isCause
    | none =>
        simp only [resolved, Option.some.injEq] at isCause
        exact ⟨directive, reference, refers, resolved, isCause.symm⟩
  · intro isUnknown
    obtain ⟨directive, reference, refers, unknown, rfl⟩ := isUnknown
    exact ⟨(directive, reference), refers, by simp [unknown]⟩

theorem mem_misplaced_iff {marking : Marking} {cause : Cause} :
    cause ∈ misplaced unit declaration marking ↔
      ∃ placement, marking.placement = some placement ∧
        (placement = .early ∨ placement = .postamble) ∧
        declaration.parent ≠ some unit.root.id ∧
        cause = .misplacedManualBlock placement.kind.name := by
  have outer (placement : Placement) :
      cause ∈ (if isAtRoot unit declaration then []
        else [Cause.misplacedManualBlock placement.kind.name]) ↔
      declaration.parent ≠ some unit.root.id ∧
        cause = .misplacedManualBlock placement.kind.name := by
    rw [Ne, ← isAtRoot_iff]
    by_cases atRoot : isAtRoot unit declaration = true
    · simp [atRoot]
    · simp [atRoot]
  unfold misplaced
  cases isPlacement : marking.placement with
  | none => simp
  | some placement =>
      cases placement with
      | early => simpa using outer .early
      | postamble => simpa using outer .postamble
      | before _ => simp
      | after _ => simp

theorem mem_causes_iff {marking : Marking} {cause : Cause}
    (holds : Marking.ofPayloads declaration.payloads declaration.kind.target = .ok marking) :
    cause ∈ causes unit declaration marking ↔ declaration.Defect unit cause := by
  unfold causes
  rw [List.mem_append, mem_misplaced_iff]
  constructor
  · intro isCause
    cases isCause with
    | inl isUnresolved =>
        cases isSignature : declaration.kind.signature? with
        | none => simp [isSignature] at isUnresolved
        | some signature =>
            simp only [isSignature, mem_unresolved_iff] at isUnresolved
            obtain ⟨directive, reference, refers, unknown, rfl⟩ := isUnresolved
            exact .reference holds isSignature refers unknown
    | inr isMisplaced =>
        obtain ⟨placement, isPlacement, isOuter, inner, rfl⟩ := isMisplaced
        exact .placement holds isPlacement isOuter inner
  · intro defect
    cases defect with
    | payloads fails => cases holds.symm.trans fails
    | reference isHeld isSignature refers unknown =>
        cases holds.symm.trans isHeld
        left
        simp only [isSignature, mem_unresolved_iff]
        exact ⟨_, _, refers, unknown, rfl⟩
    | placement isHeld isPlacement isOuter inner =>
        cases holds.symm.trans isHeld
        right
        exact ⟨_, isPlacement, isOuter, inner, rfl⟩

/-- What is found in a declaration are its defects, and each is said to be found there. -/
theorem mem_faults_iff {fault : Fault} :
    fault ∈ (ofDeclaration unit declaration).faults ↔
      ∃ cause, declaration.Defect unit cause ∧
        fault = (Fault.ofCause cause).located declaration.displayName declaration.location := by
  unfold ofDeclaration
  dsimp only
  cases holds : Marking.ofPayloads declaration.payloads declaration.kind.target with
  | error cause =>
      have onlyCause (other : Cause) : declaration.Defect unit other ↔ other = cause := by
        constructor
        · intro defect
          cases defect with
          | payloads fails =>
              cases holds.symm.trans fails
              rfl
          | reference isHeld => cases holds.symm.trans isHeld
          | placement isHeld => cases holds.symm.trans isHeld
        · intro same
          rw [same]
          exact .payloads holds
      simp [onlyCause]
  | ok marking => simp [mem_causes_iff holds, eq_comm]

theorem faults_eq_nil_iff : (ofDeclaration unit declaration).faults = [] ↔
    ∃ marking, declaration.Carries unit marking := by
  rw [Declaration.exists_carries_iff, List.eq_nil_iff_forall_not_mem]
  constructor
  · intro noFault cause defect
    exact noFault _ (mem_faults_iff.mpr ⟨cause, defect, rfl⟩)
  · intro noDefect fault listed
    obtain ⟨cause, defect, _⟩ := mem_faults_iff.mp listed
    exact noDefect cause defect

end Examination

/-! ## The whole unit -/

namespace MarkingTable

theorem exists_ofUnit_iff {unit : TranslationUnit} :
    (∃ table, ofUnit unit = .ok table) ↔
      ∀ declaration ∈ unit.declarations, (ofDeclaration unit declaration).faults = [] := by
  unfold ofUnit
  dsimp only
  rw [← List.flatMap_eq_nil_iff]
  by_cases noFaults : (unit.declarations.flatMap fun declaration =>
      (ofDeclaration unit declaration).faults) = []
  · simp [noFaults]
  · simp [noFaults, List.isEmpty_iff]

theorem ofUnit_error {unit : TranslationUnit} {faults : List Fault}
    (failed : ofUnit unit = .error faults) :
    faults = unit.declarations.flatMap fun declaration =>
      (ofDeclaration unit declaration).faults := by
  unfold ofUnit at failed
  dsimp only at failed
  split at failed
  · cases failed
  · exact (Except.error.inj failed).symm

/-- The table exists exactly if every declaration carries an annotation that fits it, and has these
annotations. Otherwise all defects of all declarations are told: those of a declaration after
those of the ones before it, each with its name and its place. -/
structure TellsAllDefects (unit : TranslationUnit) : Prop where
  exists_iff : (∃ table, ofUnit unit = .ok table) ↔
    ∀ declaration ∈ unit.declarations, ∃ marking, declaration.Carries unit marking
  annotates : ∀ table, ofUnit unit = .ok table → ∀ declaration ∈ unit.declarations,
    declaration.Carries unit (table.get declaration.id) ∧
      (declaration.payloads = [] → table.get declaration.id = .empty)
  tells : ∀ faults, ofUnit unit = .error faults → ∃ found : Declaration → List Fault,
    faults = unit.declarations.flatMap found ∧ ∀ declaration ∈ unit.declarations,
      (found declaration ≠ [] ↔ ¬ ∃ marking, declaration.Carries unit marking) ∧
      ∀ fault, fault ∈ found declaration ↔ ∃ cause, declaration.Defect unit cause ∧
        fault = (Fault.ofCause cause).located declaration.displayName declaration.location

theorem ofUnit_tellsAllDefects (unit : TranslationUnit) : TellsAllDefects unit := by
  constructor
  · rw [exists_ofUnit_iff]
    simp only [faults_eq_nil_iff]
  · intro table marked declaration member
    have noFaults := exists_ofUnit_iff.mp ⟨table, marked⟩ declaration member
    obtain ⟨marking, carries⟩ := faults_eq_nil_iff.mp noFaults
    have isHeld := (get_of_mem marked member).1
    have same : marking = table.get declaration.id :=
      Except.ok.inj (carries.holds.symm.trans isHeld)
    rw [← same]
    refine ⟨carries, ?_⟩
    intro noPayloads
    have holds := carries.holds
    rw [noPayloads] at holds
    exact (Except.ok.inj holds).symm
  · intro faults failed
    refine ⟨fun declaration => (ofDeclaration unit declaration).faults, ofUnit_error failed, ?_⟩
    intro declaration _
    exact ⟨not_congr faults_eq_nil_iff, fun _ => mem_faults_iff⟩

end MarkingTable

end Registrar
