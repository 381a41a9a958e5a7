import Mathlib
import Registrar.Proofs.Plan

/-!
Contract: the warnings of a plan.

Owns: which steps raise them, in which order, and what category those of each step
have.

Does not own: what a warning says.
-/

set_option autoImplicit false

namespace Registrar

namespace Diagnostic

/-- All diagnostics have the category. -/
def AllOf (category : String) (diagnostics : List Diagnostic) : Prop :=
  ∀ diagnostic ∈ diagnostics, diagnostic.category = category

/-- Of diagnostics of one category all or none have another. -/
theorem AllOf.filter {category : String} {diagnostics : List Diagnostic}
    (all : AllOf category diagnostics) (wanted : String) :
    (diagnostics.filter fun diagnostic => diagnostic.category == wanted) =
      if category = wanted then diagnostics else [] := by
  split
  · rename_i isWanted
    refine List.filter_eq_self.mpr fun diagnostic listed => ?_
    rw [all diagnostic listed, isWanted, beq_self_eq_true]
  · rename_i notWanted
    refine List.filter_eq_nil_iff.mpr fun diagnostic listed => ?_
    rw [all diagnostic listed, beq_iff_eq]
    exact notWanted

end Diagnostic

/-! ## One step -/

/-- Examining annotations warns of directives without effect. -/
theorem MarkingTable.warnings_allOf (unit : TranslationUnit) :
    Diagnostic.AllOf "ignored-directive" (warnings unit) := by
  intro warning listed
  obtain ⟨declaration, _, ofDeclaration⟩ := List.mem_flatMap.mp listed
  unfold Examination.ofDeclaration at ofDeclaration
  dsimp only at ofDeclaration
  split at ofDeclaration
  · cases ofDeclaration
  · obtain ⟨found, isFound, rfl⟩ := List.mem_map.mp ofDeclaration
    unfold Examination.warningsFor at isFound
    split at isFound
    · obtain ⟨reference, _, isIneffective⟩ := List.mem_filterMap.mp isFound
      dsimp only at isIneffective
      split at isIneffective
      · split at isIneffective
        · rw [← Option.some.inj isIneffective]
          rfl
        · cases isIneffective
      · cases isIneffective
    · cases isFound

/-- Matching instantiations warns of those that do not exist. -/
theorem Instantiation.unmatchedWarnings_allOf (graph : Graph) :
    Diagnostic.AllOf "unresolved-instantiation" (unmatchedWarnings graph) := by
  intro warning listed
  obtain ⟨template, _, ofTemplate⟩ := List.mem_flatMap.mp listed
  split at ofTemplate
  · obtain ⟨list, _, rfl⟩ := List.mem_map.mp ofTemplate
    rfl
  · cases ofTemplate

namespace Inheritance

variable {graph : Graph} {visibility : Visibility} {configuration : Configuration}

/-- Looking for the bases of a class warns of those that it does not have. -/
theorem unknownBases_allOf (node : Node) :
    Diagnostic.AllOf "unknown-base" (unknownBases graph configuration node) := by
  intro warning listed
  unfold unknownBases at listed
  split at listed
  · obtain ⟨pattern, _, rfl⟩ := List.mem_map.mp listed
    rfl
  · cases listed

/-- Only unknown bases were warned of so far. -/
def Progress.WarnsOfBases (progress : Progress) : Prop :=
  Diagnostic.AllOf "unknown-base" progress.warnings

theorem takeBases_warns {taken : List String}
    {follow : Nat → Progress → Except Fault ClassBases × Progress}
    (follows : ∀ base progress, progress.WarnsOfBases → (follow base progress).2.WarnsOfBases)
    {uses : List BaseUse} {gained : ClassBases} {progress : Progress}
    (warns : progress.WarnsOfBases) :
    (takeBases graph visibility taken follow uses gained progress).2.WarnsOfBases := by
  induction uses generalizing gained progress with
  | nil => exact warns
  | cons use rest inductionHypothesis =>
      unfold takeBases
      split
      · exact inductionHypothesis warns
      · rename_i base _ _
        have after := follows base progress warns
        split
        · rename_i isFollowed
          rwa [isFollowed] at after
        · rename_i isFollowed
          rw [isFollowed] at after
          exact inductionHypothesis after
      · exact inductionHypothesis warns

theorem follow_warns (budget : Nat) {path : List Nat} {id : Nat} {progress : Progress}
    (warns : progress.WarnsOfBases) :
    (follow graph visibility configuration budget path id progress).2.WarnsOfBases := by
  induction budget generalizing path id progress with
  | zero => exact warns
  | succ budget inductionHypothesis =>
      unfold follow
      split
      · exact warns
      · split
        · exact warns
        · split
          · exact warns
          · rename_i node _
            have warned : Progress.WarnsOfBases { progress with
                warnings := progress.warnings ++ unknownBases graph configuration node } :=
              List.forall_mem_append.mpr ⟨warns, unknownBases_allOf node⟩
            have after : (takeBases graph visibility (ownNames graph visibility node)
                (follow graph visibility configuration budget (path ++ [id]))
                (usesOf graph node) { bases := usesOf graph node } _).2.WarnsOfBases :=
              takeBases_warns (fun _ _ => inductionHypothesis) warned
            dsimp only
            split
            · rename_i isTaken
              rw [isTaken] at after
              exact after
            · exact after

theorem followAll_warns {classes : List Nat} {faults : List Fault} {progress : Progress}
    (warns : progress.WarnsOfBases) :
    (followAll graph visibility configuration faults progress classes).2.WarnsOfBases := by
  induction classes generalizing faults progress with
  | nil => exact warns
  | cons first rest inductionHypothesis =>
      have after : (follow graph visibility configuration (graph.size + 1) [] first
          progress).2.WarnsOfBases := follow_warns (graph.size + 1) warns
      unfold followAll
      split
      · rename_i isFollowed
        rw [isFollowed] at after
        exact inductionHypothesis after
      · rename_i isFollowed
        rw [isFollowed] at after
        exact inductionHypothesis after

theorem warnings_allOf :
    Diagnostic.AllOf "unknown-base" (ofGraph graph visibility configuration).2 := by
  have warns : (followAll graph visibility configuration [] {}
      (emittedClasses graph visibility)).2.WarnsOfBases :=
    followAll_warns fun _ listed => absurd listed List.not_mem_nil
  unfold ofGraph
  dsimp only
  split
  · exact warns
  · exact warns

end Inheritance

/-- Scheduling warns of aliases without a target. -/
theorem Schedule.warnings_allOf (graph : Graph) (visibility : Visibility) :
    Diagnostic.AllOf "unresolved-alias-target" (warnings graph visibility) := by
  intro warning listed
  obtain ⟨node, _, rfl⟩ := List.mem_map.mp listed
  rfl

/-! ## All steps -/

namespace Plan

variable {configuration : Configuration} {unit : TranslationUnit} {plan : Plan}

/-- The warnings of a plan are those of its steps, one after the other. -/
theorem warnings_eq (planned : ofUnit configuration unit = .ok plan) :
    plan.warnings = MarkingTable.warnings unit ++
      (Instantiation.unmatchedWarnings plan.groundwork.graph ++
        (Inheritance.ofGraph plan.groundwork.graph plan.groundwork.visibility configuration).2) ++
      Schedule.warnings plan.groundwork.graph plan.groundwork.visibility := by
  unfold ofUnit at planned
  dsimp only at planned
  split at planned
  · cases planned
  · split at planned
    · cases planned
    · unfold ofGraph at planned
      dsimp only at planned
      split at planned
      · split at planned
        · rw [← Except.ok.inj planned]
          rfl
        · cases planned
      · cases planned

/-- Scheduling raises all warnings of aliases without a target. -/
theorem unresolvedWarnings_eq (planned : ofUnit configuration unit = .ok plan) :
    (plan.warnings.filter fun warning => warning.category == "unresolved-alias-target") =
      Schedule.warnings plan.groundwork.graph plan.groundwork.visibility := by
  rw [warnings_eq planned, List.filter_append, List.filter_append, List.filter_append,
    (MarkingTable.warnings_allOf unit).filter, (Instantiation.unmatchedWarnings_allOf _).filter,
    Inheritance.warnings_allOf.filter, (Schedule.warnings_allOf _ _).filter]
  simp

end Plan

end Registrar
