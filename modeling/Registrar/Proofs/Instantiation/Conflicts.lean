import Mathlib
import Registrar.Proofs.Instantiation.Names
import Registrar.Proofs.References

/-!
Contract: when instantiations cannot be named.

Owns: the conflicts between instantiations, that they are named unless there is one, and
what every node is called then.

Does not own: which fault tells of a conflict.

A name must be the only one in the context that the instantiation is registered in. That is
what is around it, and for the root, around which there is nothing, the root itself.
-/

set_option autoImplicit false

namespace Registrar

variable {unit : TranslationUnit} {table : MarkingTable} {graph : Graph}
  {visibility : Visibility}

/-! ## Conflicts -/

namespace Marking

/-- The annotation says something of the argument: that it is kept alive or keeps alive, is
not converted, or is required. -/
def RefersTo (marking : Marking) (reference : ArgumentRef) : Prop :=
  (∃ pair ∈ marking.keepAlive, reference = pair.1 ∨ reference = pair.2) ∨
    (∃ references, marking.noConversion = some (.only references) ∧ reference ∈ references) ∨
    reference ∈ marking.required

theorem refersTo_iff {marking : Marking} {reference : ArgumentRef} :
    marking.RefersTo reference ↔
      ∃ named ∈ Examination.argumentReferences marking, named.2 = reference := by
  unfold RefersTo Examination.argumentReferences Examination.pairReferences
  constructor
  · rintro (⟨pair, isKept, rfl | rfl⟩ | ⟨references, selected, listed⟩ | isRequired)
    · exact ⟨_, List.mem_append_left _ (List.mem_flatMap.mpr ⟨pair, isKept, .head _⟩), rfl⟩
    · exact ⟨_, List.mem_append_left _ (List.mem_flatMap.mpr ⟨pair, isKept, .tail _ (.head _)⟩),
        rfl⟩
    · exact ⟨_, List.mem_append_right _ (mem_parameterReferences.mpr
        (.inl ⟨references, selected, reference, listed, rfl⟩)), rfl⟩
    · exact ⟨_, List.mem_append_right _ (mem_parameterReferences.mpr
        (.inr ⟨reference, isRequired, rfl⟩)), rfl⟩
  · rintro ⟨named, listed, rfl⟩
    rcases List.mem_append.mp listed with isPair | isParameter
    · obtain ⟨pair, isKept, isNamed⟩ := List.mem_flatMap.mp isPair
      refine .inl ⟨pair, isKept, ?_⟩
      rcases List.mem_cons.mp isNamed with rfl | isSecond
      · exact .inl rfl
      · rw [List.mem_singleton.mp isSecond]
        exact .inr rfl
    · rcases mem_parameterReferences.mp isParameter with
        ⟨references, selected, reference, isNamed, rfl⟩ | ⟨reference, isRequired, rfl⟩
      · exact .inr (.inl ⟨references, selected, isNamed⟩)
      · exact .inr (.inr isRequired)

end Marking

namespace Instantiations

/-- The node is emitted and instantiates a template. -/
structure IsExposed (graph : Graph) (visibility : Visibility) (node : Node) (use : TemplateUse) :
    Prop where
  member : node ∈ graph.nodes
  emitted : visibility.isEmitted node.id = true
  instantiates : node.kind.template? = some use

/-- The name that an instantiation is to have. -/
def nameOf (graph : Graph) (visibility : Visibility) (node : Node) (use : TemplateUse) : String :=
  Instantiation.canonicalName graph visibility node (InstantiationKey.ofUse use)

/-- Two declarations that were merged into the node ask for its instantiation. -/
def AskedTwice (unit : TranslationUnit) (node : Node) : Prop :=
  ∃ first ∈ unit.declarations, ∃ second ∈ unit.declarations, first ≠ second ∧
    (first.id ∈ node.declarations ∧ Entity.asksForInstantiation first = true) ∧
      second.id ∈ node.declarations ∧ Entity.asksForInstantiation second = true

/-- The node says nothing of how it is called, so that what its template says of an argument
holds of it. It has no such argument. -/
structure LacksArgument (graph : Graph) (node template : Node) (signature : Signature)
    (reference : ArgumentRef) : Prop where
  isSignature : node.kind.signature? = some signature
  silent : Instantiation.directsCalls node.marking = false
  isTemplate : node.template.bind graph.node? = some template
  refers : template.marking.RefersTo reference
  unresolved : reference.resolve? signature.parameterNames node.kind.hasThis = none

/-- What keeps instantiations from being named, where the names of those that are together
must differ. -/
inductive Conflict (unit : TranslationUnit) (graph : Graph) (visibility : Visibility)
    (together : Node → Node → Prop) : Prop where
  | sharedName (left right : Node) (leftUse rightUse : TemplateUse) (different : left ≠ right)
      (isLeft : IsExposed graph visibility left leftUse)
      (isRight : IsExposed graph visibility right rightUse)
      (leftClass : left.kind.target = .class) (rightClass : right.kind.target = .class)
      (areTogether : together left right)
      (sameName : nameOf graph visibility left leftUse = nameOf graph visibility right rightUse)
  | askedTwice (node : Node) (use : TemplateUse) (isExposed : IsExposed graph visibility node use)
      (unnamed : node.marking.exposeAs = none) (asked : AskedTwice unit node)
  | lacksArgument (node template : Node) (use : TemplateUse) (signature : Signature)
      (reference : ArgumentRef) (isExposed : IsExposed graph visibility node use)
      (isFunction : node.kind.target = .function)
      (lacks : LacksArgument graph node template signature reference)

/-- Both are registered in one context, the root in itself. -/
def SameContext (left right : Node) : Prop :=
  left.parent.getD Graph.root = right.parent.getD Graph.root

/-- What instantiates a template and can be called is a function. -/
theorem IsExposed.isFunction {node : Node} {use : TemplateUse}
    (isExposed : IsExposed graph visibility node use) {signature : Signature}
    (isSignature : node.kind.signature? = some signature) : node.kind.target = .function := by
  have instantiates := isExposed.instantiates
  cases isKind : node.kind with
  | function written template => rfl
  | «class» bases template =>
      rw [isKind] at isSignature
      cases isSignature
  | _ =>
      rw [isKind] at instantiates
      cases instantiates

/-! ## Records of exposed nodes -/

theorem exists_record (wired : graph.Wired) {node : Node} {use : TemplateUse}
    (isExposed : IsExposed graph visibility node use) :
    ∃ record ∈ collect graph visibility, record.node = node.id ∧
      record.name = nameOf graph visibility node use := by
  have isRecord : Instantiation.ofNode? graph visibility node = some _ :=
    Option.map_eq_some_iff.mpr ⟨use, isExposed.instantiates, rfl⟩
  refine ⟨_, List.mem_filterMap.mpr ⟨node, ?_, isRecord⟩, rfl, rfl⟩
  exact (Visibility.mem_emittedNodes wired).mpr ⟨isExposed.member, isExposed.emitted⟩

theorem exists_isExposed (wired : graph.Wired) {record : Instantiation}
    (listed : record ∈ collect graph visibility) :
    ∃ node use, IsExposed graph visibility node use ∧ record.node = node.id ∧
      record.name = nameOf graph visibility node use := by
  obtain ⟨node, isEmitted, isRecord⟩ := List.mem_filterMap.mp listed
  obtain ⟨member, emitted⟩ := (Visibility.mem_emittedNodes wired).mp isEmitted
  obtain ⟨use, isUse, rfl⟩ := Option.map_eq_some_iff.mp isRecord
  exact ⟨node, use, ⟨member, emitted, isUse⟩, rfl, rfl⟩

/-! ## One instantiation alone -/

theorem exists_two_iff {α : Type} {items : List α} (distinct : items.Nodup) :
    (∃ first second rest, items = first :: second :: rest) ↔
      ∃ first ∈ items, ∃ second ∈ items, first ≠ second := by
  constructor
  · rintro ⟨first, second, rest, rfl⟩
    refine ⟨first, List.mem_cons_self, second, by simp, ?_⟩
    rintro rfl
    exact (List.nodup_cons.mp distinct).1 List.mem_cons_self
  · rintro ⟨first, isFirst, second, isSecond, different⟩
    match items with
    | [] => cases isFirst
    | [only] =>
        exact absurd ((List.mem_singleton.mp isFirst).trans (List.mem_singleton.mp isSecond).symm)
          different
    | first :: second :: rest => exact ⟨first, second, rest, rfl⟩

theorem repeatedFault?_eq_none_iff (built : Graph.ofUnit unit table = .ok graph) {node : Node}
    (member : node ∈ graph.nodes) {record : Instantiation} :
    Instantiation.repeatedFault? unit node record = none ↔
      ¬ (node.marking.exposeAs = none ∧ AskedTwice unit node) := by
  have mem_merged {declaration : Declaration} :
      declaration ∈ (node.declarations.filterMap unit.get?).filter
          Entity.asksForInstantiation ↔
        declaration ∈ unit.declarations ∧ declaration.id ∈ node.declarations ∧
          Entity.asksForInstantiation declaration = true := by
    rw [List.mem_filter, List.mem_filterMap]
    constructor
    · rintro ⟨⟨id, isMerged, found⟩, asks⟩
      obtain ⟨listed, rfl⟩ := TranslationUnit.get?_eq_some_iff.mp found
      exact ⟨listed, isMerged, asks⟩
    · rintro ⟨listed, isMerged, asks⟩
      exact ⟨⟨_, isMerged, TranslationUnit.get?_eq_some_iff.mpr ⟨listed, rfl⟩⟩, asks⟩
  have distinct : ((node.declarations.filterMap unit.get?).filter
      Entity.asksForInstantiation).Nodup := by
    refine (List.Nodup.filterMap ?_ (Graph.declarations_nodup built member)).filter _
    intro left right declaration isLeft isRight
    obtain ⟨_, rfl⟩ := TranslationUnit.get?_eq_some_iff.mp isLeft
    obtain ⟨_, rfl⟩ := TranslationUnit.get?_eq_some_iff.mp isRight
    rfl
  have askedTwice_iff : AskedTwice unit node ↔ ∃ first second rest,
      (node.declarations.filterMap unit.get?).filter Entity.asksForInstantiation =
        first :: second :: rest := by
    rw [exists_two_iff distinct]
    simp only [mem_merged, AskedTwice]
    constructor
    · rintro ⟨first, isFirst, second, isSecond, different, firstAsks, secondAsks⟩
      exact ⟨first, ⟨isFirst, firstAsks⟩, second, ⟨isSecond, secondAsks⟩, different⟩
    · rintro ⟨first, ⟨isFirst, firstAsks⟩, second, ⟨isSecond, secondAsks⟩, different⟩
      exact ⟨first, isFirst, second, isSecond, different, firstAsks, secondAsks⟩
  rw [askedTwice_iff]
  unfold Instantiation.repeatedFault?
  cases node.marking.exposeAs with
  | some name => simp
  | none =>
      simp only [Option.isSome_none, Bool.false_eq_true, if_false, true_and]
      split
      · rename_i first second rest isSplit
        simp [isSplit]
      · rename_i notSplit
        simp only [not_exists, true_iff]
        exact notSplit

theorem inheritedFaults_eq_nil_iff {node : Node} :
    Instantiation.inheritedFaults graph node = [] ↔
      ∀ template signature reference, ¬ LacksArgument graph node template signature reference := by
  unfold Instantiation.inheritedFaults
  cases isTemplate : node.template.bind graph.node? with
  | none =>
      refine iff_of_true rfl fun template signature reference lacks => ?_
      cases isTemplate.symm.trans lacks.isTemplate
  | some template =>
      cases isSignature : node.kind.signature? with
      | none =>
          refine iff_of_true rfl fun template signature reference lacks => ?_
          cases isSignature.symm.trans lacks.isSignature
      | some signature =>
          dsimp only
          split
          · rename_i directs
            refine iff_of_true rfl fun template signature reference lacks => ?_
            cases directs.symm.trans lacks.silent
          · rename_i silent
            rw [List.map_eq_nil_iff, Examination.unresolved_eq_nil_iff]
            constructor
            · rintro resolves other written reference
                ⟨sameSignature, _, sameTemplate, refers, unresolved⟩
              obtain rfl := Option.some.inj (isSignature.symm.trans sameSignature)
              obtain rfl := Option.some.inj (isTemplate.symm.trans sameTemplate)
              obtain ⟨named, listed, rfl⟩ := Marking.refersTo_iff.mp refers
              have resolved := resolves named listed
              rw [unresolved] at resolved
              cases resolved
            · intro hasAll named listed
              by_contra unresolved
              refine hasAll template signature named.2 ⟨isSignature, ?_, isTemplate,
                Marking.refersTo_iff.mpr ⟨named, listed, rfl⟩, ?_⟩
              · simpa using silent
              · simpa using unresolved

/-- Nothing is wrong with single instantiations if none is asked for twice without a name of
its own, and none lacks an argument. -/
theorem ownFaults_eq_nil_iff (built : Graph.ofUnit unit table = .ok graph) :
    (collect graph visibility).flatMap (ownFaults unit graph) = [] ↔
      ∀ node use, IsExposed graph visibility node use →
        ¬ (node.marking.exposeAs = none ∧ AskedTwice unit node) ∧
          ∀ template signature reference,
            ¬ LacksArgument graph node template signature reference := by
  have wired := Graph.ofUnit_wired built
  have ofRecord {node : Node} {use : TemplateUse} (isExposed : IsExposed graph visibility node use)
      {record : Instantiation} (sameNode : record.node = node.id) :
      ownFaults unit graph record = [] ↔
        ¬ (node.marking.exposeAs = none ∧ AskedTwice unit node) ∧
          ∀ template signature reference,
            ¬ LacksArgument graph node template signature reference := by
    unfold ownFaults
    rw [sameNode, wired.node?_id isExposed.member, ← inheritedFaults_eq_nil_iff,
      ← @repeatedFault?_eq_none_iff unit table graph built node isExposed.member record]
    simp
  rw [List.flatMap_eq_nil_iff]
  constructor
  · intro noFaults node use isExposed
    obtain ⟨record, listed, sameNode, _⟩ := exists_record wired isExposed
    exact (ofRecord isExposed sameNode).mp (noFaults record listed)
  · intro nothing record listed
    obtain ⟨node, use, isExposed, sameNode, _⟩ := exists_isExposed wired listed
    exact (ofRecord isExposed sameNode).mpr (nothing node use isExposed)

/-! ## Two instantiations -/

/-- An instantiation of a class has its name to itself in its context, and one of a function
shares it. -/
theorem nameSpace?_of_isExposed (wired : graph.Wired) {node : Node} {use : TemplateUse}
    (isExposed : IsExposed graph visibility node use) {record : Instantiation}
    (sameNode : record.node = node.id) :
    Instantiation.nameSpace? graph record =
      if node.kind.target = .class then some (node.parent.getD Graph.root, record.name)
      else none := by
  have instantiates := isExposed.instantiates
  unfold Instantiation.nameSpace?
  rw [sameNode, wired.node?_id isExposed.member]
  cases isKind : node.kind with
  | «class» bases template => simp [isKind, DeclarationKind.target]
  | function signature template => simp [isKind, DeclarationKind.target]
  | _ =>
      rw [isKind] at instantiates
      cases instantiates

theorem namedApart_iff (wired : graph.Wired) {left right : Node} {leftUse rightUse : TemplateUse}
    (isLeft : IsExposed graph visibility left leftUse)
    (isRight : IsExposed graph visibility right rightUse) {first second : Instantiation}
    (isFirst : first.node = left.id) (isSecond : second.node = right.id) :
    Instantiation.NamedApart graph first second ↔
      (left.kind.target = .class → right.kind.target = .class → SameContext left right →
        first.name ≠ second.name) := by
  unfold Instantiation.NamedApart SameContext
  rw [nameSpace?_of_isExposed wired isLeft isFirst, nameSpace?_of_isExposed wired isRight isSecond]
  by_cases leftClass : left.kind.target = .class <;>
    by_cases rightClass : right.kind.target = .class <;>
    simp [leftClass, rightClass, eq_comm]

/-- The names are apart if no two classes of one context are to have one. -/
theorem collisions_eq_nil_iff (wired : graph.Wired) (emittedOnce : visibility.emitted.Nodup) :
    Instantiation.collisionsFrom graph [] (collect graph visibility) = [] ↔
      ∀ left right leftUse rightUse, left ≠ right → IsExposed graph visibility left leftUse →
        IsExposed graph visibility right rightUse → left.kind.target = .class →
        right.kind.target = .class → SameContext left right →
        nameOf graph visibility left leftUse ≠ nameOf graph visibility right rightUse := by
  have distinct := collect_nodup_of_emitted_nodup wired emittedOnce
  rw [Instantiation.collisionsFrom_eq_nil_iff, and_iff_left (by simp)]
  constructor
  · intro apart left right leftUse rightUse different isLeft isRight
    obtain ⟨first, firstListed, isFirst, firstName⟩ := exists_record wired isLeft
    obtain ⟨second, secondListed, isSecond, secondName⟩ := exists_record wired isRight
    have symmetric : Std.Symm (Instantiation.NamedApart graph) := ⟨fun _ _ apart => apart.symm⟩
    rw [← firstName, ← secondName]
    refine (namedApart_iff wired isLeft isRight isFirst isSecond).mp
      (apart.forall firstListed secondListed ?_)
    rintro rfl
    exact different (wired.eq_of_id_eq isLeft.member isRight.member
      (isFirst.symm.trans isSecond))
  · intro apart
    refine (List.Nodup.of_map _ distinct).pairwise_of_forall_ne ?_
    intro first firstListed second secondListed different
    obtain ⟨left, leftUse, isLeft, isFirst, firstName⟩ := exists_isExposed wired firstListed
    obtain ⟨right, rightUse, isRight, isSecond, secondName⟩ := exists_isExposed wired secondListed
    rw [namedApart_iff wired isLeft isRight isFirst isSecond, firstName, secondName]
    refine apart left right leftUse rightUse ?_ isLeft isRight
    rintro rfl
    exact different (List.inj_on_of_nodup_map distinct firstListed secondListed
      (isFirst.trans isSecond.symm))

/-- The instantiations cannot be named exactly if there is a conflict. -/
theorem exists_error_iff (built : Graph.ofUnit unit table = .ok graph)
    (emittedOnce : visibility.emitted.Nodup) :
    (∃ faults, resolve unit graph visibility = .error faults) ↔
      Conflict unit graph visibility SameContext := by
  have isNamed : (∃ instantiations, resolve unit graph visibility = .ok instantiations) ↔
      resolve unit graph visibility = .ok ⟨collect graph visibility⟩ := by
    constructor
    · rintro ⟨instantiations, resolved⟩
      rw [resolved, ← records_of_resolve resolved]
    · exact fun resolved => ⟨_, resolved⟩
  rw [exists_error_iff_not_ok, isNamed, resolve_eq_ok_iff, ownFaults_eq_nil_iff built,
    collisions_eq_nil_iff (Graph.ofUnit_wired built) emittedOnce]
  constructor
  · intro isWrong
    by_contra noConflict
    refine isWrong ⟨fun node use isExposed => ⟨?_, ?_⟩, ?_⟩
    · rintro ⟨unnamed, asked⟩
      exact noConflict (.askedTwice node use isExposed unnamed asked)
    · intro template signature reference lacks
      exact noConflict (.lacksArgument node template use signature reference isExposed
        (isExposed.isFunction lacks.isSignature) lacks)
    · intro left right leftUse rightUse different isLeft isRight leftClass rightClass together same
      exact noConflict (.sharedName left right leftUse rightUse different isLeft isRight leftClass
        rightClass together same)
  · rintro conflict ⟨nothingAlone, apart⟩
    cases conflict with
    | sharedName left right leftUse rightUse different isLeft isRight leftClass rightClass together
        sameName =>
        exact apart left right leftUse rightUse different isLeft isRight leftClass rightClass
          together sameName
    | askedTwice node use isExposed unnamed asked =>
        exact (nothingAlone node use isExposed).1 ⟨unnamed, asked⟩
    | lacksArgument node template use signature reference isExposed _ lacks =>
        exact (nothingAlone node use isExposed).2 template signature reference lacks

/-! ## Names -/

theorem exposedName_of_isExposed (wired : graph.Wired) (wellFormed : visibility.WellFormed)
    {node : Node} {use : TemplateUse} (isExposed : IsExposed graph visibility node use) :
    (rename ⟨collect graph visibility⟩ visibility).exposedName node.id =
      nameOf graph visibility node use := by
  have distinct := collect_nodup_of_emitted_nodup wired wellFormed.distinct
  have isDecided := wellFormed.decides node.id (List.contains_iff_mem.mp isExposed.emitted)
  obtain ⟨record, listed, isNode, isName⟩ := exists_record wired isExposed
  unfold rename
  rw [Visibility.exposedName_renameAll distinct]
  cases found : (collect graph visibility).find? fun record => record.node == node.id with
  | none => simpa [isNode] using List.find?_eq_none.mp found record listed
  | some other =>
      have sameNode := List.find?_some found
      rw [beq_iff_eq, ← isNode] at sameNode
      have isSame := List.inj_on_of_nodup_map distinct (List.mem_of_find?_eq_some found) listed
        sameNode
      simp only [isDecided, if_true, isSame, isName]

theorem exposedName_of_not_isExposed (wired : graph.Wired)
    (emittedOnce : visibility.emitted.Nodup) {id : Nat}
    (isOther : ∀ node use, IsExposed graph visibility node use → node.id ≠ id) :
    (rename ⟨collect graph visibility⟩ visibility).exposedName id = visibility.exposedName id := by
  unfold rename
  rw [Visibility.exposedName_renameAll (collect_nodup_of_emitted_nodup wired emittedOnce)]
  cases found : (collect graph visibility).find? fun record => record.node == id with
  | none => rfl
  | some record =>
      obtain ⟨node, use, isExposed, isNode, _⟩ :=
        exists_isExposed wired (List.mem_of_find?_eq_some found)
      have sameId := List.find?_some found
      rw [beq_iff_eq, isNode] at sameId
      exact absurd sameId (isOther node use isExposed)

/-- The decisions that are worked with from then on: with the names of the instantiations, or
as they were, if those cannot be named. -/
def decisionsAfter (unit : TranslationUnit) (graph : Graph) (visibility : Visibility) :
    Visibility :=
  Plan.named visibility (resolve unit graph visibility)

/-- Instantiations cannot be named exactly if there is a conflict between them. Otherwise each
is called what it is to be called, everything else what it was called before, and no two classes
that are together have one name. If they cannot be named, nothing has another name. -/
structure NamesApart (unit : TranslationUnit) (graph : Graph) (visibility : Visibility)
    (together : Node → Node → Prop) : Prop where
  fails_iff : (∃ faults, resolve unit graph visibility = .error faults) ↔
    Conflict unit graph visibility together
  named : (∃ instantiations, resolve unit graph visibility = .ok instantiations) →
    ∀ node use, IsExposed graph visibility node use →
      (decisionsAfter unit graph visibility).exposedName node.id =
        nameOf graph visibility node use
  others : (∃ instantiations, resolve unit graph visibility = .ok instantiations) →
    ∀ id, (∀ node use, IsExposed graph visibility node use → node.id ≠ id) →
      (decisionsAfter unit graph visibility).exposedName id = visibility.exposedName id
  apart : (∃ instantiations, resolve unit graph visibility = .ok instantiations) →
    ∀ left right leftUse rightUse, left ≠ right → IsExposed graph visibility left leftUse →
      IsExposed graph visibility right rightUse → left.kind.target = .class →
      right.kind.target = .class → together left right →
      (decisionsAfter unit graph visibility).exposedName left.id ≠
        (decisionsAfter unit graph visibility).exposedName right.id
  kept : (∃ faults, resolve unit graph visibility = .error faults) →
    ∀ id, (decisionsAfter unit graph visibility).exposedName id = visibility.exposedName id

theorem resolve_namesApart (built : Graph.ofUnit unit table = .ok graph)
    (wellFormed : visibility.WellFormed) : NamesApart unit graph visibility SameContext := by
  have wired := Graph.ofUnit_wired built
  have fails_iff := @exists_error_iff unit table graph visibility built wellFormed.distinct
  have after {instantiations : Instantiations}
      (resolved : resolve unit graph visibility = .ok instantiations) :
      decisionsAfter unit graph visibility = rename ⟨collect graph visibility⟩ visibility := by
    unfold decisionsAfter rename
    rw [resolved, ← records_of_resolve resolved]
    rfl
  refine ⟨fails_iff, ?_, ?_, ?_, ?_⟩
  · rintro ⟨instantiations, resolved⟩ node use isExposed
    rw [after resolved]
    exact exposedName_of_isExposed wired wellFormed isExposed
  · rintro ⟨instantiations, resolved⟩ id isOther
    rw [after resolved]
    exact exposedName_of_not_isExposed wired wellFormed.distinct isOther
  · rintro ⟨instantiations, resolved⟩ left right leftUse rightUse different isLeft isRight
      leftClass rightClass together
    rw [after resolved, exposedName_of_isExposed wired wellFormed isLeft,
      exposedName_of_isExposed wired wellFormed isRight]
    intro sameName
    obtain ⟨faults, failed⟩ := fails_iff.mpr (.sharedName left right leftUse rightUse different
      isLeft isRight leftClass rightClass together sameName)
    cases resolved.symm.trans failed
  · rintro ⟨faults, failed⟩ id
    unfold decisionsAfter
    rw [failed]
    rfl

/-- Two instantiations of a template, one of which is taken for the root, having its name. -/
def rootAndClass : TranslationUnit where
  root := { id := 0, kind := .translationUnit, qualifiedName := "A", order := 0 }
  others :=
    [ { id := 1
        kind := .class [{ qualifiedName := "B" }]
          (some { template := "T", arguments := [.type "int"] })
        name := "A", qualifiedName := "A", parent := some 0, order := 1
        payloads := [.text "visible"] },
      { id := 2, kind := .class [] (some { template := "T", arguments := [.type "int"] })
        name := "C", qualifiedName := "C", parent := some 0, order := 2
        payloads := [.text "visible"] } ]
  valid := by decide

theorem exists_rootAndClass :
    ∃ table graph, MarkingTable.ofUnit rootAndClass = .ok table ∧
      Graph.ofUnit rootAndClass table = .ok graph ∧
      (∃ faults, resolve rootAndClass graph (Visibility.ofGraph graph {}) = .error faults) ∧
      graph.nodes.map Node.parent = [none, some 0] ∧
      ∀ node ∈ graph.nodes, node.kind.target ≠ .function := by
  have marked : MarkingTable.ofUnit rootAndClass =
      .ok ⟨[(1, { visible := some true }), (2, { visible := some true })]⟩ := by
    cbv
  have groups : Group.ofDeclarations rootAndClass.declarations =
      [⟨rootAndClass.root, [rootAndClass.others[0]]⟩, ⟨rootAndClass.others[1], []⟩] := rfl
  have rootOrder : Group.inSourceOrder ⟨rootAndClass.root, [rootAndClass.others[0]]⟩ =
      [rootAndClass.root, rootAndClass.others[0]] := List.mergeSort_of_pairwise (by decide)
  have classOrder : Group.inSourceOrder ⟨rootAndClass.others[1], []⟩ =
      [rootAndClass.others[1]] := List.mergeSort_singleton _
  have shown : (Graph.ofUnit rootAndClass
        ⟨[(1, { visible := some true }), (2, { visible := some true })]⟩).toOption.any
      (fun graph =>
        (resolve rootAndClass graph (Visibility.ofGraph graph {})).toOption.isNone &&
          graph.nodes.map Node.parent == [none, some 0] &&
          graph.nodes.all fun node => node.kind.target != .function) = true := by
    -- Sorting does not reduce, so the rest is run on entities that are in order.
    simp only [Graph.ofUnit, groups, Entity.ofGroups, List.mapIdx_cons, List.mapIdx_nil,
      Entity.ofGroup, rootOrder, classOrder]
    decide +kernel
  obtain ⟨graph, built, holds⟩ := exists_ok_of_any shown
  simp only [Bool.and_eq_true, beq_iff_eq, List.all_eq_true, bne_iff_ne] at holds
  obtain ⟨⟨fails, parents⟩, noFunction⟩ := holds
  refine ⟨_, graph, marked, built, ?_, parents, noFunction⟩
  cases resolved : resolve rootAndClass graph (Visibility.ofGraph graph {}) with
  | error faults => exact ⟨faults, rfl⟩
  | ok instantiations =>
      rw [resolved] at fails
      cases fails

/-- The two clash in the root. -/
theorem rootAndClass_namesApart :
    ∃ table graph, Graph.ofUnit rootAndClass table = .ok graph ∧
      (Visibility.ofGraph graph {}).WellFormed ∧
      NamesApart rootAndClass graph (Visibility.ofGraph graph {}) SameContext := by
  obtain ⟨table, graph, _, built, _⟩ := exists_rootAndClass
  have wellFormed := Visibility.ofGraph_wellFormed (Graph.ofUnit_wired built) {}
  exact ⟨table, graph, built, wellFormed, resolve_namesApart built wellFormed⟩

/-- The same is not around the root and the class, and yet they cannot have one name. -/
theorem rootAndClass_clash :
    ∃ table graph, MarkingTable.ofUnit rootAndClass = .ok table ∧
      Graph.ofUnit rootAndClass table = .ok graph ∧
      ¬ NamesApart rootAndClass graph (Visibility.ofGraph graph {}) fun left right =>
        left.parent = right.parent := by
  obtain ⟨table, graph, marked, built, fails, parents, noFunction⟩ := exists_rootAndClass
  refine ⟨table, graph, marked, built, fun namesApart => ?_⟩
  cases namesApart.fails_iff.mp fails with
  | sharedName left right _ _ different isLeft isRight _ _ sameParent =>
      have distinct : (graph.nodes.map Node.parent).Nodup := by
        rw [parents]
        decide
      exact different
        (List.inj_on_of_nodup_map distinct isLeft.member isRight.member sameParent)
  | askedTwice node _ _ _ asked =>
      obtain ⟨first, listed, _, _, _, ⟨_, asks⟩, _⟩ := asked
      have noneAsks : ∀ declaration ∈ rootAndClass.declarations,
          Entity.asksForInstantiation declaration = false := by
        decide
      rw [noneAsks first listed] at asks
      cases asks
  | lacksArgument node _ _ _ _ isExposed isFunction =>
      exact noFunction node isExposed.member isFunction

end Instantiations

end Registrar
