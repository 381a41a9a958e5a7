import Mathlib
import Registrar.Proofs.Merging.Conflicts
import Registrar.Proofs.Instantiation.Names

/-!
Contract: the references to arguments in annotations.

Owns: that an entity has the references of all its declarations, and that each
reference names an argument of the declaration that it was written at, or of the
instantiation that inherits it.

Does not own: the arguments of the entity, which are those of one declaration.
-/

set_option autoImplicit false

namespace Registrar

theorem mem_appendNew {α : Type} [DecidableEq α] {item : α} {items others : List α} :
    item ∈ appendNew items others ↔ item ∈ items ∨ item ∈ others := by
  induction others generalizing items with
  | nil => simp [appendNew]
  | cons first rest inductionHypothesis =>
      rw [appendNew]
      by_cases isKnown : first ∈ items
      · rw [if_pos isKnown, inductionHypothesis, List.mem_cons]
        constructor
        · rintro (listed | later)
          · exact .inl listed
          · exact .inr (.inr later)
        · rintro (listed | rfl | later)
          · exact .inl listed
          · exact .inl isKnown
          · exact .inr later
      · rw [if_neg isKnown, inductionHypothesis, List.mem_append, List.mem_singleton,
          List.mem_cons, or_assoc]

/-! ## Numbers of arguments -/

namespace ArgumentRef

/-- What a reference names is an argument. -/
theorem resolve?_lt {reference : ArgumentRef} {names : List String} {hasThis : Bool}
    {number : Nat} (resolved : reference.resolve? names hasThis = some number) :
    number < firstParameter hasThis + names.length := by
  have someFirst : 0 < firstParameter hasThis := by
    unfold firstParameter
    split <;> omega
  unfold resolve? at resolved
  split at resolved
  · split at resolved
    · rename_i inside
      rw [← Option.some.inj resolved]
      exact inside
    · cases resolved
  · rw [← Option.some.inj resolved]
    omega
  · split at resolved
    · rename_i isMember
      rw [← Option.some.inj resolved, firstParameter, if_pos isMember]
      omega
    · cases resolved
  · obtain ⟨index, found, rfl⟩ := Option.map_eq_some_iff.mp resolved
    have inside := (List.findIdx?_eq_some_iff_findIdx_eq.mp found).1
    omega

end ArgumentRef

/-! ## Merged annotations -/

namespace Marking

open Examination

theorem mem_parameterReferences {marking : Marking} {named : DirectiveKind × ArgumentRef} :
    named ∈ parameterReferences marking ↔
      (∃ references, marking.noConversion = some (.only references) ∧
        ∃ reference ∈ references, (.noConversion, reference) = named) ∨
      ∃ reference ∈ marking.required, (.required, reference) = named := by
  unfold parameterReferences
  rw [List.mem_append, List.mem_map]
  cases marking.noConversion with
  | none => simp
  | some selection =>
      cases selection with
      | all => simp
      | only references => simp

/-- Two annotations that agree refer together to what either refers to. -/
theorem mem_argumentReferences_merged {mine theirs merged : Marking}
    (agree : mine.mergeRedeclaration theirs = (merged, none))
    {named : DirectiveKind × ArgumentRef} :
    named ∈ argumentReferences merged ↔
      named ∈ argumentReferences mine ∨ named ∈ argumentReferences theirs := by
  obtain ⟨apart, rfl⟩ := mergeRedeclaration_eq_iff.mp agree
  have sameConversion : ¬ Differ mine.noConversion theirs.noConversion := by
    unfold Contradicts at apart
    simp only [not_or] at apart
    simp only [apart, not_false_eq_true]
  have pairs : named ∈ pairReferences (mergeCollections (mine.fill theirs) theirs) ↔
      named ∈ pairReferences mine ∨ named ∈ pairReferences theirs := by
    simp only [pairReferences, mergeCollections, fill, List.mem_flatMap, mem_appendNew,
      or_and_right, exists_or]
  have parameters : named ∈ parameterReferences (mergeCollections (mine.fill theirs) theirs) ↔
      named ∈ parameterReferences mine ∨ named ∈ parameterReferences theirs := by
    rw [mem_parameterReferences, mem_parameterReferences, mem_parameterReferences,
      or_or_or_comm]
    simp only [mergeCollections, fill, or_eq_some_iff_of_agree sameConversion, mem_appendNew,
      or_and_right, exists_or]
  unfold argumentReferences
  rw [List.mem_append, List.mem_append, List.mem_append, pairs, parameters, or_or_or_comm]

end Marking

/-! ## Entities -/

namespace Entity

open Examination

variable {table : MarkingTable}

/-- Annotations of redeclarations that agree refer together to what any of them
refers to. -/
theorem mem_argumentReferences_mergeMarkings {name : String} {marking : Marking}
    {declarations : List Declaration}
    (agree : (mergeMarkings table name marking declarations).2 = [])
    {named : DirectiveKind × ArgumentRef} :
    named ∈ argumentReferences (mergeMarkings table name marking declarations).1 ↔
      named ∈ argumentReferences marking ∨
        ∃ declaration ∈ declarations, named ∈ argumentReferences (table.get declaration.id) := by
  induction declarations generalizing marking with
  | nil => simp [mergeMarkings]
  | cons declaration rest inductionHypothesis =>
      cases isMerged : marking.mergeRedeclaration (table.get declaration.id) with
      | mk merged conflict =>
          cases conflict with
          | some kind => simp [mergeMarkings, isMerged] at agree
          | none =>
              simp only [mergeMarkings, isMerged] at agree ⊢
              rw [inductionHypothesis agree, Marking.mem_argumentReferences_merged isMerged,
                or_assoc]
              simp

/-- An entity refers to what any of its declarations refers to. -/
theorem mem_argumentReferences_ofGroup {groups : List Group} {index : Nat} {group : Group}
    (agree : (ofGroup table groups index group).2 = []) {named : DirectiveKind × ArgumentRef} :
    named ∈ argumentReferences (ofGroup table groups index group).1.marking ↔
      ∃ declaration ∈ group.members,
        named ∈ argumentReferences (table.get declaration.id) := by
  have isMerged : named ∈ argumentReferences (ofGroup table groups index group).1.marking ↔
      named ∈ argumentReferences (table.get group.primary.id) ∨
        ∃ declaration ∈ group.inSourceOrder.tail,
          named ∈ argumentReferences (table.get declaration.id) :=
    mem_argumentReferences_mergeMarkings agree
  rw [isMerged]
  simp only [← Group.mem_inSourceOrder]
  rw [group.inSourceOrder_eq_cons]
  simp

/-- Where all annotations agree, an entity is that of a group whose annotations agree. -/
theorem exists_agreeing_group {groups : List Group} {entity : Entity}
    (agree : (ofGroups table groups).2 = []) (member : entity ∈ (ofGroups table groups).1) :
    ∃ index group, groups[index]? = some group ∧ entity = (ofGroup table groups index group).1 ∧
      (ofGroup table groups index group).2 = [] := by
  obtain ⟨index, group, isGroup, rfl⟩ := exists_group_of_mem member
  refine ⟨index, group, isGroup, rfl, ?_⟩
  have allAgree : ((groups.mapIdx (ofGroup table groups)).flatMap Prod.snd) = [] := agree
  rw [List.flatMap_eq_nil_iff] at allAgree
  apply allAgree
  rw [List.mem_mapIdx]
  obtain ⟨inside, isIndex⟩ := List.getElem?_eq_some_iff.mp isGroup
  exact ⟨index, inside, by rw [isIndex]⟩

theorem mem_argumentReferences_of_mem {groups : List Group} {entity : Entity}
    (agree : (ofGroups table groups).2 = []) (member : entity ∈ (ofGroups table groups).1)
    {named : DirectiveKind × ArgumentRef} :
    named ∈ argumentReferences entity.marking ↔
      ∃ id ∈ entity.declarations, named ∈ argumentReferences (table.get id) := by
  obtain ⟨index, group, _, rfl, ownAgree⟩ := exists_agreeing_group agree member
  rw [mem_argumentReferences_ofGroup ownAgree]
  have isDeclared : (ofGroup table groups index group).1.declarations =
      group.inSourceOrder.map Declaration.id := rfl
  rw [isDeclared]
  simp [Group.mem_inSourceOrder]

theorem exists_declaration {declarations : List Declaration} {entity : Entity}
    (member : entity ∈ (ofGroups table (Group.ofDeclarations declarations)).1) {id : Nat}
    (isDeclared : id ∈ entity.declarations) :
    ∃ declaration ∈ declarations, declaration.id = id := by
  obtain ⟨index, group, isGroup, rfl⟩ := exists_group_of_mem member
  obtain ⟨declaration, ordered, isId⟩ := List.mem_map.mp isDeclared
  exact ⟨declaration, Group.mem_of_mem_ofDeclarations (List.mem_of_getElem? isGroup)
    (Group.mem_inSourceOrder.mp ordered), isId⟩

end Entity

/-! ## References that name arguments -/

/-- The references to arguments that are written at a declaration. -/
def Declaration.references (declaration : Declaration) : List (DirectiveKind × ArgumentRef) :=
  match Marking.ofPayloads declaration.payloads declaration.kind.target with
  | .ok marking => Examination.argumentReferences marking
  | .error _ => []

namespace Examination

/-- Each of the references names an argument. -/
def Resolves (references : List (DirectiveKind × ArgumentRef)) (signature : Signature)
    (hasThis : Bool) : Prop :=
  ∀ named ∈ references, (named.2.resolve? signature.parameterNames hasThis).isSome = true

instance (references : List (DirectiveKind × ArgumentRef)) (signature : Signature)
    (hasThis : Bool) : Decidable (Resolves references signature hasThis) :=
  inferInstanceAs (Decidable (∀ named ∈ references, _))

theorem unresolved_eq_nil_iff {references : List (DirectiveKind × ArgumentRef)}
    {signature : Signature} {hasThis : Bool} :
    unresolved references signature hasThis = [] ↔ Resolves references signature hasThis := by
  unfold unresolved Resolves
  rw [List.filterMap_eq_nil_iff]
  refine forall₂_congr fun named member => ?_
  cases resolved : named.2.resolve? signature.parameterNames hasThis <;> simp [resolved]

theorem directsCalls_of_mem {marking : Marking} {named : DirectiveKind × ArgumentRef}
    (listed : named ∈ argumentReferences marking) :
    Instantiation.directsCalls marking = true := by
  unfold Instantiation.directsCalls
  rcases List.mem_append.mp listed with isPair | isParameter
  · obtain ⟨pair, isKept, _⟩ := List.mem_flatMap.mp isPair
    have isSome : marking.keepAlive.isEmpty = false := by
      simp [List.ne_nil_of_mem isKept]
    simp [isSome]
  · rcases Marking.mem_parameterReferences.mp isParameter with
      ⟨references, selected, _⟩ | ⟨reference, isRequired, _⟩
    · simp [selected]
    · have isSome : marking.required.isEmpty = false := by
        simp [List.ne_nil_of_mem isRequired]
      simp [isSome]

end Examination

namespace MarkingTable

open Examination

variable {unit : TranslationUnit} {table : MarkingTable}

theorem fst_of_entryOf? {declaration : Declaration} {entry : Nat × Marking}
    (isEntry : entryOf? unit declaration = some entry) : entry.1 = declaration.id := by
  unfold entryOf? at isEntry
  split at isEntry
  · split at isEntry
    · cases isEntry
    · rw [← Option.some.inj isEntry]
  · cases isEntry

/-- The entry of a declaration is found under its number. -/
theorem find?_entries {declarations : List Declaration} {declaration : Declaration}
    (distinct : (declarations.map Declaration.id).Nodup) (member : declaration ∈ declarations) :
    ((declarations.filterMap (entryOf? unit)).find? fun entry => entry.1 == declaration.id) =
      entryOf? unit declaration := by
  induction declarations with
  | nil => cases member
  | cons first rest inductionHypothesis =>
      rw [List.map_cons, List.nodup_cons] at distinct
      by_cases isFirst : declaration = first
      · subst first
        rw [List.filterMap_cons]
        cases isEntry : entryOf? unit declaration with
        | some entry => simp [fst_of_entryOf? isEntry]
        | none =>
            rw [List.find?_eq_none]
            intro entry listed sameId
            obtain ⟨other, isOther, isEntry⟩ := List.mem_filterMap.mp listed
            rw [fst_of_entryOf? isEntry, beq_iff_eq] at sameId
            apply distinct.1
            rw [← sameId]
            exact List.mem_map_of_mem isOther
      · have later := (List.mem_cons.mp member).resolve_left isFirst
        rw [List.filterMap_cons]
        cases isEntry : entryOf? unit first with
        | none => exact inductionHypothesis distinct.2 later
        | some entry =>
            have other : (entry.1 == declaration.id) = false := by
              rw [beq_eq_false_iff_ne, fst_of_entryOf? isEntry]
              intro sameId
              apply distinct.1
              rw [sameId]
              exact List.mem_map_of_mem later
            simp only [List.find?_cons, other]
            exact inductionHypothesis distinct.2 later

/-- The table has the annotation of every declaration, in which nothing is wrong. -/
theorem get_of_mem (marked : ofUnit unit = .ok table) {declaration : Declaration}
    (member : declaration ∈ unit.declarations) :
    Marking.ofPayloads declaration.payloads declaration.kind.target =
        .ok (table.get declaration.id) ∧
      causes unit declaration (table.get declaration.id) = [] := by
  unfold ofUnit at marked
  dsimp only at marked
  split at marked
  · rename_i noFaults
    rw [List.isEmpty_iff, List.flatMap_eq_nil_iff] at noFaults
    have isEntry := @find?_entries unit unit.declarations declaration unit.ids_nodup member
    have ownFaults := noFaults declaration member
    rw [← Except.ok.inj marked]
    unfold get
    dsimp only
    rw [isEntry]
    unfold entryOf?
    unfold ofDeclaration at ownFaults ⊢
    dsimp only at ownFaults ⊢
    split at ownFaults
    · cases ownFaults
    · rename_i marking isMarking
      rw [List.map_eq_nil_iff] at ownFaults
      rw [isMarking]
      dsimp only
      by_cases isEmpty : marking.isEmpty = true
      · have same : marking = .empty := eq_of_beq isEmpty
        subst marking
        rw [if_pos isEmpty]
        exact ⟨rfl, ownFaults⟩
      · rw [if_neg isEmpty]
        exact ⟨rfl, ownFaults⟩
  · cases marked

theorem references_eq (marked : ofUnit unit = .ok table) {declaration : Declaration}
    (member : declaration ∈ unit.declarations) :
    declaration.references = argumentReferences (table.get declaration.id) := by
  unfold Declaration.references
  rw [(get_of_mem marked member).1]

/-- What a declaration refers to are its arguments. -/
theorem resolves_of_mem (marked : ofUnit unit = .ok table) {declaration : Declaration}
    (member : declaration ∈ unit.declarations) {signature : Signature}
    (isSignature : declaration.kind.signature? = some signature) :
    Resolves declaration.references signature declaration.kind.hasThis := by
  rw [references_eq marked member]
  have noCauses := (get_of_mem marked member).2
  unfold causes at noCauses
  simp only [isSignature] at noCauses
  exact unresolved_eq_nil_iff.mp (List.append_eq_nil_iff.mp noCauses).1

end MarkingTable

namespace Instantiations

open Examination

variable {unit : TranslationUnit} {graph : Graph} {visibility : Visibility}
  {instantiations : Instantiations}

/-- Nothing is wrong with what an emitted node inherits from its template. -/
theorem inheritedFaults_eq_nil (wired : graph.Wired)
    (resolved : resolve unit graph visibility = .ok instantiations) {node : Node}
    (member : node ∈ graph.nodes) (emitted : visibility.isEmitted node.id = true) :
    Instantiation.inheritedFaults graph node = [] := by
  cases isUse : node.kind.template? with
  | none =>
      unfold Instantiation.inheritedFaults
      rw [wired.template_eq_none member isUse]
      rfl
  | some use =>
      obtain ⟨record, isRecord, isNode⟩ :=
        @Instantiation.exists_ofNode? graph visibility node (by rw [isUse]; rfl)
      have collected : record ∈ collect graph visibility := List.mem_filterMap.mpr
        ⟨node, (Visibility.mem_emittedNodes wired).mpr ⟨member, emitted⟩, isRecord⟩
      obtain ⟨records⟩ := instantiations
      obtain rfl : records = _ := records_of_resolve resolved
      have noOwn := List.flatMap_eq_nil_iff.mp (resolve_eq_ok_iff.mp resolved).1 record collected
      unfold ownFaults at noOwn
      rw [isNode, wired.node?_id member] at noOwn
      exact (List.append_eq_nil_iff.mp noOwn).2

end Instantiations

/-! ## References of entities -/

/-- What a reference to an argument can name: the parameters, and the object that
the call is made on, if there is one. -/
def DeclarationKind.arguments? (kind : DeclarationKind) : Option (List String × Bool) :=
  kind.signature?.map fun signature => (signature.parameterNames, kind.hasThis)

namespace Plan.Steps

open Examination

variable {configuration : Configuration} {unit : TranslationUnit} {plan : Plan}
  {table : MarkingTable} (steps : Steps configuration unit plan table)

include steps

/-- A node refers to what any of its declarations refers to. -/
theorem mem_argumentReferences {node : Node} (member : node ∈ plan.groundwork.graph.nodes)
    {named : DirectiveKind × ArgumentRef} :
    named ∈ argumentReferences node.marking ↔
      ∃ declaration ∈ unit.declarations, declaration.id ∈ node.declarations ∧
        named ∈ declaration.references := by
  obtain ⟨entity, isEntity, rfl⟩ := Graph.exists_entity_of_mem steps.built member
  have agree := (Graph.nodes_of_ofUnit steps.built).2.2
  show named ∈ argumentReferences entity.marking ↔ ∃ declaration ∈ unit.declarations,
    declaration.id ∈ entity.declarations ∧ _
  rw [Entity.mem_argumentReferences_of_mem agree isEntity]
  constructor
  · rintro ⟨id, isDeclared, refers⟩
    obtain ⟨declaration, listed, rfl⟩ := Entity.exists_declaration isEntity isDeclared
    rw [← MarkingTable.references_eq steps.marked listed] at refers
    exact ⟨declaration, listed, isDeclared, refers⟩
  · rintro ⟨declaration, listed, isDeclared, refers⟩
    rw [MarkingTable.references_eq steps.marked listed] at refers
    exact ⟨declaration.id, isDeclared, refers⟩

/-- All references that direct the calls of a node name its arguments, unless one was
written at a redeclaration with other names, and names none of those of the node. -/
theorem resolves_iff {node : Node} (member : node ∈ plan.groundwork.graph.nodes)
    (isEmitted : node.template = none ∨
      plan.groundwork.visibility.isEmitted node.id = true)
    {signature : Signature} (isSignature : node.kind.signature? = some signature) :
    Resolves (argumentReferences (Instantiation.callMarking plan.groundwork.graph node))
        signature node.kind.hasThis ↔
      ∀ declaration ∈ unit.declarations, declaration.id ∈ node.declarations →
        declaration.kind.arguments? ≠ node.kind.arguments? →
        Resolves declaration.references signature node.kind.hasThis := by
  have fromOwn (differ : ∀ declaration ∈ unit.declarations, declaration.id ∈ node.declarations →
        declaration.kind.arguments? ≠ node.kind.arguments? →
        Resolves declaration.references signature node.kind.hasThis) :
      Resolves (argumentReferences node.marking) signature node.kind.hasThis := by
    intro named listed
    obtain ⟨declaration, isUnit, isDeclared, refers⟩ :=
      (steps.mem_argumentReferences member).mp listed
    by_cases same : declaration.kind.arguments? = node.kind.arguments?
    · unfold DeclarationKind.arguments? at same
      rw [isSignature, Option.map_some, Option.map_eq_some_iff] at same
      obtain ⟨written, isWritten, sameArguments⟩ := same
      have resolved := MarkingTable.resolves_of_mem steps.marked isUnit isWritten named refers
      rw [Prod.mk.injEq] at sameArguments
      rw [sameArguments.1, sameArguments.2] at resolved
      exact resolved
    · exact differ declaration isUnit isDeclared same named refers
  constructor
  · intro resolves declaration isUnit isDeclared _ named refers
    have listed : named ∈ argumentReferences node.marking :=
      (steps.mem_argumentReferences member).mpr ⟨declaration, isUnit, isDeclared, refers⟩
    have isOwn : Instantiation.callMarking plan.groundwork.graph node = node.marking := by
      unfold Instantiation.callMarking
      split
      · rw [if_pos (directsCalls_of_mem listed)]
      · rfl
    apply resolves
    rw [isOwn]
    exact listed
  · intro differ
    unfold Instantiation.callMarking
    split
    · rename_i template isTemplate
      split
      · exact fromOwn differ
      · rename_i inherits
        have emitted : (Visibility.ofGraph plan.groundwork.graph configuration).isEmitted
            node.id = true := by
          rcases isEmitted with noTemplate | emitted
          · rw [noTemplate] at isTemplate
            cases isTemplate
          · rwa [steps.isEmitted_eq] at emitted
        have noFaults := Instantiations.inheritedFaults_eq_nil steps.laid.wired
          steps.instantiated member emitted
        unfold Instantiation.inheritedFaults at noFaults
        rw [isTemplate, isSignature] at noFaults
        simp only [if_neg inherits, List.map_eq_nil_iff] at noFaults
        exact unresolved_eq_nil_iff.mp noFaults
    · exact fromOwn differ

end Plan.Steps

end Registrar
