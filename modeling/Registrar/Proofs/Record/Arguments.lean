import Mathlib
import Registrar.Proofs.Record.Shape
import Registrar.Proofs.References

/-!
Contract: directives for arguments in records.

Owns: when the records of callables hold everything that annotations say of their
arguments, and that nothing is lost but where a redeclaration names its parameters
differently.

Does not own: which references name an argument of a declaration.
-/

set_option autoImplicit false

namespace Registrar

namespace Record

open Examination

/-! ## Callables -/

/-- The reference names an argument. If this is a parameter, its record is as
asked for. -/
def Marks (signature : Signature) (hasThis : Bool) (parameters : List ParameterRecord)
    (asked : ParameterRecord → Prop) (reference : ArgumentRef) : Prop :=
  ∃ number, reference.resolve? signature.parameterNames hasThis = some number ∧
    (number < ArgumentRef.firstParameter hasThis ∨
      ∃ index parameter, number = ArgumentRef.firstParameter hasThis + index ∧
        parameters[index]? = some parameter ∧ asked parameter)

/-- Both arguments of a pair are those of the record of the pair, which the callable
has. -/
def Pairs (signature : Signature) (hasThis : Bool) (pair : ArgumentRef × ArgumentRef)
    (kept : KeepAliveRecord) : Prop :=
  pair.1.resolve? signature.parameterNames hasThis = some kept.nurse ∧
    pair.2.resolve? signature.parameterNames hasThis = some kept.patient ∧
    kept.nurse < ArgumentRef.firstParameter hasThis + signature.parameters.length ∧
    kept.patient < ArgumentRef.firstParameter hasThis + signature.parameters.length

/-- The records of parameters and pairs hold everything that an annotation says of
the arguments of a callable. -/
structure Kept (signature : Signature) (marking : Marking) (hasThis : Bool)
    (parameters : List ParameterRecord) (pairs : List KeepAliveRecord) : Prop where
  keepAlive : List.Forall₂ (Pairs signature hasThis) marking.keepAlive pairs
  required : ∀ reference ∈ marking.required,
    Marks signature hasThis parameters (fun parameter => parameter.required = true) reference
  unconverted : ∀ references, marking.noConversion = some (.only references) →
    ∀ reference ∈ references,
      Marks signature hasThis parameters (fun parameter => parameter.convert = false) reference

variable {signature : Signature} {marking : Marking} {hasThis : Bool}

theorem length_parameterNames : signature.parameterNames.length = signature.parameters.length := by
  simp [Signature.parameterNames]

theorem refersTo_of_mem {references : List ArgumentRef} {names : List String} {number : Nat}
    {reference : ArgumentRef} (listed : reference ∈ references)
    (resolved : reference.resolve? names hasThis = some number) :
    refersTo references names hasThis number = true := by
  unfold refersTo
  rw [List.any_eq_true]
  exact ⟨reference, listed, by simp [resolved]⟩

/-- A reference that names an argument marks the parameter that it names, as long as
every parameter with its number is as asked for. -/
theorem marks_of_resolves {asked : ParameterRecord → Prop} {reference : ArgumentRef}
    (resolves : (reference.resolve? signature.parameterNames hasThis).isSome = true)
    (areAsked : ∀ index parameter,
      reference.resolve? signature.parameterNames hasThis =
        some (ArgumentRef.firstParameter hasThis + index) →
      (parameters signature marking hasThis)[index]? = some parameter → asked parameter) :
    Marks signature hasThis (parameters signature marking hasThis) asked reference := by
  obtain ⟨number, resolved⟩ := Option.isSome_iff_exists.mp resolves
  refine ⟨number, resolved, ?_⟩
  by_cases isParameter : number < ArgumentRef.firstParameter hasThis
  · exact .inl isParameter
  · obtain ⟨index, rfl⟩ := Nat.exists_eq_add_of_le (Nat.le_of_not_lt isParameter)
    have inside := ArgumentRef.resolve?_lt resolved
    rw [length_parameterNames] at inside
    have isIndex : index < (parameters signature marking hasThis).length := by
      simp [parameters]
      omega
    have found := List.getElem?_eq_getElem isIndex
    exact .inr ⟨index, _, rfl, found, areAsked index _ resolved found⟩

theorem required_of_getElem? {index : Nat} {parameter : ParameterRecord} {reference : ArgumentRef}
    (listed : reference ∈ marking.required)
    (resolved : reference.resolve? signature.parameterNames hasThis =
      some (ArgumentRef.firstParameter hasThis + index))
    (found : (parameters signature marking hasThis)[index]? = some parameter) :
    parameter.required = true := by
  simp only [parameters, List.getElem?_mapIdx, Option.map_eq_some_iff] at found
  obtain ⟨_, _, rfl⟩ := found
  exact refersTo_of_mem listed resolved

theorem convert_of_getElem? {index : Nat} {parameter : ParameterRecord} {reference : ArgumentRef}
    {references : List ArgumentRef} (selected : marking.noConversion = some (.only references))
    (listed : reference ∈ references)
    (resolved : reference.resolve? signature.parameterNames hasThis =
      some (ArgumentRef.firstParameter hasThis + index))
    (found : (parameters signature marking hasThis)[index]? = some parameter) :
    parameter.convert = false := by
  simp only [parameters, List.getElem?_mapIdx, Option.map_eq_some_iff] at found
  obtain ⟨_, _, rfl⟩ := found
  simp [isConverted, selected, refersTo_of_mem listed resolved]

/-- Where both references of each pair name arguments, no pair is lost. -/
theorem keepAlive_pairs (resolves : ∀ pair ∈ marking.keepAlive,
      (pair.1.resolve? signature.parameterNames hasThis).isSome = true ∧
        (pair.2.resolve? signature.parameterNames hasThis).isSome = true) :
    List.Forall₂ (Pairs signature hasThis) marking.keepAlive
      (keepAlive signature marking hasThis) := by
  unfold keepAlive
  generalize marking.keepAlive = pairs at resolves
  induction pairs with
  | nil => exact .nil
  | cons pair rest inductionHypothesis =>
      obtain ⟨isNurse, isPatient⟩ := resolves pair List.mem_cons_self
      obtain ⟨nurse, nurseResolved⟩ := Option.isSome_iff_exists.mp isNurse
      obtain ⟨patient, patientResolved⟩ := Option.isSome_iff_exists.mp isPatient
      have nurseInside := ArgumentRef.resolve?_lt nurseResolved
      have patientInside := ArgumentRef.resolve?_lt patientResolved
      rw [length_parameterNames] at nurseInside patientInside
      have others := inductionHypothesis fun other listed =>
        resolves other (List.mem_cons_of_mem pair listed)
      simp only [List.filterMap_cons, nurseResolved, patientResolved]
      exact .cons ⟨nurseResolved, patientResolved, nurseInside, patientInside⟩ others

/-- Where everything is kept, every reference names an argument. -/
theorem Kept.resolves {records : List ParameterRecord} {pairs : List KeepAliveRecord}
    (kept : Kept signature marking hasThis records pairs) :
    Resolves (argumentReferences marking) signature hasThis := by
  intro named listed
  rcases List.mem_append.mp listed with isPair | isParameter
  · obtain ⟨pair, isKept, isNamed⟩ := List.mem_flatMap.mp isPair
    obtain ⟨_, _, isNurse, isPatient, _, _⟩ := exists_of_forall₂ kept.keepAlive isKept
    simp only [List.mem_cons, List.not_mem_nil, or_false] at isNamed
    rcases isNamed with rfl | rfl
    · exact Option.isSome_of_eq_some isNurse
    · exact Option.isSome_of_eq_some isPatient
  · rcases Marking.mem_parameterReferences.mp isParameter with
      ⟨references, selected, reference, isListed, rfl⟩ | ⟨reference, isListed, rfl⟩
    · obtain ⟨number, resolved, _⟩ := kept.unconverted references selected reference isListed
      exact Option.isSome_of_eq_some resolved
    · obtain ⟨number, resolved, _⟩ := kept.required reference isListed
      exact Option.isSome_of_eq_some resolved

/-- Where every reference names an argument, everything is kept. -/
theorem kept_of_resolves (resolves : Resolves (argumentReferences marking) signature hasThis) :
    Kept signature marking hasThis (parameters signature marking hasThis)
      (keepAlive signature marking hasThis) := by
  refine ⟨keepAlive_pairs ?_, ?_, ?_⟩
  · intro pair listed
    have isListed {named : DirectiveKind × ArgumentRef}
        (isNamed : named ∈ [(DirectiveKind.keepAlive, pair.1), (.keepAlive, pair.2)]) :
        named ∈ argumentReferences marking :=
      List.mem_append_left _ (List.mem_flatMap.mpr ⟨pair, listed, isNamed⟩)
    exact ⟨resolves (.keepAlive, pair.1) (isListed (by simp)),
      resolves (.keepAlive, pair.2) (isListed (by simp))⟩
  · intro reference listed
    have isListed : (DirectiveKind.required, reference) ∈ argumentReferences marking :=
      List.mem_append_right _
        (Marking.mem_parameterReferences.mpr (.inr ⟨reference, listed, rfl⟩))
    exact marks_of_resolves (resolves _ isListed) fun index parameter =>
      required_of_getElem? listed
  · intro references selected reference listed
    have isListed : (DirectiveKind.noConversion, reference) ∈ argumentReferences marking :=
      List.mem_append_right _
        (Marking.mem_parameterReferences.mpr (.inl ⟨references, selected, reference, listed, rfl⟩))
    exact marks_of_resolves (resolves _ isListed) fun index parameter =>
      convert_of_getElem? selected listed

/-! ## Items -/

/-- The callable that is registered. -/
def called? : Record → Option FunctionRecord
  | method called | function called | operator _ _ called => some called
  | _ => none

/-- The record of an item holds everything that annotations say of the arguments of
the callables that it registers. -/
def Keeps (groundwork : Groundwork) (record : Record) : Item → Prop
  | .member used => ∀ called, record.called? = some called →
      ∃ node signature, groundwork.graph.node? used.node = some node ∧
        node.kind.signature? = some signature ∧
        Kept signature (Instantiation.callMarking groundwork.graph node) node.kind.hasThis
          called.parameters called.keepAlive
  | .constructors ids => ∃ scope overloads, record = constructors scope overloads ∧
      List.Forall₂ (fun id (overload : ConstructorRecord) =>
        ∃ node signature, groundwork.graph.node? id = some node ∧
          node.kind.signature? = some signature ∧
          Kept signature (Instantiation.callMarking groundwork.graph node) node.kind.hasThis
            overload.parameters overload.keepAlive) ids overloads
  | _ => True

/-- The references that direct the calls of a node name its arguments. -/
def DirectsWell (groundwork : Groundwork) (id : Nat) : Prop :=
  ∀ node signature, groundwork.graph.node? id = some node →
    node.kind.signature? = some signature →
    Resolves (argumentReferences (Instantiation.callMarking groundwork.graph node)) signature
      node.kind.hasThis

variable {groundwork : Groundwork} {configuration : Configuration} {scope : String}
  {context : Node} {record : Record}

theorem functionRecord?_parts {member : Member} {node : Node} {called : FunctionRecord}
    (isCalled : functionRecord? groundwork configuration scope member node = some called) :
    ∃ signature, node.kind.signature? = some signature ∧
      called.parameters = parameters signature
        (Instantiation.callMarking groundwork.graph node) node.kind.hasThis ∧
      called.keepAlive = keepAlive signature
        (Instantiation.callMarking groundwork.graph node) node.kind.hasThis := by
  unfold functionRecord? at isCalled
  split at isCalled
  · cases isCalled
  · rename_i signature isSignature
    split at isCalled
    · cases isCalled
    · rw [← Option.some.inj isCalled]
      exact ⟨signature, isSignature, rfl, rfl⟩

theorem called?_operatorRecord (node : Node) (called : FunctionRecord) :
    ∃ other, (operatorRecord groundwork context node called).called? = some other ∧
      other.parameters = called.parameters ∧ other.keepAlive = called.keepAlive := by
  unfold operatorRecord
  split
  · exact ⟨_, rfl, rfl, rfl⟩
  · split <;> exact ⟨_, rfl, rfl, rfl⟩

/-- The record is that of a callable, with the parameters and pairs of the node. -/
def CallsNode (groundwork : Groundwork) (node : Node) (record : Record) : Prop :=
  ∃ signature called, node.kind.signature? = some signature ∧ record.called? = some called ∧
    called.parameters = parameters signature
      (Instantiation.callMarking groundwork.graph node) node.kind.hasThis ∧
    called.keepAlive = keepAlive signature
      (Instantiation.callMarking groundwork.graph node) node.kind.hasThis

theorem callsNode_of_bind {used : Member} {node : Node} {make : FunctionRecord → Record}
    (isMade : ((functionRecord? groundwork configuration scope used node).bind fun called =>
      some (make called)) = some record)
    (calls : ∀ called, ∃ other, (make called).called? = some other ∧
      other.parameters = called.parameters ∧ other.keepAlive = called.keepAlive) :
    CallsNode groundwork node record := by
  obtain ⟨called, isCalled, isRecord⟩ := Option.bind_eq_some_iff.mp isMade
  obtain ⟨signature, isSignature, sameParameters, sameKeepAlive⟩ := functionRecord?_parts isCalled
  obtain ⟨other, isOther, otherParameters, otherKeepAlive⟩ := calls called
  rw [← Option.some.inj isRecord]
  exact ⟨signature, other, isSignature, isOther, otherParameters.trans sameParameters,
    otherKeepAlive.trans sameKeepAlive⟩

/-- Only a member without a signature is not called. -/
theorem callsNode_of_ofMember? {used : Member} {node : Node}
    (found : groundwork.graph.node? used.node = some node)
    (isRecord : ofMember? groundwork configuration scope context used = some record) :
    (node.kind.signature? = none ∧ record.called? = none) ∨ CallsNode groundwork node record := by
  unfold ofMember? at isRecord
  rw [found] at isRecord
  cases kind : node.kind with
  | method signature isStatic isConst =>
      right
      apply @callsNode_of_bind _ _ _ _ used node method
      · simpa [kind] using isRecord
      · exact fun called => ⟨called, rfl, rfl, rfl⟩
  | function signature template =>
      right
      apply @callsNode_of_bind _ _ _ _ used node function
      · simpa [kind] using isRecord
      · exact fun called => ⟨called, rfl, rfl, rfl⟩
  | operator symbol signature isMember =>
      right
      apply @callsNode_of_bind _ _ _ _ used node (operatorRecord groundwork context node)
      · simpa [kind] using isRecord
      · exact called?_operatorRecord node
  | conversionFunction signature =>
      right
      apply @callsNode_of_bind _ _ _ _ used node (operatorRecord groundwork context node)
      · simpa [kind] using isRecord
      · exact called?_operatorRecord node
  | field type isConst isStatic =>
      left
      simp [kind] at isRecord
      rw [← isRecord]
      exact ⟨rfl, rfl⟩
  | «variable» type isConst =>
      left
      simp [kind] at isRecord
      rw [← isRecord]
      exact ⟨rfl, rfl⟩
  | enumerator value =>
      left
      simp [kind] at isRecord
      rw [← isRecord]
      exact ⟨rfl, rfl⟩
  | _ => simp [kind] at isRecord

theorem keeps_member_iff {used : Member}
    (isRecord : ofMember? groundwork configuration scope context used = some record) :
    Keeps groundwork record (.member used) ↔ DirectsWell groundwork used.node := by
  obtain ⟨node, found, _⟩ := Option.bind_eq_some_iff.mp isRecord
  have isOnly {other : Node} (isOther : groundwork.graph.node? used.node = some other) :
      other = node := by
    rw [found, Option.some.injEq] at isOther
    exact isOther.symm
  rcases callsNode_of_ofMember? found isRecord with ⟨noSignature, noCall⟩ |
    ⟨signature, called, isSignature, isCalled, sameParameters, sameKeepAlive⟩
  · constructor
    · intro _ other signature isOther isSignature
      rw [isOnly isOther, noSignature] at isSignature
      cases isSignature
    · intro _ called isCalled
      rw [noCall] at isCalled
      cases isCalled
  · constructor
    · intro keeps other written isOther isWritten
      obtain ⟨known, knownSignature, isKnown, isKnownSignature, kept⟩ := keeps called isCalled
      rw [isOnly isOther, isSignature, Option.some.injEq] at isWritten
      rw [isOnly isKnown, isSignature, Option.some.injEq] at isKnownSignature
      rw [isOnly isOther, ← isWritten]
      rw [isOnly isKnown, ← isKnownSignature] at kept
      exact kept.resolves
    · intro directs other isOther
      rw [isCalled, Option.some.injEq] at isOther
      refine ⟨node, signature, found, isSignature, ?_⟩
      rw [← isOther, sameParameters, sameKeepAlive]
      exact kept_of_resolves (directs node signature found isSignature)

/-- The overload of a constructor keeps what directs its calls. -/
theorem kept_of_constructorRecord? (wired : groundwork.graph.Wired) {node : Node}
    (member : node ∈ groundwork.graph.nodes) {overload : ConstructorRecord}
    (isOverload : constructorRecord? configuration node = some overload)
    (directs : DirectsWell groundwork node.id) :
    ∃ signature, node.kind.signature? = some signature ∧
      Kept signature (Instantiation.callMarking groundwork.graph node) node.kind.hasThis
        overload.parameters overload.keepAlive := by
  unfold constructorRecord? at isOverload
  split at isOverload
  · rename_i signature isInherited kind
    split at isOverload
    · cases isOverload
    · have isSignature : node.kind.signature? = some signature := by
        rw [kind]
        rfl
      have isOwn : Instantiation.callMarking groundwork.graph node = node.marking := by
        unfold Instantiation.callMarking
        rw [wired.template_eq_none member (by rw [kind]; rfl)]
        rfl
      have resolves := directs node signature (wired.node?_id member) isSignature
      refine ⟨signature, isSignature, ?_⟩
      rw [isOwn, kind] at resolves ⊢
      rw [← Option.some.inj isOverload]
      exact kept_of_resolves resolves
  · cases isOverload

/-- The record of an item keeps everything exactly where the references that direct
the calls of its nodes name their arguments. -/
theorem keeps_iff (wired : groundwork.graph.Wired) {item : Item}
    (isRecord : ofItem? groundwork configuration scope context item = some record)
    (areConstructors : ∀ ids, item = .constructors ids → ∀ id ∈ ids, ∃ node,
      groundwork.graph.node? id = some node ∧ Item.isConstructor node = true) :
    Keeps groundwork record item ↔ ∀ id ∈ item.nodes, DirectsWell groundwork id := by
  cases item with
  | member used =>
      rw [keeps_member_iff isRecord]
      simp [Item.nodes]
  | constructors ids =>
      have overloads := @constructors_overloads groundwork configuration ids
        (areConstructors ids rfl)
      constructor
      · rintro ⟨_, _, _, kept⟩ id listed other written isOther isWritten
        obtain ⟨overload, _, node, signature, found, isSignature, keeps⟩ :=
          exists_of_forall₂ kept listed
        rw [found, Option.some.injEq] at isOther
        subst other
        rw [isSignature, Option.some.injEq] at isWritten
        subst written
        exact keeps.resolves
      · intro directs
        refine ⟨scope, _, (Option.some.inj isRecord).symm, ?_⟩
        refine ((List.forall₂_and_left _ _).mpr ⟨directs, overloads⟩).imp ?_
        rintro id overload ⟨directsWell, node, found, isOverload⟩
        have sameId := wired.id_eq found
        subst id
        obtain ⟨signature, isSignature, kept⟩ := kept_of_constructorRecord? wired
          (Graph.mem_nodes_of_node? found) isOverload directsWell
        exact ⟨node, signature, found, isSignature, kept⟩
  | property name => simp [Keeps, Item.nodes]
  | manualBlock block =>
      have noSignature : DirectsWell groundwork block := by
        intro node signature found isSignature
        simp only [ofItem?, found] at isRecord
        cases kind : node.kind <;> simp [kind, DeclarationKind.signature?] at isSignature isRecord
      simp [Keeps, Item.nodes, noSignature]

end Record

/-! ## Plans -/

namespace Plan

/-- The record of every scheduled item holds everything that annotations say of the
arguments of what it registers. -/
def KeepsArguments (configuration : Configuration) (plan : Plan) : Prop :=
  ∀ record ∈ plan.records configuration, ∀ unit ∈ plan.schedule.units, ∀ item ∈ unit.items,
    ∀ context scope, Record.ofItem? plan.groundwork configuration scope context item = some record →
      Record.Keeps plan.groundwork record item

/-- What is written of arguments at a redeclaration that names them differently names
arguments of the node that is registered all the same. -/
def RedeclarationsResolve (unit : TranslationUnit) (plan : Plan) : Prop :=
  ∀ scheduled ∈ plan.schedule.units, ∀ item ∈ scheduled.items, ∀ id ∈ item.nodes,
    ∀ node ∈ plan.groundwork.graph.node? id, ∀ signature ∈ node.kind.signature?,
      ∀ declaration ∈ unit.declarations, declaration.id ∈ node.declarations →
        declaration.kind.arguments? ≠ node.kind.arguments? →
        Examination.Resolves declaration.references signature node.kind.hasThis

instance (unit : TranslationUnit) (plan : Plan) : Decidable (plan.RedeclarationsResolve unit) :=
  inferInstanceAs (Decidable (∀ scheduled ∈ plan.schedule.units, _))

variable {configuration : Configuration} {unit : TranslationUnit} {plan : Plan}

/-- No directive for an argument is lost exactly where each one that was written at a
redeclaration with other names of parameters names arguments of the registered
declaration as well. -/
theorem keepsArguments_iff_redeclarationsResolve (planned : ofUnit configuration unit = .ok plan) :
    plan.KeepsArguments configuration ↔ plan.RedeclarationsResolve unit := by
  obtain ⟨table, steps⟩ := exists_steps planned
  have laid := steps.laid
  obtain ⟨inner, made⟩ := Schedule.exists_made laid steps.scheduled
  have nodeOf {scheduled : ScheduledUnit} (isScheduled : scheduled ∈ plan.schedule.units)
      {item : Item} (isItem : item ∈ scheduled.items) {id : Nat} (registers : id ∈ item.nodes)
      {node : Node} (found : plan.groundwork.graph.node? id = some node) :
      node.template = none ∨ plan.groundwork.visibility.isEmitted node.id = true := by
    obtain ⟨context, member, source⟩ := made.exists_source laid isScheduled isItem
    obtain ⟨other, isOther, isEmitted⟩ := source.elim
      (fun isSource => isSource.exists_node laid member registers)
      (fun isBlock => isBlock.exists_node laid member registers)
    rw [found, Option.some.injEq] at isOther
    rw [isOther]
    exact isEmitted
  have constructorsOf {scheduled : ScheduledUnit} (isScheduled : scheduled ∈ plan.schedule.units)
      {item : Item} (isItem : item ∈ scheduled.items) :
      ∀ ids, item = .constructors ids → ∀ id ∈ ids, ∃ node,
        plan.groundwork.graph.node? id = some node ∧ Item.isConstructor node = true := by
    rintro ids rfl
    obtain ⟨context, member, isSource | ⟨_, _, _, isBlock⟩⟩ :=
      made.exists_source laid isScheduled isItem
    · exact isSource.isConstructor_of_mem laid member
    · cases isBlock
  constructor
  · intro keeps scheduled isScheduled item isItem id registers node found signature isSignature
    obtain ⟨record, listed, context, scope, writes⟩ :=
      @Record.exists_writes_of_scheduled plan.groundwork configuration plan.schedule inner laid
        made scheduled isScheduled item isItem
    have directs := (Record.keeps_iff laid.wired writes.written
      (constructorsOf isScheduled isItem)).mp
        (keeps record listed scheduled isScheduled item isItem context scope writes.written)
    exact (steps.resolves_iff (Graph.mem_nodes_of_node? found)
      (nodeOf isScheduled isItem registers found) isSignature).mp
        (directs id registers node signature found isSignature)
  · intro resolve record _ scheduled isScheduled item isItem context scope isRecord
    rw [Record.keeps_iff laid.wired isRecord (constructorsOf isScheduled isItem)]
    intro id registers node signature found isSignature
    exact (steps.resolves_iff (Graph.mem_nodes_of_node? found)
      (nodeOf isScheduled isItem registers found) isSignature).mpr
        (resolve scheduled isScheduled item isItem id registers node found signature isSignature)

/-- A function that is declared twice, with different names of its parameter. Only the
second declaration says what it keeps alive. -/
def renamedParameter : TranslationUnit where
  root := { id := 0, kind := .translationUnit, order := 0 }
  others :=
    [ { id := 1, kind := .function { parameters := [{ name := "a", type := "int" }] } none
        name := "f", qualifiedName := "f", parent := some 0, order := 1
        payloads := [.text "visible"] },
      { id := 2, kind := .function { parameters := [{ name := "b", type := "int" }] } none
        name := "f", qualifiedName := "f", parent := some 0, order := 2
        payloads := [.map [("keep_alive", .array [.string "return", .string "b"]),
          ("required", .string "b")]] } ]
  valid := by decide

theorem renamedParameter_loses :
    ∃ plan, ofUnit {} renamedParameter = .ok plan ∧ ¬ plan.KeepsArguments {} := by
  have unresolved : (ofUnit {} renamedParameter).toOption.any
      (fun plan => !decide (plan.RedeclarationsResolve renamedParameter)) = true := by cbv
  obtain ⟨plan, planned, notResolved⟩ := exists_of_any unresolved
  refine ⟨plan, planned, ?_⟩
  rw [keepsArguments_iff_redeclarationsResolve planned]
  simpa using notResolved

end Plan

end Registrar
