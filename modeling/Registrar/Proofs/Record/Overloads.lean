import Mathlib
import Registrar.Proofs.Graph.Redeclarations
import Registrar.Proofs.Record.Shape

/-!
Contract: which overloads of a method are kept apart.

Owns: that methods of one name are one node exactly if the types of their
parameters read alike, and that a visible method that can be called has a record
of its own in the class that is emitted.

Does not own: what else the record says.

The key of a declaration has the types of the parameters joined by commas, and
says nothing of whether a method is constant or static.
-/

set_option autoImplicit false

namespace Registrar

/-! ## Overloads -/

/-- What tells the members of one name of a class from one another. -/
structure MethodForm where
  types : List String
  isStatic : Bool
  isConst : Bool
  deriving DecidableEq

namespace Declaration

def methodForm? (declaration : Declaration) : Option MethodForm :=
  match declaration.kind with
  | .method signature isStatic isConst =>
      some ⟨signature.parameters.map Parameter.type, isStatic, isConst⟩
  | _ => none

/-- The two declare different members of one name. -/
def Overloads (left right : Declaration) : Prop :=
  left.qualifiedName = right.qualifiedName ∧ left.methodForm?.isSome ∧
    right.methodForm?.isSome ∧ left.methodForm? ≠ right.methodForm?

instance (left right : Declaration) : Decidable (left.Overloads right) :=
  inferInstanceAs (Decidable (_ ∧ _ ∧ _ ∧ _))

/-- The types of the parameters of the two read alike once they are joined. -/
def ReadsLike (left right : Declaration) : Prop :=
  left.kind.signature?.map Signature.overloadKey = right.kind.signature?.map Signature.overloadKey

instance (left right : Declaration) : Decidable (left.ReadsLike right) :=
  inferInstanceAs (Decidable (_ = _))

theorem exists_method {declaration : Declaration} (isMethod : declaration.methodForm?.isSome) :
    ∃ signature isStatic isConst, declaration.kind = .method signature isStatic isConst := by
  unfold methodForm? at isMethod
  split at isMethod
  · rename_i signature isStatic isConst kind
    exact ⟨signature, isStatic, isConst, kind⟩
  · cases isMethod

/-- The key of a method that has a name. -/
theorem mergeKey?_of_method {declaration : Declaration}
    (isMethod : declaration.methodForm?.isSome) (named : declaration.qualifiedName ≠ "") :
    declaration.mergeKey? = some ("method" ++ "|" ++ declaration.qualifiedName ++ "|" ++
      (declaration.kind.signature?.map Signature.overloadKey).getD "") := by
  obtain ⟨signature, isStatic, isConst, kind⟩ := exists_method isMethod
  have isNamed : declaration.qualifiedName.isEmpty = false := by
    simpa [String.isEmpty_iff] using named
  simp [mergeKey?, family, kind, isNamed, DeclarationKind.target, DeclarationKind.canOwn,
    DeclarationKind.isContext, DeclarationKind.name, Target.name, DeclarationKind.signature?]

/-- Of methods of one name exactly those whose types read alike are redeclarations
of one another. -/
theorem Overloads.redeclares_iff {left right : Declaration} (overloads : left.Overloads right)
    (nested : left.parent.isSome = true) :
    left.Redeclares right ↔ left.qualifiedName ≠ "" ∧ left.ReadsLike right := by
  obtain ⟨sameName, leftMethod, rightMethod, _⟩ := overloads
  obtain ⟨leftSignature, _, _, leftKind⟩ := exists_method leftMethod
  obtain ⟨rightSignature, _, _, rightKind⟩ := exists_method rightMethod
  have readsLike : left.ReadsLike right ↔
      leftSignature.overloadKey = rightSignature.overloadKey := by
    simp [ReadsLike, leftKind, rightKind, DeclarationKind.signature?]
  rw [readsLike]
  constructor
  · rintro ⟨key, isLeft, isRight⟩
    have named : left.qualifiedName ≠ "" := by
      intro unnamed
      rw [(mergeKey?_eq_some isLeft).2 unnamed] at nested
      cases nested
    refine ⟨named, ?_⟩
    rw [mergeKey?_of_method leftMethod named, Option.some.injEq] at isLeft
    rw [mergeKey?_of_method rightMethod (sameName ▸ named), ← isLeft, sameName] at isRight
    simpa [leftKind, rightKind, DeclarationKind.signature?, eq_comm] using isRight
  · rintro ⟨named, sameTypes⟩
    refine ⟨_, mergeKey?_of_method leftMethod named, ?_⟩
    rw [mergeKey?_of_method rightMethod (sameName ▸ named), sameName]
    simp [leftKind, rightKind, DeclarationKind.signature?, sameTypes]

end Declaration

/-! ## Visible methods -/

namespace Visibility

variable {graph : Graph} {configuration : Configuration}

/-- A visible method of an emitted class is emitted. -/
theorem isEmitted_method (wired : graph.Wired) {node context : Node}
    (member : node ∈ graph.nodes) (contextMember : context ∈ graph.nodes)
    (around : node.parent = some context.id) (isMethod : node.kind.target = .method)
    (isClass : context.kind.target = .class)
    (visible : (ofGraph graph configuration).isVisible node.id = true)
    (emitted : (ofGraph graph configuration).isEmitted context.id = true) :
    (ofGraph graph configuration).isEmitted node.id = true := by
  rw [isEmitted_iff_emits wired rfl contextMember] at emitted
  rw [isEmitted_iff_emits wired rfl member]
  have nonempty := wired.nonempty
  obtain ⟨others, size⟩ : ∃ others, graph.size = others + 1 := ⟨graph.size - 1, by omega⟩
  have isAround : graph.ancestors node = context :: graph.ancestorsWithin others context := by
    unfold Graph.ancestors
    rw [size, Graph.ancestorsWithin, around, Option.bind_some, wired.node?_id contextMember]
  unfold emits at emitted ⊢
  rw [isAround]
  rw [Graph.ancestors, size] at emitted
  cases contextKind : context.kind <;> simp [contextKind, DeclarationKind.target] at isClass
  cases kind : node.kind <;> simp [kind, DeclarationKind.target] at isMethod
  simp only [contextKind, emitsInScope, DeclarationKind.target, Bool.or_eq_true,
    Bool.and_eq_true] at emitted
  simp only [scopeOpen, contextKind, emitsInScope, size, kind, DeclarationKind.target,
    Bool.or_eq_true, Bool.and_eq_true]
  obtain isUnit | ⟨isOpen, contextVisible⟩ := emitted
  · cases isUnit
  · exact .inr ⟨⟨scopeOpen_of_more isOpen, contextVisible⟩, visible⟩

end Visibility

/-! ## Places of items -/

namespace Record

/-- What is written at each place: an item, or what opens, closes or names a second
time. -/
def Tagged (groundwork : Groundwork) (configuration : Configuration) (tags : List (Option Item))
    (records : List Record) : Prop :=
  List.Forall₂ (fun tag record => ∀ item, tag = some item →
    ∃ context scope, Writes groundwork configuration context scope item record) tags records

variable {groundwork : Groundwork} {configuration : Configuration}

theorem tagged_of_writes {context : Node} {scope : String} {items : List Item}
    {records : List Record}
    (written : List.Forall₂ (Writes groundwork configuration context scope) items records) :
    Tagged groundwork configuration (items.map some) records := by
  refine List.forall₂_map_left_iff.mpr (written.imp ?_)
  rintro item record writes other isOther
  rw [← Option.some.inj isOther]
  exact ⟨context, scope, writes⟩

theorem tagged_none (record : Record) : Tagged groundwork configuration [none] [record] :=
  .cons (fun _ isItem => nomatch isItem) .nil

/-- Every item of a unit is written at a place of its own. -/
theorem Shape.exists_tags {unit : ScheduledUnit} {records : List Record}
    (shape : Shape groundwork configuration unit records) :
    ∃ tags, Tagged groundwork configuration tags records ∧
      ∀ item ∈ unit.items, some item ∈ tags := by
  cases shape with
  | @opened node identifier first body exportValues isUnit member isOpen opens isOpening written =>
      have inner := tagged_of_writes written
      refine ⟨[none] ++ unit.items.map some ++ [none], ?_, by simp⟩
      exact List.rel_append (List.rel_append (tagged_none first) inner) (tagged_none _)
  | items member isUnit written => exact ⟨_, tagged_of_writes written, by simp⟩
  | typeAlias isUnit member noItems => exact ⟨[none], tagged_none _, by simp [noItems]⟩

theorem exists_tags_flatMap {stretches : List (ScheduledUnit × List Record)}
    (shapes : ∀ stretch ∈ stretches, Shape groundwork configuration stretch.1 stretch.2) :
    ∃ tags, Tagged groundwork configuration tags (stretches.flatMap Prod.snd) ∧
      ∀ stretch ∈ stretches, ∀ item ∈ stretch.1.items, some item ∈ tags := by
  induction stretches with
  | nil => exact ⟨[], .nil, by simp⟩
  | cons first rest inductionHypothesis =>
      obtain ⟨firstShape, restShapes⟩ := List.forall_mem_cons.mp shapes
      obtain ⟨firstTags, firstTagged, firstListed⟩ := firstShape.exists_tags
      obtain ⟨restTags, restTagged, restListed⟩ := inductionHypothesis restShapes
      refine ⟨firstTags ++ restTags, List.rel_append firstTagged restTagged,
        List.forall_mem_cons.mpr ⟨?_, ?_⟩⟩
      · intro item isItem
        exact List.mem_append_left restTags (firstListed item isItem)
      · intro stretch listed item isItem
        exact List.mem_append_right firstTags (restListed stretch listed item isItem)

end Record

/-! ## Methods with records of their own -/

/-- The node is a visible method of an emitted class that can be called and is no
accessor. -/
structure Groundwork.ExposesMethod (groundwork : Groundwork) (node : Node) : Prop where
  member : node ∈ groundwork.graph.nodes
  isMethod : node.kind.target = .method
  callable : ∀ signature, node.kind.signature? = some signature → signature.isDeleted = false
  noAccessor : Property.isAccessor node = false
  visible : groundwork.visibility.isVisible node.id = true
  ofClass : ∃ context ∈ groundwork.graph.nodes, node.parent = some context.id ∧
    context.kind.target = .class ∧ groundwork.visibility.isEmitted context.id = true

/-- The record registers the method. -/
def Record.IsOfMethod (groundwork : Groundwork) (configuration : Configuration) (node : Node)
    (record : Record) : Prop :=
  ∃ scope called, functionRecord? groundwork configuration scope { node := node.id } node =
    some called ∧ record = method called

namespace Record

variable {groundwork : Groundwork} {configuration : Configuration}

/-- The record that a method of a class is written as is that of the method. -/
theorem isOfMethod_of_writes {node context : Node} {scope : String} {record : Record}
    (found : groundwork.graph.node? node.id = some node) (isMethod : node.kind.target = .method)
    (writes : Writes groundwork configuration context scope (.member { node := node.id })
      record) :
    IsOfMethod groundwork configuration node record := by
  have written := writes.written
  cases kind : node.kind <;> simp [kind, DeclarationKind.target] at isMethod
  simp only [ofItem?, ofMember?, found, kind, Option.bind_eq_bind, Option.bind_some,
    Option.pure_def, Option.bind_eq_some_iff, Option.some.injEq] at written
  obtain ⟨called, isCalled, rfl⟩ := written
  exact ⟨scope, called, isCalled, rfl⟩

/-- A method that is exposed is an item of its class. -/
theorem member_mem_collect (laid : groundwork.Laid) {node context : Node}
    (exposed : groundwork.ExposesMethod node) (contextMember : context ∈ groundwork.graph.nodes)
    (around : node.parent = some context.id) (isClass : context.kind.target = .class)
    (emitted : groundwork.visibility.isEmitted node.id = true) :
    .member { node := node.id } ∈ (Item.collect groundwork context).map PlacedItem.item := by
  have isMember : Inheritance.isMemberKind node.kind = true := by
    have isMethod := exposed.isMethod
    cases kind : node.kind <;> simp_all [DeclarationKind.target, Inheritance.isMemberKind]
  have isRegistered : Item.isClassMember groundwork.operators node = true := by
    have isMethod := exposed.isMethod
    have callable := exposed.callable
    have noAccessor := exposed.noAccessor
    unfold Item.isClassMember
    cases kind : node.kind <;>
      simp_all [DeclarationKind.target, DeclarationKind.signature?]
  have taken : ({ node := node.id } : Member) ∈
      groundwork.inheritance.members groundwork.graph groundwork.visibility context := by
    unfold Inheritance.members
    refine List.mem_append_left _ (List.mem_map.mpr ⟨node, List.mem_filter.mpr ⟨?_, ?_⟩, rfl⟩)
    · exact (laid.wired.mem_childrenOf contextMember).mpr ⟨exposed.member, around⟩
    · rw [isMember, emitted, Bool.and_self]
  have listed : (⟨.member { node := node.id }, node.order⟩ : PlacedItem) ∈
      Item.classMembers groundwork context := by
    refine List.mem_filterMap.mpr ⟨_, taken, ?_⟩
    rw [laid.wired.node?_id exposed.member]
    dsimp only
    rw [if_pos isRegistered]
  refine List.mem_map.mpr ⟨⟨.member { node := node.id }, node.order⟩,
    List.mem_append_left _ ?_, rfl⟩
  unfold Item.registrationsOf
  cases kind : context.kind <;> simp [kind, DeclarationKind.target] at isClass
  simp [listed]

end Record

namespace Plan

variable {configuration : Configuration} {unit : TranslationUnit} {plan : Plan}

/-- A method that is exposed is scheduled with its class. -/
theorem exists_unit_of_exposesMethod (planned : ofUnit configuration unit = .ok plan)
    {node : Node} (exposed : plan.groundwork.ExposesMethod node) :
    ∃ scheduled ∈ plan.schedule.units, .member { node := node.id } ∈ scheduled.items := by
  obtain ⟨table, steps⟩ := exists_steps planned
  obtain ⟨laid, inner, made⟩ := exists_made planned
  obtain ⟨context, contextMember, around, isClass, contextEmitted⟩ := exposed.ofClass
  have emitted : plan.groundwork.visibility.isEmitted node.id = true := by
    have visible := exposed.visible
    have isEmittedContext := contextEmitted
    rw [steps.isVisible_eq] at visible
    rw [steps.isEmitted_eq] at isEmittedContext ⊢
    exact Visibility.isEmitted_method laid.wired exposed.member contextMember around
      exposed.isMethod isClass visible isEmittedContext
  obtain ⟨scheduled, listed, _, items⟩ := made.exists_items laid contextMember contextEmitted
    (DeclarationKind.isContext_iff.mpr (.inr (.inr (.inl isClass))))
  exact ⟨scheduled, listed, (Item.inOrder_perm items).mem_iff.mpr
    (Record.member_mem_collect laid exposed contextMember around isClass emitted)⟩

/-- Every method that is exposed has a record, and no two have the same. -/
theorem exists_methodPlaces (planned : ofUnit configuration unit = .ok plan) :
    ∃ place : Nat → Nat,
      (∀ node, plan.groundwork.ExposesMethod node →
        ∃ record, (plan.records configuration)[place node.id]? = some record ∧
          record.IsOfMethod plan.groundwork configuration node) ∧
        ∀ left right, plan.groundwork.ExposesMethod left → plan.groundwork.ExposesMethod right →
          place left.id = place right.id → left = right := by
  obtain ⟨laid, inner, made⟩ := exists_made planned
  obtain ⟨tags, tagged, scheduled⟩ := @Record.exists_tags_flatMap plan.groundwork configuration
    (Record.stretches plan.groundwork configuration plan.schedule.aliasTargets
      Record.Scopes.start plan.schedule.units)
    (fun stretch listed => Record.shape_of_mem_stretches laid made listed)
  rw [← Record.ofUnits_eq_flatMap] at tagged
  have isTag {node : Node} (exposed : plan.groundwork.ExposesMethod node) :
      some (.member { node := node.id }) ∈ tags := by
    obtain ⟨unit, listed, isItem⟩ := exists_unit_of_exposesMethod planned exposed
    rw [← Record.map_fst_stretches plan.groundwork configuration plan.schedule.aliasTargets
      Record.Scopes.start plan.schedule.units] at listed
    obtain ⟨stretch, isStretch, rfl⟩ := List.mem_map.mp listed
    exact scheduled stretch isStretch _ isItem
  refine ⟨fun id => tags.idxOf (some (.member { node := id })), ?_, ?_⟩
  · intro node exposed
    have inside := List.idxOf_lt_length_of_mem (isTag exposed)
    have sameLength := tagged.length_eq
    have writes := tagged.get inside (sameLength ▸ inside)
    obtain ⟨context, scope, writes⟩ := writes _ (List.getElem_idxOf inside)
    refine ⟨_, List.getElem?_eq_getElem (sameLength ▸ inside), ?_⟩
    exact Record.isOfMethod_of_writes (laid.wired.node?_id exposed.member) exposed.isMethod writes
  · intro left right leftExposed rightExposed samePlace
    have sameTag := (List.idxOf_inj (isTag leftExposed)).mp samePlace
    simp only [Option.some.injEq, Item.member.injEq, Member.mk.injEq, and_true] at sameTag
    exact laid.wired.eq_of_id_eq leftExposed.member rightExposed.member sameTag

/-- Overloads are different nodes, and each that is exposed has a record that no
other one has. -/
structure KeepsOverloads (configuration : Configuration) (unit : TranslationUnit) (plan : Plan) :
    Prop where
  apart : ∀ left ∈ unit.declarations, ∀ right ∈ unit.declarations, left.Overloads right →
    plan.groundwork.graph.nodeOf? left.id ≠ plan.groundwork.graph.nodeOf? right.id
  recorded : ∃ place : Declaration → Nat,
    (∀ declaration ∈ unit.declarations, ∀ node, plan.groundwork.ExposesMethod node →
      plan.groundwork.graph.nodeOf? declaration.id = some node.id →
      ∃ record, (plan.records configuration)[place declaration]? = some record ∧
        record.IsOfMethod plan.groundwork configuration node) ∧
    ∀ left ∈ unit.declarations, ∀ right ∈ unit.declarations, left.Overloads right →
      (∃ node, plan.groundwork.ExposesMethod node ∧
        plan.groundwork.graph.nodeOf? left.id = some node.id) →
      (∃ node, plan.groundwork.ExposesMethod node ∧
        plan.groundwork.graph.nodeOf? right.id = some node.id) →
      place left ≠ place right

/-- Overloads are kept exactly where none that have a name have parameters whose
types read alike: what tells them apart beyond that is lost. -/
theorem keepsOverloads_iff (planned : ofUnit configuration unit = .ok plan) :
    KeepsOverloads configuration unit plan ↔
      ∀ left ∈ unit.declarations, ∀ right ∈ unit.declarations, left.Overloads right →
        left.qualifiedName ≠ "" → ¬ left.ReadsLike right := by
  obtain ⟨table, steps⟩ := exists_steps planned
  have nested {declaration : Declaration} (listed : declaration ∈ unit.declarations)
      (isMethod : declaration.methodForm?.isSome = true) : declaration.parent.isSome = true := by
    rcases List.mem_cons.mp listed with isRoot | isOther
    · rw [isRoot, Declaration.methodForm?, unit.root_kind] at isMethod
      cases isMethod
    · obtain ⟨owner, _, isOwner, _⟩ := unit.exists_owner isOther
      rw [isOwner, Option.isSome_some]
  have sameNode_iff {left right : Declaration} (leftListed : left ∈ unit.declarations)
      (rightListed : right ∈ unit.declarations) (overloads : left.Overloads right) :
      plan.groundwork.graph.nodeOf? left.id = plan.groundwork.graph.nodeOf? right.id ↔
        left.qualifiedName ≠ "" ∧ left.ReadsLike right := by
    rw [Graph.nodeOf?_eq_iff steps.built leftListed rightListed,
      overloads.redeclares_iff (nested leftListed overloads.2.1)]
    refine or_iff_right ?_
    rintro rfl
    exact overloads.2.2.2 rfl
  constructor
  · intro keeps left leftListed right rightListed overloads named readsLike
    exact keeps.apart left leftListed right rightListed overloads
      ((sameNode_iff leftListed rightListed overloads).mpr ⟨named, readsLike⟩)
  · intro readApart
    have apart : ∀ left ∈ unit.declarations, ∀ right ∈ unit.declarations, left.Overloads right →
        plan.groundwork.graph.nodeOf? left.id ≠ plan.groundwork.graph.nodeOf? right.id := by
      intro left leftListed right rightListed overloads sameNode
      obtain ⟨named, readsLike⟩ := (sameNode_iff leftListed rightListed overloads).mp sameNode
      exact readApart left leftListed right rightListed overloads named readsLike
    obtain ⟨place, written, distinct⟩ := exists_methodPlaces planned
    refine ⟨apart, fun declaration =>
      ((plan.groundwork.graph.nodeOf? declaration.id).map place).getD 0, ?_, ?_⟩
    · intro declaration _ node exposed isNode
      dsimp only
      rw [isNode]
      exact written node exposed
    · rintro left leftListed right rightListed overloads ⟨leftNode, leftExposed, isLeft⟩
        ⟨rightNode, rightExposed, isRight⟩ samePlace
      dsimp only at samePlace
      rw [isLeft, isRight] at samePlace
      have sameNode := distinct leftNode rightNode leftExposed rightExposed samePlace
      refine apart left leftListed right rightListed overloads ?_
      rw [isLeft, isRight, sameNode]

/-- A visible class with a method and its constant overload. -/
def constantOverload : TranslationUnit where
  root := { id := 0, kind := .translationUnit, order := 0 }
  others :=
    [ { id := 1, kind := .class [] none, name := "A", qualifiedName := "A", parent := some 0
        order := 1, payloads := [.text "visible"] },
      { id := 2, kind := .method { returnType := "int" } false false, name := "f"
        qualifiedName := "A::f", parent := some 1, order := 2 },
      { id := 3, kind := .method { returnType := "int" } false true, name := "f"
        qualifiedName := "A::f", parent := some 1, order := 3 } ]
  valid := by decide

theorem constantOverload_isLost :
    ∃ plan, ofUnit {} constantOverload = .ok plan ∧
      ¬ KeepsOverloads {} constantOverload plan := by
  have isPlanned : (ofUnit {} constantOverload).toOption.any (fun _ => true) = true := by cbv
  obtain ⟨plan, planned, _⟩ := exists_of_any isPlanned
  refine ⟨plan, planned, ?_⟩
  rw [keepsOverloads_iff planned]
  intro readApart
  have isLost : ∃ left ∈ constantOverload.declarations, ∃ right ∈ constantOverload.declarations,
      left.Overloads right ∧ left.qualifiedName ≠ "" ∧ left.ReadsLike right := by decide
  obtain ⟨left, leftListed, right, rightListed, overloads, named, readsLike⟩ := isLost
  exact readApart left leftListed right rightListed overloads named readsLike

end Plan

end Registrar
