import Mathlib
import Registrar.Proofs.Inheritance.Lineage
import Registrar.Proofs.Record.Scoping

/-!
Contract: the hierarchy of the classes that records are about.

Owns: when no class is above itself, and when the record of a class names all that the
class is registered with.

Does not own: what a class is registered with.

Three parts each see some circles. Following the bases ends only if inlined ones make no
circle. The schedule puts a class after what it is registered with, unless this is the
class itself. A record names the scopes that are open, which that of the class is not.
-/

set_option autoImplicit false

namespace Registrar

namespace Inheritance

/-- The one class is registered with the other. -/
def Registers (inheritance : Inheritance) (id supertype : Nat) : Prop :=
  supertype ∈ inheritance.registered id

/-- The one class names the other as a base, whatever it does with it. -/
def HasBase (graph : Graph) (id base : Nat) : Prop :=
  ∃ node, graph.node? id = some node ∧ ∃ use ∈ usesOf graph node, use.node = some base

/-- The one class inlines the other, or can be registered with it. -/
def RestsOn (graph : Graph) (visibility : Visibility) (id base : Nat) : Prop :=
  Inlines graph id base ∨ (Keeps graph id base ∧ visibility.isEmitted base = true)

section Circles

variable {graph : Graph} {visibility : Visibility} {configuration : Configuration}
  {inheritance : Inheritance} (wired : graph.Wired)
  (built : (ofGraph graph visibility configuration).1 = .ok inheritance)

include wired built

/-- Supertypes are among the classes that are followed. -/
theorem get?_isSome_of_isSupertype {id : Nat} (isSupertype : IsSupertype graph visibility id) :
    (inheritance.get? id).isSome = true := by
  have listed := (mem_emittedClasses wired).mpr isSupertype
  obtain ⟨gained, takes⟩ :=
    (@exists_ofGraph_iff graph visibility configuration wired).mp ⟨inheritance, built⟩ id listed
  exact Option.isSome_iff_exists.mpr
    ⟨gained, (get?_eq_some_iff wired built).mpr ⟨⟨id, listed, .refl⟩, takes⟩⟩

/-- A class that is followed is not inlined into itself. -/
theorem not_inlines_circle {id : Nat} (followed : (inheritance.get? id).isSome = true) :
    ¬ Relation.TransGen (Inlines graph) id id := by
  have accessible := accessible_of_get? wired built followed
  clear followed
  induction accessible with
  | intro id _ inductionHypothesis =>
      intro circle
      obtain ⟨base, inlines, back⟩ := Relation.TransGen.head'_iff.mp circle
      exact inductionHypothesis base inlines (Relation.TransGen.tail' back inlines)

/-- A way along bases that count goes up supertypes first, and through inlined bases
from there. -/
theorem exists_ascent {id base : Nat} (followed : (inheritance.get? id).isSome = true)
    (way : Relation.TransGen (RestsOn graph visibility) id base) :
    Relation.TransGen (Inlines graph) id base ∨
      ∃ top, Relation.TransGen inheritance.Registers id top ∧
        Relation.ReflTransGen (Inlines graph) top base := by
  have keeps_registers {lower keeper supertype : Nat}
      (lowerFollowed : (inheritance.get? lower).isSome = true)
      (inlined : Relation.ReflTransGen (Inlines graph) lower keeper)
      (keeps : Keeps graph keeper supertype) (emitted : visibility.isEmitted supertype = true) :
      inheritance.Registers lower supertype :=
    (mem_registered_iff wired built lowerFollowed).mpr ⟨emitted, keeper, inlined, keeps⟩
  induction way with
  | single restsOn =>
      rcases restsOn with inlines | ⟨keeps, emitted⟩
      · exact .inl (.single inlines)
      · exact .inr ⟨_, .single (keeps_registers followed .refl keeps emitted), .refl⟩
  | tail _ restsOn inductionHypothesis =>
      rcases inductionHypothesis with inlined | ⟨top, above, inlined⟩
      · rcases restsOn with inlines | ⟨keeps, emitted⟩
        · exact .inl (inlined.tail inlines)
        · have registers := keeps_registers followed inlined.to_reflTransGen keeps emitted
          exact .inr ⟨_, .single registers, .refl⟩
      · rcases restsOn with inlines | ⟨keeps, emitted⟩
        · exact .inr ⟨top, above, inlined.tail inlines⟩
        · obtain ⟨last, _, isLast⟩ := Relation.TransGen.tail'_iff.mp above
          have topFollowed := get?_isSome_of_isSupertype wired built
            (isSupertype_of_registered wired built isLast)
          exact .inr ⟨_, above.tail (keeps_registers topFollowed inlined keeps emitted), .refl⟩

/-- Where no class is above itself, no class that is followed rests on itself. -/
theorem not_restsOn_circle {id : Nat} (followed : (inheritance.get? id).isSome = true)
    (acyclic : ∀ supertype, ¬ Relation.TransGen inheritance.Registers supertype supertype) :
    ¬ Relation.TransGen (RestsOn graph visibility) id id := by
  intro circle
  rcases exists_ascent wired built followed circle with inlined | ⟨top, above, inlined⟩
  · exact not_inlines_circle wired built followed inlined
  · -- The class hands on to the top what it is registered with.
    obtain ⟨first, isFirst, rest⟩ := Relation.TransGen.head'_iff.mp above
    obtain ⟨last, _, isLast⟩ := Relation.TransGen.tail'_iff.mp above
    have topFollowed := get?_isSome_of_isSupertype wired built
      (isSupertype_of_registered wired built isLast)
    have isHandedOn : inheritance.Registers top first :=
      registered_subset wired built topFollowed inlined isFirst
    exact acyclic top (Relation.TransGen.head' isHandedOn rest)

end Circles

end Inheritance

namespace Schedule.Made

variable {groundwork : Groundwork} {schedule : Schedule} {inner : List ScheduledUnit}
  (made : Made groundwork schedule inner) (laid : groundwork.Laid)

include made laid

/-- What a class is registered with comes before it in order, unless it is the class. -/
theorem place_lt {id supertype : Nat}
    (isSupertype : Inheritance.IsSupertype groundwork.graph groundwork.visibility id)
    (registers : groundwork.inheritance.Registers id supertype) (other : supertype ≠ id) :
    (inner.map ScheduledUnit.id).idxOf (.context supertype) <
      (inner.map ScheduledUnit.id).idxOf (.context id) := by
  obtain ⟨emitted, node, found, isClass⟩ := isSupertype
  rw [← laid.wired.id_eq found] at emitted registers other ⊢
  obtain ⟨unit, listed, isUnit⟩ := made.exists_unit laid (Graph.mem_nodes_of_node? found) emitted
    (DeclarationKind.isContext_iff.mpr (.inr (.inr (.inl isClass))))
  obtain ⟨before, after, split⟩ := List.append_of_mem listed
  have distinct := made.ids_nodup laid
  rw [split, List.map_append, List.map_cons, isUnit] at distinct ⊢
  have isNew : .context node.id ∉ before.map ScheduledUnit.id := by
    intro isBefore
    exact (List.nodup_append'.mp distinct).2.2 isBefore List.mem_cons_self
  -- No unit comes twice, so the place of the class is the number of units before it.
  have cameBefore := made.supertypes_before laid split isUnit registers other
  rw [List.idxOf_append_of_mem cameBefore, List.idxOf_append_of_notMem isNew]
  exact Nat.lt_add_right _ (List.idxOf_lt_length_of_mem cameBefore)

/-- Where no class is registered with itself, supertypes come before a class, however
far up. -/
theorem place_lt_of_ascent (notItself : ∀ id, ¬ groundwork.inheritance.Registers id id)
    {id supertype : Nat}
    (isSupertype : Inheritance.IsSupertype groundwork.graph groundwork.visibility id)
    (ascent : Relation.TransGen groundwork.inheritance.Registers id supertype) :
    (inner.map ScheduledUnit.id).idxOf (.context supertype) <
      (inner.map ScheduledUnit.id).idxOf (.context id) := by
  have step {lower upper : Nat}
      (isLower : Inheritance.IsSupertype groundwork.graph groundwork.visibility lower)
      (registers : groundwork.inheritance.Registers lower upper) :
      (inner.map ScheduledUnit.id).idxOf (.context upper) <
        (inner.map ScheduledUnit.id).idxOf (.context lower) := by
    refine made.place_lt laid isLower registers ?_
    rintro rfl
    exact notItself _ registers
  obtain ⟨_, inherited⟩ := laid.inheritance
  induction ascent using Relation.TransGen.head_induction_on with
  | single registers => exact step isSupertype registers
  | head registers _ inductionHypothesis =>
      have isUpper := Inheritance.isSupertype_of_registered laid.wired inherited registers
      exact (inductionHypothesis isUpper).trans (step isSupertype registers)

theorem registers_acyclic (notItself : ∀ id, ¬ groundwork.inheritance.Registers id id) (id : Nat) :
    ¬ Relation.TransGen groundwork.inheritance.Registers id id := by
  intro circle
  obtain ⟨_, inherited⟩ := laid.inheritance
  obtain ⟨_, _, registers⟩ := Relation.TransGen.tail'_iff.mp circle
  have isSupertype := Inheritance.isSupertype_of_registered laid.wired inherited registers
  exact lt_irrefl _ (made.place_lt_of_ascent laid notItself isSupertype circle)

end Schedule.Made

namespace Record

variable {groundwork : Groundwork} {configuration : Configuration}

/-- Only the first record of a stretch can open a scope. -/
theorem Stretch.exists_opens {scopes after : Scopes} {unit : ScheduledUnit}
    {records front back : List Record} {record : Record} {identifier : String}
    (stretch : Stretch groundwork configuration scopes unit records after)
    (split : records = front ++ record :: back) (isOpening : record.opens? = some identifier) :
    front = [] ∧ ∃ node ∈ groundwork.graph.nodes, unit.id = .context node.id ∧
      node.opensScope = true ∧ Opens groundwork scopes node identifier record := by
  have listed : record ∈ records := split ▸ List.mem_append_cons_self
  have notItem {context : Node} {scope : String} {items : List Item} {written : List Record}
      (writes : List.Forall₂ (Writes groundwork configuration context scope) items written) :
      record ∉ written := by
    intro isWritten
    rw [opens?_of_isItem (isItem_of_writes writes record isWritten).1] at isOpening
    cases isOpening
  cases stretch with
  | blocks _ _ written => exact absurd listed (notItem written)
  | transparent _ _ _ written => exact absurd listed (notItem written)
  | typeAlias =>
      rw [List.mem_singleton.mp listed] at isOpening
      cases isOpening
  | @opened node first body exportValues isUnit member isOpen opens written =>
      cases front with
      | nil =>
          rw [List.cons_append, List.nil_append, List.cons.injEq] at split
          obtain ⟨rfl, _⟩ := split
          rw [opens.opens?_eq, Option.some.injEq] at isOpening
          exact ⟨rfl, node, member, isUnit, isOpen, isOpening ▸ opens⟩
      | cons other front =>
          rw [List.cons_append, List.cons_append, List.cons.injEq] at split
          have isLater : record ∈ body ++ [contextClose (scopes.enter node).1 exportValues] := by
            rw [split.2]
            exact List.mem_append_cons_self
          rcases List.mem_append.mp isLater with inBody | isClose
          · exact absurd inBody (notItem written)
          · rw [List.mem_singleton.mp isClose] at isOpening
            cases isOpening

/-- The record of a class names all that the class is registered with but itself. -/
theorem bases_opened {schedule : Schedule} {inner : List ScheduledUnit}
    {earlier later : List Entry} {entry : Entry} (laid : groundwork.Laid)
    (made : Schedule.Made groundwork schedule inner)
    (split : entries groundwork configuration schedule.aliasTargets Scopes.start schedule.units =
      earlier ++ entry :: later)
    {opened : ContextRecord} {bases : List String} {holderType : Option String}
    {dynamicAttributes : Bool} (isContext : entry.record = .contextOpen opened)
    (isClass : opened.sort = .class bases holderType dynamicAttributes) :
    ∃ context ∈ groundwork.graph.nodes, entry.unit = .context context.id ∧
      List.Forall₂ (IsOpened earlier)
        ((groundwork.inheritance.registered context.id).filter fun base => base != context.id)
        bases := by
  obtain ⟨before, unit, after, front, back, isUnits, isUnit, isStretch, isEarlier⟩ :=
    occurs_of_split split
  have isScheduled : unit ∈ schedule.units := isUnits ▸ List.mem_append_cons_self
  have stretch := @ofUnit_stretch groundwork configuration laid schedule inner made
    (scopesAfter groundwork configuration schedule.aliasTargets Scopes.start before) unit
    isScheduled
  have isOpening : entry.record.opens? = some opened.identifier := by
    rw [isContext]
    rfl
  obtain ⟨rfl, node, member, isNode, isOpen, opens⟩ := stretch.exists_opens isStretch isOpening
  have place := @scopes_at groundwork configuration schedule inner before (unit :: after) laid made
    isUnits
  rw [List.map_nil, List.append_nil] at isEarlier
  rw [isEarlier, opens.bases_eq isContext isClass]
  exact ⟨node, member, isUnit.trans isNode,
    supertypes_opened laid made isUnits place member isNode isOpen⟩

end Record

namespace Plan

variable {configuration : Configuration} {unit : TranslationUnit} {plan : Plan}

/-- No class is above itself, be it by what classes are registered with or by what they
name as bases, and the record of a class names all that it is registered with. -/
structure HierarchySound (configuration : Configuration) (plan : Plan) : Prop where
  acyclic : ∀ id, ¬ Relation.TransGen plan.groundwork.inheritance.Registers id id
  records : (plan.entries configuration).map Record.Entry.record = plan.records configuration
  complete : ∀ earlier entry later, plan.entries configuration = earlier ++ entry :: later →
    ∀ opened bases holderType dynamicAttributes, entry.record = .contextOpen opened →
      opened.sort = .class bases holderType dynamicAttributes →
      ∃ context ∈ plan.groundwork.graph.nodes, entry.unit = .context context.id ∧
        List.Forall₂ (Record.IsOpened earlier)
          (plan.groundwork.inheritance.registered context.id) bases
  noCircle : ∀ id, ¬ Relation.TransGen (Inheritance.HasBase plan.groundwork.graph) id id

/-- No class is registered with itself, and where a class is a base of itself, however
far up, it is followed, along bases that count. -/
structure CirclesSeen (groundwork : Groundwork) : Prop where
  notItself : ∀ id, ¬ groundwork.inheritance.Registers id id
  followed : ∀ id, Relation.TransGen (Inheritance.HasBase groundwork.graph) id id →
    (groundwork.inheritance.get? id).isSome = true ∧
      Relation.TransGen (Inheritance.RestsOn groundwork.graph groundwork.visibility) id id

/-- The hierarchy is sound exactly if no circle goes unseen. Unseen is a class that is
registered with itself, and a circle in which a base is hidden, is kept without being
public and emitted, or stands in a class that is not followed. -/
theorem hierarchySound_iff (planned : ofUnit configuration unit = .ok plan) :
    HierarchySound configuration plan ↔ CirclesSeen plan.groundwork := by
  obtain ⟨laid, inner, made⟩ := exists_made planned
  obtain ⟨_, inherited⟩ := laid.inheritance
  constructor
  · intro sound
    exact ⟨fun id registers => sound.acyclic id (.single registers),
      fun id circle => absurd circle (sound.noCircle id)⟩
  · intro seen
    have acyclic := made.registers_acyclic laid seen.notItself
    refine ⟨acyclic, Record.map_record_entries .., ?_, ?_⟩
    · intro earlier entry later split opened bases holderType dynamicAttributes isContext isClass
      obtain ⟨context, member, isUnit, named⟩ :=
        Record.bases_opened laid made split isContext isClass
      have noneIsItself : (plan.groundwork.inheritance.registered context.id).filter
          (fun base => base != context.id) = plan.groundwork.inheritance.registered context.id := by
        rw [List.filter_eq_self]
        intro base registered
        rw [bne_iff_ne]
        rintro rfl
        exact seen.notItself _ registered
      rw [noneIsItself] at named
      exact ⟨context, member, isUnit, named⟩
    · intro id circle
      obtain ⟨followed, restsOn⟩ := seen.followed id circle
      exact Inheritance.not_restsOn_circle laid.wired inherited followed acyclic restsOn

/-- A class that names itself as its base. -/
def ownBase : TranslationUnit where
  root := { id := 0, kind := .translationUnit, order := 0 }
  others :=
    [ { id := 1, kind := .class [{ qualifiedName := "A" }] none, name := "A", qualifiedName := "A"
        parent := some 0, order := 1, payloads := [.text "visible"] } ]
  valid := by decide

theorem ownBase_isUnsound :
    ∃ plan, ofUnit {} ownBase = .ok plan ∧ ¬ HierarchySound {} plan := by
  have itself : (ofUnit {} ownBase).toOption.any
      (fun plan => (plan.groundwork.inheritance.registered 1).contains 1) = true := by
    decide +kernel
  obtain ⟨plan, planned, registers⟩ := exists_of_any itself
  refine ⟨plan, planned, ?_⟩
  rw [hierarchySound_iff planned]
  intro seen
  exact seen.notItself 1 (List.contains_iff_mem.mp registers)

end Plan

end Registrar
