import Mathlib
import Registrar.Proofs.Record.Items
import Registrar.Record.Stream

/-!
Contract: the stretch of records that each unit of a schedule becomes.

Owns: what a stretch looks like, which scope it opens, and the records of a
schedule as its stretches one after the other.

Does not own: which scopes are open where a stretch begins.
-/

set_option autoImplicit false

namespace Registrar

/-- Whether the node opens a scope of its own. -/
def Node.opensScope (node : Node) : Bool :=
  match node.kind with
  | .translationUnit | .class _ _ | .enum _ => true
  | .namespace _ => node.isModule
  | _ => false

namespace Record

/-- The identifier of the scope that the record opens. -/
def opens? : Record → Option String
  | contextOpen opened => some opened.identifier
  | enum opened => some opened.identifier
  | _ => none

/-- What a record that opens the scope of a node looks like. -/
inductive Opens (groundwork : Groundwork) (scopes : Scopes) (node : Node) (identifier : String) :
    Record → Prop where
  | enum {opened : EnumRecord} {isScoped : Bool} (isEnum : node.kind = .enum isScoped)
      (identified : opened.identifier = identifier)
      (inScope : opened.scope = scopes.around groundwork.graph node)
      (named : opened.qualifiedName = node.qualifiedName) :
      Opens groundwork scopes node identifier (enum opened)
  | context {opened : ContextRecord} (sorted : sortOf? groundwork scopes node = some opened.sort)
      (identified : opened.identifier = identifier)
      (inScope : opened.scope =
        if node.id = Graph.root then none else some (scopes.around groundwork.graph node))
      (named : opened.qualifiedName = node.qualifiedName) :
      Opens groundwork scopes node identifier (contextOpen opened)

/-- What a unit becomes where scopes are open, and the scopes after it. -/
inductive Stretch (groundwork : Groundwork) (configuration : Configuration) (scopes : Scopes)
    (unit : ScheduledUnit) : List Record → Scopes → Prop where
  | blocks {root : Node} {records : List Record}
      (isBlocks : unit.id = .early ∨ unit.id = .postamble)
      (isRoot : groundwork.graph.node? Graph.root = some root)
      (written : List.Forall₂ (Writes groundwork configuration root rootIdentifier)
        unit.items records) :
      Stretch groundwork configuration scopes unit records scopes
  | opened {node : Node} {first : Record} {body : List Record} {exportValues : Bool}
      (isUnit : unit.id = .context node.id) (member : node ∈ groundwork.graph.nodes)
      (isOpen : node.opensScope = true)
      (opens : Opens groundwork scopes node (scopes.enter node).1 first)
      (written : List.Forall₂ (Writes groundwork configuration node (scopes.enter node).1)
        unit.items body) :
      Stretch groundwork configuration scopes unit
        (first :: body ++ [contextClose (scopes.enter node).1 exportValues]) (scopes.enter node).2
  | transparent {node : Node} {records : List Record}
      (isUnit : unit.id = .context node.id) (member : node ∈ groundwork.graph.nodes)
      (isOpen : node.opensScope = false)
      (written : List.Forall₂
        (Writes groundwork configuration node (scopes.around groundwork.graph node))
        unit.items records) :
      Stretch groundwork configuration scopes unit records scopes
  | typeAlias {node target : Node} (isUnit : unit.id = .typeAlias node.id)
      (member : node ∈ groundwork.graph.nodes) (targetMember : target ∈ groundwork.graph.nodes)
      (emitted : groundwork.visibility.isEmitted node.id = true)
      (isAlias : node.kind.target = .typeAlias)
      (isTarget : Schedule.aliasTarget? groundwork.graph node = some target.id)
      (noItems : unit.items = []) :
      Stretch groundwork configuration scopes unit [ofAlias groundwork scopes node target] scopes

variable {groundwork : Groundwork} {configuration : Configuration}

/-! ## The stretch of a unit -/

/-- A context with its items becomes a stretch. -/
theorem ofContext_stretch (laid : groundwork.Laid) (scopes : Scopes) {unit : ScheduledUnit}
    {node : Node} (isUnit : unit.id = .context node.id) (member : node ∈ groundwork.graph.nodes)
    (isContext : node.kind.isContext = true)
    (items : Item.ofContext groundwork node = .ok unit.items) :
    Stretch groundwork configuration scopes unit
      (ofContext groundwork configuration scopes node unit.items).1
      (ofContext groundwork configuration scopes node unit.items).2 := by
  have written (scope : String) : List.Forall₂ (Writes groundwork configuration node scope)
      unit.items (ofItems groundwork configuration scope node unit.items) := by
    apply ofItems_writes laid member
    intro item listed
    exact Item.source_of_mem_ofContext items listed
  have openedContext {sort : ContextSort} (isSort : sortOf? groundwork scopes node = some sort)
      (isOpen : node.opensScope = true) :
      Stretch groundwork configuration scopes unit
        (openRecord groundwork configuration node (scopes.enter node).1
            (if node.id = Graph.root then none else some (scopes.around groundwork.graph node)) sort
          :: ofItems groundwork configuration (scopes.enter node).1 node unit.items
            ++ [contextClose (scopes.enter node).1 false]) (scopes.enter node).2 :=
    .opened isUnit member isOpen (.context isSort rfl rfl rfl) (written _)
  unfold ofContext
  cases kind : node.kind with
  | translationUnit =>
      have isSort : sortOf? groundwork scopes node = some .root := by rw [sortOf?, kind]
      have isOpen : node.opensScope = true := by rw [Node.opensScope, kind]
      simp only [isSort]
      exact openedContext isSort isOpen
  | «namespace» isInline =>
      by_cases isModule : node.isModule = true
      · have isSort : sortOf? groundwork scopes node = some .module := by
          rw [sortOf?, kind]
          exact if_pos isModule
        have isOpen : node.opensScope = true := by
          rw [Node.opensScope, kind]
          exact isModule
        simp only [isSort]
        exact openedContext isSort isOpen
      · have isSort : sortOf? groundwork scopes node = none := by
          rw [sortOf?, kind]
          exact if_neg isModule
        have isOpen : node.opensScope = false := by
          rw [Node.opensScope, kind]
          exact Bool.eq_false_iff.mpr isModule
        simp only [isSort]
        exact .transparent isUnit member isOpen (written _)
  | «class» bases template =>
      have isOpen : node.opensScope = true := by rw [Node.opensScope, kind]
      cases isSort : sortOf? groundwork scopes node with
      | none => simp [sortOf?, kind] at isSort
      | some sort => exact openedContext isSort isOpen
  | enum isScoped =>
      have isOpen : node.opensScope = true := by rw [Node.opensScope, kind]
      exact .opened isUnit member isOpen (.enum kind rfl rfl rfl) (written _)
  | _ =>
      rw [kind] at isContext
      cases isContext

/-- Every unit of a schedule becomes a stretch. -/
theorem ofUnit_stretch (laid : groundwork.Laid) {schedule : Schedule}
    {inner : List ScheduledUnit} (made : Schedule.Made groundwork schedule inner)
    (scopes : Scopes) {unit : ScheduledUnit} (listed : unit ∈ schedule.units) :
    Stretch groundwork configuration scopes unit
      (ofUnit groundwork configuration schedule.aliasTargets scopes unit).1
      (ofUnit groundwork configuration schedule.aliasTargets scopes unit).2 := by
  obtain ⟨root, rootMember, isRoot⟩ := laid.exists_root
  have ofBlocks {placement : Placement}
      (isBlocks : unit.id = .early ∨ unit.id = .postamble)
      (items : unit.items = Schedule.rootBlocks groundwork placement) :
      Stretch groundwork configuration scopes unit
        (ofUnit groundwork configuration schedule.aliasTargets scopes unit).1
        (ofUnit groundwork configuration schedule.aliasTargets scopes unit).2 := by
    have written : List.Forall₂ (Writes groundwork configuration root rootIdentifier) unit.items
        (ofItems groundwork configuration rootIdentifier root unit.items) := by
      apply ofItems_writes laid rootMember
      intro item isItem
      rw [items] at isItem
      exact .inr (Item.isBlock_of_mem_rootBlocks isRoot isItem)
    unfold ofUnit
    rcases isBlocks with isId | isId <;> simp only [isId, isRoot]
    · exact .blocks (.inl isId) isRoot written
    · exact .blocks (.inr isId) isRoot written
  rcases made.mem_units.mp listed with early | listed | postamble
  · have isUnit := Schedule.eq_of_mem_blockUnit early
    exact ofBlocks (.inl (by rw [isUnit])) (by rw [isUnit])
  · rcases made.unit_cases laid listed with
      ⟨node, member, isUnit, _, isContext, items⟩ |
        ⟨node, member, isUnit, emitted, isAlias, hasTarget, noItems⟩
    · unfold ofUnit
      simp only [isUnit, laid.wired.node?_id member]
      exact ofContext_stretch laid scopes isUnit member isContext items
    · obtain ⟨id, isTarget⟩ := Option.isSome_iff_exists.mp hasTarget
      obtain ⟨target, isFound, _⟩ := Schedule.exists_node_of_aliasTarget? isTarget
      have targetMember := Graph.mem_nodes_of_node? isFound
      rw [← laid.wired.id_eq isFound] at isTarget isFound
      unfold ofUnit
      simp only [isUnit, laid.wired.node?_id member, made.aliasTargets,
        Schedule.lookup_targets laid member emitted isAlias, isTarget, Option.bind_some, isFound]
      exact .typeAlias isUnit member targetMember emitted isAlias isTarget noItems
  · have isUnit := Schedule.eq_of_mem_blockUnit postamble
    exact ofBlocks (.inr (by rw [isUnit])) (by rw [isUnit])

/-! ## All stretches -/

section Runs

variable (groundwork configuration) (aliasTargets : List (Nat × Nat))

/-- The scopes after units. -/
def scopesAfter (scopes : Scopes) : List ScheduledUnit → Scopes
  | [] => scopes
  | unit :: rest =>
      scopesAfter (ofUnit groundwork configuration aliasTargets scopes unit).2 rest

/-- The units, each with its stretch. -/
def stretches (scopes : Scopes) : List ScheduledUnit → List (ScheduledUnit × List Record)
  | [] => []
  | unit :: rest =>
      (unit, (ofUnit groundwork configuration aliasTargets scopes unit).1) ::
        stretches (ofUnit groundwork configuration aliasTargets scopes unit).2 rest

/-- The records of units are their stretches one after the other. -/
theorem ofUnits_eq_flatMap (scopes : Scopes) (units : List ScheduledUnit) :
    ofUnits groundwork configuration aliasTargets scopes units =
      (stretches groundwork configuration aliasTargets scopes units).flatMap Prod.snd := by
  induction units generalizing scopes with
  | nil => rfl
  | cons unit rest inductionHypothesis =>
      rw [ofUnits, stretches, List.flatMap_cons, ← inductionHypothesis]

theorem map_fst_stretches (scopes : Scopes) (units : List ScheduledUnit) :
    (stretches groundwork configuration aliasTargets scopes units).map Prod.fst = units := by
  induction units generalizing scopes with
  | nil => rfl
  | cons unit rest inductionHypothesis =>
      rw [stretches, List.map_cons, inductionHypothesis]

end Runs

end Record

end Registrar
