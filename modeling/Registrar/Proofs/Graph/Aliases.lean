import Mathlib
import Registrar.Proofs.Emission
import Registrar.Proofs.Graph.Redeclarations
import Registrar.Schedule.Basic

/-!
Contract: what names of types stand for.

Owns: the node that a name stands for through aliases, and that following aliases
for as many steps as there are nodes finds it.

Does not own: which aliases are emitted.

Aliases can lead in a circle, and then the name of none of them stands for a node.
-/

set_option autoImplicit false

namespace Registrar

open ParentLinks

namespace Graph

/-- The node with the name. -/
def named? (graph : Graph) (name : String) : Option Node :=
  (graph.lookup name).bind graph.node?

/-- The name stands for the node: it is that of the node, or of an alias of a name that
stands for it. -/
inductive StandsFor (graph : Graph) : String → Node → Prop where
  | itself {name : String} {node : Node} (named : graph.named? name = some node)
      (notAlias : node.kind.target ≠ .typeAlias) : StandsFor graph name node
  | through {name spelling : String} {mid target : Node} (named : graph.named? name = some mid)
      (isAlias : mid.kind = .typeAlias (some spelling))
      (onwards : StandsFor graph spelling target) : StandsFor graph name target

/-- The node is an alias of the class or enumeration. -/
def IsAliasOf (graph : Graph) (node target : Node) : Prop :=
  ∃ spelling, node.kind = .typeAlias (some spelling) ∧ graph.StandsFor spelling target ∧
    target.IsType

variable {graph : Graph} {name : String} {target : Node}

/-- The last name on the way is that of the node. -/
theorem StandsFor.exists_named (stands : graph.StandsFor name target) :
    (∃ last, graph.named? last = some target) ∧ target.kind.target ≠ .typeAlias := by
  induction stands with
  | @itself name node named notAlias => exact ⟨⟨name, named⟩, notAlias⟩
  | through _ _ _ inductionHypothesis => exact inductionHypothesis

/-! ## Links of aliases -/

/-- What an alias is written to be an alias of. -/
def aliasLink (graph : Graph) (id : Nat) : Option Nat :=
  ((graph.node? id).bind Schedule.aliasSpelling?).bind graph.lookup

theorem aliasSpelling?_eq_some_iff {node : Node} {spelling : String} :
    Schedule.aliasSpelling? node = some spelling ↔ node.kind = .typeAlias (some spelling) := by
  unfold Schedule.aliasSpelling?
  cases node.kind <;> simp

theorem aliasSpelling?_of_notAlias {node : Node} (notAlias : node.kind.target ≠ .typeAlias) :
    Schedule.aliasSpelling? node = none := by
  unfold Schedule.aliasSpelling?
  cases kind : node.kind <;> simp [kind, DeclarationKind.target] at notAlias ⊢

/-- The number is that of a node that is no alias. -/
def IsPlain (graph : Graph) (id : Nat) : Prop :=
  ∃ node, graph.node? id = some node ∧ node.kind.target ≠ .typeAlias

theorem aliasLink_of_isPlain {id : Nat} (plain : graph.IsPlain id) : graph.aliasLink id = none := by
  obtain ⟨node, found, notAlias⟩ := plain
  rw [aliasLink, found, Option.bind_some, aliasSpelling?_of_notAlias notAlias, Option.bind_none]

theorem kind_of_entities (id : Nat) :
    (graph.entities[id]?).map Entity.kind = (graph.node? id).map fun node => node.kind := by
  rw [entities, node?, List.getElem?_map, Option.map_map]
  rfl

/-- One step along aliases, or none where there is no alias. -/
theorem followAliases_succ_iff {steps id reached : Nat} :
    Entity.followAliases graph.entities (steps + 1) id = some reached ↔
      (id = reached ∧ graph.IsPlain reached) ∨
        ∃ next, graph.aliasLink id = some next ∧
          Entity.followAliases graph.entities steps next = some reached := by
  rw [Entity.followAliases, kind_of_entities]
  unfold aliasLink
  cases found : graph.node? id with
  | none =>
      simp only [Option.map_none, Option.bind_none, reduceCtorEq, false_and, exists_false, or_false,
        false_iff]
      rintro ⟨rfl, node, isNode, _⟩
      rw [found] at isNode
      cases isNode
  | some node =>
      have plainIff : id = reached ∧ graph.IsPlain reached ↔
          id = reached ∧ node.kind.target ≠ .typeAlias := by
        refine and_congr_right fun isReached => ?_
        rw [← isReached, IsPlain, found]
        simp
      rw [plainIff]
      simp only [Option.map_some, Option.bind_some, Schedule.aliasSpelling?]
      cases kind : node.kind with
      | typeAlias written =>
          cases written with
          | none => simp [DeclarationKind.target]
          | some spelling => simp [DeclarationKind.target, lookup, Option.bind_eq_some_iff]
      | _ => simp [DeclarationKind.target]

section Wired

variable (wired : graph.Wired)
  (rootPlain : ∀ root, graph.node? Graph.root = some root → root.kind.target ≠ .typeAlias)

include wired

theorem lookup_lt {id : Nat} (found : graph.lookup name = some id) : id < graph.size := by
  have sameLength : graph.entities.length = graph.size := List.length_map _
  have numbered : ∀ (index : Nat) (entity : Entity), graph.entities[index]? = some entity →
      entity.id = index := by
    intro index entity isEntity
    rw [entities, List.getElem?_map, Option.map_eq_some_iff] at isEntity
    obtain ⟨node, isNode, rfl⟩ := isEntity
    exact wired.id_eq isNode
  rw [← sameLength]
  exact Entity.lookup_lt numbered (sameLength ▸ wired.nonempty) found

theorem Wired.aliasLink_lt {id next : Nat} (link : graph.aliasLink id = some next) :
    next < graph.size := by
  obtain ⟨spelling, _, found⟩ := Option.bind_eq_some_iff.mp link
  exact lookup_lt wired found

/-- A name that is found is that of a node. -/
theorem named?_eq_some_iff {node : Node} :
    graph.named? name = some node ↔
      graph.lookup name = some node.id ∧ graph.node? node.id = some node := by
  unfold named?
  rw [Option.bind_eq_some_iff]
  constructor
  · rintro ⟨id, found, isNode⟩
    rw [wired.id_eq isNode]
    exact ⟨found, isNode⟩
  · rintro ⟨found, isNode⟩
    exact ⟨node.id, found, isNode⟩

include rootPlain

/-- Nothing is above the root on a way along aliases, which it is none of. -/
theorem above_aliasLink (id : Nat) : above graph.aliasLink id = graph.aliasLink id := by
  unfold above
  split
  · rename_i isRoot
    obtain ⟨root, found⟩ := node?_of_lt wired.nonempty
    unfold aliasLink
    rw [isRoot, found, Option.bind_some,
      aliasSpelling?_of_notAlias (rootPlain root found), Option.bind_none]
  · rfl

/-- A name stands for what some number of steps along aliases leads to. -/
theorem standsFor_iff_climb :
    graph.StandsFor name target ↔
      ∃ id steps, graph.lookup name = some id ∧
        climb graph.aliasLink steps id = some target.id ∧
        graph.node? target.id = some target ∧ target.kind.target ≠ .typeAlias := by
  constructor
  · intro stands
    induction stands with
    | @itself name node named notAlias =>
        obtain ⟨found, isNode⟩ := (named?_eq_some_iff wired).mp named
        exact ⟨node.id, 0, found, rfl, isNode, notAlias⟩
    | @through name spelling mid target named isAlias onwards inductionHypothesis =>
        obtain ⟨found, isNode⟩ := (named?_eq_some_iff wired).mp named
        obtain ⟨id, steps, next, reaches, isTarget⟩ := inductionHypothesis
        refine ⟨mid.id, steps + 1, found, ?_, isTarget⟩
        rw [climb, above_aliasLink wired rootPlain, aliasLink, isNode, Option.bind_some,
          aliasSpelling?_eq_some_iff.mpr isAlias, Option.bind_some, next, Option.bind_some, reaches]
  · rintro ⟨id, steps, found, reaches, isTarget, notAlias⟩
    induction steps generalizing name id with
    | zero =>
        rw [climb, Option.some.injEq] at reaches
        rw [reaches] at found
        exact .itself ((named?_eq_some_iff wired).mpr ⟨found, isTarget⟩) notAlias
    | succ steps inductionHypothesis =>
        rw [climb, above_aliasLink wired rootPlain, Option.bind_eq_some_iff] at reaches
        obtain ⟨next, link, onwards⟩ := reaches
        obtain ⟨spelling, isSpelling, isNext⟩ := Option.bind_eq_some_iff.mp link
        obtain ⟨mid, isMid, isAlias⟩ := Option.bind_eq_some_iff.mp isSpelling
        have named : graph.named? name = some mid := by
          rw [named?, found, Option.bind_some, isMid]
        exact .through named (aliasSpelling?_eq_some_iff.mp isAlias)
          (inductionHypothesis next isNext onwards)

/-- Following aliases leads to what fewer steps than allowed lead to. -/
theorem followAliases_eq_some_iff {steps id reached : Nat} :
    Entity.followAliases graph.entities steps id = some reached ↔
      ∃ fewer < steps, climb graph.aliasLink fewer id = some reached ∧ graph.IsPlain reached := by
  induction steps generalizing id with
  | zero => simp [Entity.followAliases]
  | succ steps inductionHypothesis =>
      rw [followAliases_succ_iff]
      constructor
      · rintro (⟨rfl, plain⟩ | ⟨next, link, follows⟩)
        · exact ⟨0, Nat.succ_pos steps, rfl, plain⟩
        · obtain ⟨fewer, inside, onwards, plain⟩ := inductionHypothesis.mp follows
          refine ⟨fewer + 1, Nat.succ_lt_succ inside, ?_, plain⟩
          rw [climb, above_aliasLink wired rootPlain, link, Option.bind_some, onwards]
      · rintro ⟨fewer, inside, reaches, plain⟩
        cases fewer with
        | zero => exact .inl ⟨Option.some.inj reaches, plain⟩
        | succ fewer =>
            rw [climb, above_aliasLink wired rootPlain, Option.bind_eq_some_iff] at reaches
            obtain ⟨next, link, onwards⟩ := reaches
            exact .inr ⟨next, link,
              inductionHypothesis.mpr ⟨fewer, Nat.lt_of_succ_lt_succ inside, onwards, plain⟩⟩

/-- A name of a type is resolved to the node that it stands for. -/
theorem resolveType_eq_some_iff {id : Nat} :
    graph.resolveType name = some id ↔
      ∃ target, graph.node? id = some target ∧ graph.StandsFor name target := by
  have size : graph.entities.length = graph.size := List.length_map _
  unfold resolveType Entity.resolveType
  rw [Option.bind_eq_some_iff, size]
  constructor
  · rintro ⟨first, found, follows⟩
    obtain ⟨steps, _, reaches, target, isTarget, notAlias⟩ :=
      (followAliases_eq_some_iff wired rootPlain).mp follows
    rw [← wired.id_eq isTarget] at reaches
    refine ⟨target, isTarget, (standsFor_iff_climb wired rootPlain).mpr
      ⟨first, steps, found, reaches, ?_, notAlias⟩⟩
    rw [wired.id_eq isTarget, isTarget]
  · rintro ⟨target, isTarget, stands⟩
    obtain ⟨first, steps, found, reaches, _, notAlias⟩ :=
      (standsFor_iff_climb wired rootPlain).mp stands
    rw [wired.id_eq isTarget] at reaches
    have plain : graph.IsPlain id := ⟨target, isTarget, notAlias⟩
    have inside := lt_of_climb_to_end (fun _ _ => wired.aliasLink_lt) (lookup_lt wired found)
      reaches (by rw [above_aliasLink wired rootPlain, aliasLink_of_isPlain plain])
    exact ⟨first, found, (followAliases_eq_some_iff wired rootPlain).mpr
      ⟨steps, inside, reaches, plain⟩⟩

/-- What an alias is scheduled for is the class or enumeration that it is an alias of. -/
theorem aliasTarget?_eq_some_iff {node : Node} {id : Nat} :
    Schedule.aliasTarget? graph node = some id ↔
      ∃ target, graph.node? id = some target ∧ graph.IsAliasOf node target := by
  unfold Schedule.aliasTarget?
  rw [Option.filter_eq_some_iff, Option.bind_eq_some_iff]
  constructor
  · rintro ⟨⟨spelling, isSpelling, resolves⟩, isType⟩
    obtain ⟨target, isTarget, stands⟩ := (resolveType_eq_some_iff wired rootPlain).mp resolves
    refine ⟨target, isTarget, spelling, aliasSpelling?_eq_some_iff.mp isSpelling, stands, ?_⟩
    simpa [isTarget, Node.IsType] using isType
  · rintro ⟨target, isTarget, spelling, isAlias, stands, isType⟩
    refine ⟨⟨spelling, aliasSpelling?_eq_some_iff.mpr isAlias, ?_⟩, ?_⟩
    · exact (resolveType_eq_some_iff wired rootPlain).mpr ⟨target, isTarget, stands⟩
    · simpa [isTarget, Node.IsType] using isType

end Wired

/-- The root of a unit is no alias. -/
theorem root_notAlias {unit : TranslationUnit} {table : MarkingTable}
    (built : ofUnit unit table = .ok graph) (root : Node)
    (isRoot : graph.node? Graph.root = some root) : root.kind.target ≠ .typeAlias := by
  obtain ⟨entity, isEntity, rfl⟩ := exists_entity_of_node? built isRoot
  exact DeclarationKind.notAlias_of_canOwn (Entity.canOwn_root isEntity)

end Graph

end Registrar
