import Mathlib
import Registrar.Proofs.Graph.Aliases
import Registrar.Proofs.Graph.Rounds

/-!
Contract: when a name of a type is resolved.

Owns: the way from a name through aliases, that a name is resolved exactly if its way ends at a
node that is no alias, how a way comes to nothing, and that the bound on its steps never matters.

Does not own: what is made of the node that is found.

Each alias leads to one node at most. So a way that does not end returns to a node, and does so
within as many steps as there are nodes.
-/

set_option autoImplicit false

namespace Registrar.Graph

open ParentLinks

/-- The node is an alias of a name that is that of the other. -/
def AliasLeads (graph : Graph) (node next : Node) : Prop :=
  ∃ spelling, node.kind = .typeAlias (some spelling) ∧ graph.named? spelling = some next

/-- The way from the name meets the node: it begins with the node that has the name, and goes from
alias to alias. -/
def Meets (graph : Graph) (name : String) (node : Node) : Prop :=
  ∃ first, graph.named? name = some first ∧ Relation.ReflTransGen graph.AliasLeads first node

/-- The node leads nowhere: it is an alias of nothing, or of a name that is not found. -/
def IsDeadEnd (graph : Graph) (node : Node) : Prop :=
  node.kind = .typeAlias none ∨
    ∃ spelling, node.kind = .typeAlias (some spelling) ∧ graph.lookup spelling = none

/-- What a name is resolved to is where its way ends, however long the way is. -/
structure ResolvesExactly (graph : Graph) (name : String) : Prop where
  /-- A name is resolved to the node that is no alias and that its way meets. -/
  some_iff : ∀ id, graph.resolveType name = some id ↔
    ∃ target, target.id = id ∧ graph.Meets name target ∧ target.kind.target ≠ .typeAlias
  /-- A name is not resolved if it is not found, or if its way meets a dead end or an alias that
  leads back to itself. -/
  none_iff : graph.resolveType name = none ↔ graph.lookup name = none ∨
    ∃ met, graph.Meets name met ∧
      (graph.IsDeadEnd met ∨ Relation.TransGen graph.AliasLeads met met)
  /-- Whatever is found within some number of steps is found within as many as there are nodes. -/
  unbounded : ∀ steps id,
    (graph.lookup name).bind (Entity.followAliases graph.entities steps) = some id →
      graph.resolveType name = some id

variable {graph : Graph} {name : String} {node next top : Node}

theorem rightUnique_aliasLeads : Relator.RightUnique graph.AliasLeads := by
  rintro node left right ⟨spelling, isAlias, isLeft⟩ ⟨other, isOther, isRight⟩
  rw [isAlias] at isOther
  cases isOther
  exact Option.some.inj (isLeft.symm.trans isRight)

/-- Only an alias leads on. -/
theorem not_aliasLeads_of_notAlias (notAlias : node.kind.target ≠ .typeAlias) :
    ¬ graph.AliasLeads node next := by
  rintro ⟨spelling, isAlias, _⟩
  rw [isAlias] at notAlias
  exact notAlias rfl

theorem IsDeadEnd.not_aliasLeads (isDeadEnd : graph.IsDeadEnd node) :
    ¬ graph.AliasLeads node next := by
  rintro ⟨spelling, isAlias, named⟩
  rcases isDeadEnd with isNone | ⟨other, isOther, notFound⟩
  · rw [isNone] at isAlias
    cases isAlias
  · rw [isAlias] at isOther
    cases isOther
    rw [named?, notFound] at named
    cases named

theorem IsDeadEnd.isAlias (isDeadEnd : graph.IsDeadEnd node) : node.kind.target = .typeAlias := by
  rcases isDeadEnd with isAlias | ⟨_, isAlias, _⟩ <;> rw [isAlias] <;> rfl

/-- A name stands for what its way meets and is no alias. -/
theorem standsFor_iff_meets :
    graph.StandsFor name top ↔ graph.Meets name top ∧ top.kind.target ≠ .typeAlias := by
  constructor
  · intro stands
    induction stands with
    | itself named notAlias => exact ⟨⟨_, named, .refl⟩, notAlias⟩
    | through named isAlias _ inductionHypothesis =>
        obtain ⟨⟨first, isFirst, way⟩, notAlias⟩ := inductionHypothesis
        exact ⟨⟨_, named, .head ⟨_, isAlias, isFirst⟩ way⟩, notAlias⟩
  · rintro ⟨⟨first, named, way⟩, notAlias⟩
    induction way using Relation.ReflTransGen.head_induction_on generalizing name with
    | refl => exact .itself named notAlias
    | head step _ inductionHypothesis =>
        obtain ⟨spelling, isAlias, isNext⟩ := step
        exact .through named isAlias (inductionHypothesis isNext)

/-! ## Ways that come to nothing -/

/-- A way that ends at a node that is no alias meets neither a dead end nor a circle: each of them
would be met before that end or behind it. -/
theorem Meets.of_end {met : Node} (meets : graph.Meets name met) (ends : graph.Meets name top)
    (notAlias : top.kind.target ≠ .typeAlias) :
    Relation.ReflTransGen graph.AliasLeads met top := by
  obtain ⟨first, named, toMet⟩ := meets
  obtain ⟨other, isOther, toTop⟩ := ends
  rw [named, Option.some.injEq] at isOther
  subst isOther
  rcases Relation.ReflTransGen.total_of_right_unique rightUnique_aliasLeads toMet toTop with
    onwards | back
  · exact onwards
  · rcases back.cases_head with rfl | ⟨next, step, _⟩
    · exact .refl
    · exact absurd step (not_aliasLeads_of_notAlias notAlias)

theorem IsDeadEnd.not_meets_end (isDeadEnd : graph.IsDeadEnd node) (meets : graph.Meets name node)
    (ends : graph.Meets name top) (notAlias : top.kind.target ≠ .typeAlias) : False := by
  rcases (meets.of_end ends notAlias).cases_head with rfl | ⟨next, step, _⟩
  · exact notAlias isDeadEnd.isAlias
  · exact isDeadEnd.not_aliasLeads step

theorem not_meets_end_of_circle (returns : Relation.TransGen graph.AliasLeads node node)
    (meets : graph.Meets name node) (ends : graph.Meets name top)
    (notAlias : top.kind.target ≠ .typeAlias) : False := by
  have back := reflTransGen_back rightUnique_aliasLeads returns (meets.of_end ends notAlias)
  have leaves : ∃ next, graph.AliasLeads top next := by
    rcases back.cases_head with rfl | ⟨next, step, _⟩
    · obtain ⟨next, step, _⟩ := Relation.TransGen.head'_iff.mp returns
      exact ⟨next, step⟩
    · exact ⟨next, step⟩
  exact not_aliasLeads_of_notAlias notAlias leaves.choose_spec

/-! ## Counted steps -/

section Wired

variable (wired : graph.Wired)
  (rootPlain : ∀ root, graph.node? Graph.root = some root → root.kind.target ≠ .typeAlias)

include wired

theorem node?_of_named? (named : graph.named? name = some node) :
    graph.node? node.id = some node :=
  ((named?_eq_some_iff wired).mp named).2

theorem aliasLink_eq_some_iff {id : Nat} (isNode : graph.node? node.id = some node) :
    graph.aliasLink node.id = some id ↔
      ∃ next, graph.AliasLeads node next ∧ graph.node? id = some next := by
  rw [aliasLink, isNode, Option.bind_some, Option.bind_eq_some_iff]
  constructor
  · rintro ⟨spelling, isSpelling, found⟩
    obtain ⟨next, isNext⟩ := node?_of_lt (lookup_lt wired found)
    refine ⟨next, ⟨spelling, aliasSpelling?_eq_some_iff.mp isSpelling, ?_⟩, isNext⟩
    rw [named?, found, Option.bind_some, isNext]
  · rintro ⟨next, ⟨spelling, isAlias, named⟩, isNext⟩
    refine ⟨spelling, aliasSpelling?_eq_some_iff.mpr isAlias, ?_⟩
    rw [((named?_eq_some_iff wired).mp named).1, wired.id_eq isNext]

omit wired in
/-- An alias without a link is a dead end. -/
theorem isDeadEnd_of_aliasLink (isNode : graph.node? node.id = some node)
    (ends : graph.aliasLink node.id = none) (isAlias : node.kind.target = .typeAlias) :
    graph.IsDeadEnd node := by
  rw [aliasLink, isNode, Option.bind_some] at ends
  cases kind : node.kind with
  | typeAlias target =>
      cases target with
      | none => exact .inl kind
      | some spelling =>
          rw [aliasSpelling?_eq_some_iff.mpr kind, Option.bind_some] at ends
          exact .inr ⟨spelling, kind, ends⟩
  | _ => simp [kind, DeclarationKind.target] at isAlias

include rootPlain

/-- Steps by number lead along the way of aliases. -/
theorem reflTransGen_of_climb {steps id : Nat} (isNode : graph.node? node.id = some node)
    (reaches : climb graph.aliasLink steps node.id = some id) :
    ∃ top, graph.node? id = some top ∧ Relation.ReflTransGen graph.AliasLeads node top ∧
      (0 < steps → Relation.TransGen graph.AliasLeads node top) := by
  induction steps generalizing node with
  | zero =>
      rw [climb, Option.some.injEq] at reaches
      exact ⟨node, reaches ▸ isNode, .refl, fun positive => absurd positive (Nat.lt_irrefl 0)⟩
  | succ steps inductionHypothesis =>
      rw [climb, above_aliasLink wired rootPlain, Option.bind_eq_some_iff] at reaches
      obtain ⟨nextId, link, onwards⟩ := reaches
      obtain ⟨next, leads, isNext⟩ := (aliasLink_eq_some_iff wired isNode).mp link
      obtain rfl := wired.id_eq isNext
      obtain ⟨top, isTop, way, _⟩ := inductionHypothesis isNext onwards
      exact ⟨top, isTop, .head leads way, fun _ => .head' leads way⟩

/-- A way along aliases ends at a node that is no alias or at a dead end, or it comes back to a
node that it met. -/
theorem exists_outcome (isNode : graph.node? node.id = some node) :
    ∃ met, Relation.ReflTransGen graph.AliasLeads node met ∧
      (met.kind.target ≠ .typeAlias ∨ graph.IsDeadEnd met ∨
        Relation.TransGen graph.AliasLeads met met) := by
  have inside := node?_lt isNode
  have inRange : ∀ id parent, graph.aliasLink id = some parent → parent < graph.size :=
    fun _ _ => wired.aliasLink_lt
  cases reaches : climb graph.aliasLink graph.size node.id with
  | some reached =>
      obtain ⟨period, positive, _, returns⟩ := exists_period inRange inside reaches
      obtain ⟨met, isMet, way, _⟩ := reflTransGen_of_climb wired rootPlain isNode reaches
      obtain rfl := wired.id_eq isMet
      obtain ⟨again, isAgain, _, round⟩ := reflTransGen_of_climb wired rootPlain isMet returns
      rw [isMet, Option.some.injEq] at isAgain
      subst isAgain
      exact ⟨met, way, .inr (.inr (round positive))⟩
  | none =>
      obtain ⟨steps, _, last, reached, ends⟩ := exists_end reaches
      obtain ⟨met, isMet, way, _⟩ := reflTransGen_of_climb wired rootPlain isNode reached
      obtain rfl := wired.id_eq isMet
      rw [above_aliasLink wired rootPlain] at ends
      by_cases isAlias : met.kind.target = .typeAlias
      · exact ⟨met, way, .inr (.inl (isDeadEnd_of_aliasLink isMet ends isAlias))⟩
      · exact ⟨met, way, .inl isAlias⟩

/-! ## Resolution -/

theorem resolveType_eq_some_iff_meets {id : Nat} :
    graph.resolveType name = some id ↔
      ∃ target, target.id = id ∧ graph.Meets name target ∧ target.kind.target ≠ .typeAlias := by
  rw [resolveType_eq_some_iff wired rootPlain]
  constructor
  · rintro ⟨target, isTarget, stands⟩
    exact ⟨target, wired.id_eq isTarget, standsFor_iff_meets.mp stands⟩
  · rintro ⟨target, rfl, ends⟩
    have stands := standsFor_iff_meets.mpr ends
    obtain ⟨⟨last, named⟩, _⟩ := stands.exists_named
    exact ⟨target, node?_of_named? wired named, stands⟩

theorem resolveType_eq_none_iff :
    graph.resolveType name = none ↔ graph.lookup name = none ∨
      ∃ met, graph.Meets name met ∧
        (graph.IsDeadEnd met ∨ Relation.TransGen graph.AliasLeads met met) := by
  constructor
  · intro unresolved
    cases found : graph.lookup name with
    | none => exact .inl rfl
    | some id =>
        right
        obtain ⟨first, isFirst⟩ := node?_of_lt (lookup_lt wired found)
        have named : graph.named? name = some first := by
          rw [named?, found, Option.bind_some, isFirst]
        obtain ⟨met, way, outcome⟩ :=
          exists_outcome wired rootPlain (node?_of_named? wired named)
        have meets : graph.Meets name met := ⟨first, named, way⟩
        refine ⟨met, meets, outcome.resolve_left fun notAlias => ?_⟩
        have resolved := (resolveType_eq_some_iff_meets wired rootPlain).mpr
          ⟨met, rfl, meets, notAlias⟩
        rw [unresolved] at resolved
        cases resolved
  · rintro comesToNothing
    rw [← Option.not_isSome_iff_eq_none, Option.isSome_iff_exists]
    rintro ⟨id, resolved⟩
    obtain ⟨target, _, ends, notAlias⟩ :=
      (resolveType_eq_some_iff_meets wired rootPlain).mp resolved
    rcases comesToNothing with notFound | ⟨met, meets, isDeadEnd | returns⟩
    · obtain ⟨first, named, _⟩ := ends
      rw [named?, notFound] at named
      cases named
    · exact isDeadEnd.not_meets_end meets ends notAlias
    · exact not_meets_end_of_circle returns meets ends notAlias

/-- More steps than there are nodes find nothing more. -/
theorem resolveType_of_followAliases {steps id : Nat}
    (follows : (graph.lookup name).bind (Entity.followAliases graph.entities steps) = some id) :
    graph.resolveType name = some id := by
  obtain ⟨first, found, follows⟩ := Option.bind_eq_some_iff.mp follows
  obtain ⟨fewer, _, reaches, target, isTarget, notAlias⟩ :=
    (followAliases_eq_some_iff wired rootPlain).mp follows
  obtain rfl := wired.id_eq isTarget
  exact (resolveType_eq_some_iff wired rootPlain).mpr ⟨target, isTarget,
    (standsFor_iff_climb wired rootPlain).mpr ⟨first, fewer, found, reaches, isTarget, notAlias⟩⟩

end Wired

/-- In the graph of a unit a name of a type is resolved to where its way through aliases ends, and
is not resolved exactly if it is not found or its way comes to nothing. -/
theorem ofUnit_resolvesExactly {unit : TranslationUnit} {table : MarkingTable}
    (built : ofUnit unit table = .ok graph) (name : String) : graph.ResolvesExactly name where
  some_iff := fun _ => resolveType_eq_some_iff_meets (ofUnit_wired built) (root_notAlias built)
  none_iff := resolveType_eq_none_iff (ofUnit_wired built) (root_notAlias built)
  unbounded := fun _ _ => resolveType_of_followAliases (ofUnit_wired built) (root_notAlias built)

/-- A chain of aliases that lead to a class, and a circle of them. -/
def chainedAliases : TranslationUnit where
  root := { id := 0, kind := .translationUnit, order := 0 }
  others :=
    [ { id := 1, kind := .typeAlias (some "B"), name := "C", qualifiedName := "C", parent := some 0
        order := 1 },
      { id := 2, kind := .typeAlias (some "::A"), name := "B", qualifiedName := "B"
        parent := some 0, order := 2 },
      { id := 3, kind := .class [] none, name := "A", qualifiedName := "A", parent := some 0
        order := 3 },
      { id := 4, kind := .typeAlias (some "E"), name := "D", qualifiedName := "D", parent := some 0
        order := 4 },
      { id := 5, kind := .typeAlias (some "D"), name := "E", qualifiedName := "E", parent := some 0
        order := 5 } ]
  valid := by decide

theorem chainedAliases_resolvesExactly :
    ∃ table graph, ofUnit chainedAliases table = .ok graph ∧
      (graph.ResolvesExactly "C" ∧ graph.resolveType "C" = some 3) ∧
      graph.ResolvesExactly "D" ∧ graph.resolveType "D" = none := by
  have resolved : (withTable? chainedAliases).any (fun (_, graph) =>
      graph.resolveType "C" == some 3 && graph.resolveType "D" == none) = true := by
    decide +kernel
  obtain ⟨table, graph, _, built, holds⟩ := exists_of_any resolved
  rw [Bool.and_eq_true, beq_iff_eq, beq_iff_eq] at holds
  exact ⟨table, graph, built, ⟨ofUnit_resolvesExactly built "C", holds.1⟩,
    ofUnit_resolvesExactly built "D", holds.2⟩

end Registrar.Graph
