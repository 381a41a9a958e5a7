import Mathlib
import Registrar.Proofs.Inheritance.Lineage

/-!
Contract: the access of the bases on the way to a supertype.

Owns: when every supertype that a class is registered with is one that it can be
converted to.

Does not own: which supertypes these are.

A base is kept only if it is public. Whether an inlined base is public is not asked,
and what it hands on may be out of reach for the class that inlines it.
-/

set_option autoImplicit false

namespace Registrar.Inheritance

variable {graph : Graph} {visibility : Visibility} {configuration : Configuration}
  {inheritance : Inheritance}

/-- The one class has the other as a public base, whatever it does with it. -/
def HasPublicBase (graph : Graph) (id base : Nat) : Prop :=
  ∃ node, graph.node? id = some node ∧
    ∃ use ∈ usesOf graph node, use.node = some base ∧ use.access = .public

/-- Public bases lead from the one class to the other. -/
def PubliclyDerives (graph : Graph) (id supertype : Nat) : Prop :=
  Relation.TransGen (HasPublicBase graph) id supertype

/-- Public bases lead from each class to what it is registered with. -/
def RegistersPublicly (graph : Graph) (inheritance : Inheritance) : Prop :=
  ∀ id, ∀ supertype ∈ inheritance.registered id, PubliclyDerives graph id supertype

/-- Where a class inlines a base that is not public, public bases lead from the class to
what the base is registered with all the same. -/
def HandsOnPublicly (graph : Graph) (inheritance : Inheritance) : Prop :=
  ∀ id base, (inheritance.get? id).isSome = true → Inlines graph id base →
    ¬ HasPublicBase graph id base →
      ∀ supertype ∈ inheritance.registered base, PubliclyDerives graph id supertype

theorem Keeps.hasPublicBase {id base : Nat} (keeps : Keeps graph id base) :
    HasPublicBase graph id base := by
  obtain ⟨node, found, use, isUse, isBase, _, isPublic⟩ := keeps
  exact ⟨node, found, use, isUse, isBase, isPublic⟩

/-- Public bases lead to all supertypes exactly if they lead from each class that inlines
a base that is not public to what this base hands on. -/
theorem ofGraph_registersPublicly_iff {unit : TranslationUnit} {table : MarkingTable}
    (isGraph : Graph.ofUnit unit table = .ok graph)
    (built : (ofGraph graph visibility configuration).1 = .ok inheritance) :
    RegistersPublicly graph inheritance ↔ HandsOnPublicly graph inheritance := by
  have wired := Graph.ofUnit_wired isGraph
  constructor
  · intro publicly id base followed inlines _ supertype isHandedOn
    exact publicly id supertype (registered_subset wired built followed (.single inlines) isHandedOn)
  · intro handsOn id supertype isRegistered
    have followed := get?_isSome_of_registered isRegistered
    -- The bases of a class that are inlined have fewer ways to go on than the class.
    induction accessible_of_get? wired built followed with
    | intro id _ inductionHypothesis =>
        rcases registered_cases wired built isRegistered with keeps | ⟨base, inlines, isHandedOn⟩
        · exact .single keeps.hasPublicBase
        · by_cases isPublic : HasPublicBase graph id base
          · have onwards := inductionHypothesis base inlines isHandedOn
              (get?_isSome_of_registered isHandedOn)
            exact onwards.head isPublic
          · exact handsOn id base followed inlines isPublic supertype isHandedOn

/-- The last class inlines a private base, which keeps the first class. -/
def inlinedPrivateBase : TranslationUnit where
  root := { id := 0, kind := .translationUnit, order := 0 }
  others :=
    [ { id := 1, kind := .class [] none, name := "A", qualifiedName := "A", parent := some 0
        order := 1, payloads := [.text "visible"] },
      { id := 2, kind := .class [{ qualifiedName := "A" }] none, name := "B"
        qualifiedName := "B", parent := some 0, order := 2 },
      { id := 3, kind := .class [{ qualifiedName := "B", access := .private }] none, name := "C"
        qualifiedName := "C", parent := some 0, order := 3
        payloads := [.text "visible", .text "inline_base"] } ]
  valid := by decide

theorem inlinedPrivateBase_registersPrivately :
    ∃ table graph inheritance, Graph.ofUnit inlinedPrivateBase table = .ok graph ∧
      (ofGraph graph (Visibility.ofGraph graph {}) {}).1 = .ok inheritance ∧
      inheritance.registered 3 = [1] ∧ ¬ RegistersPublicly graph inheritance := by
  obtain ⟨table, graph, inheritance, gained, isGraph, built, found, holds⟩ :=
    @exists_of_any 3 inlinedPrivateBase (fun graph gained => gained.registered == [1] &&
      (graph.node? 3).any fun node => (usesOf graph node).all fun use => use.access != .public)
      (by decide +kernel)
  rw [Bool.and_eq_true, beq_iff_eq, Option.any_eq_true] at holds
  obtain ⟨isRegistered, node, isNode, isPrivate⟩ := holds
  rw [List.all_eq_true] at isPrivate
  have registers : inheritance.registered 3 = [1] := by
    rw [registered, found]
    exact isRegistered
  have noPublicBase : ∀ base, ¬ HasPublicBase graph 3 base := by
    rintro base ⟨other, isOther, use, isUse, _, isPublic⟩
    rw [isNode, Option.some.injEq] at isOther
    simpa [isPublic] using isPrivate use (isOther ▸ isUse)
  refine ⟨table, graph, inheritance, isGraph, built, registers, ?_⟩
  rw [ofGraph_registersPublicly_iff isGraph built]
  intro handsOn
  have listed : 1 ∈ inheritance.registered 3 := registers ▸ List.mem_singleton_self 1
  rcases registered_cases (Graph.ofUnit_wired isGraph) built listed with
    keeps | ⟨base, inlines, isHandedOn⟩
  · exact noPublicBase 1 keeps.hasPublicBase
  · obtain ⟨first, isFirst, _⟩ := Relation.TransGen.head'_iff.mp
      (handsOn 3 base (get?_isSome_of_registered listed) inlines (noPublicBase base) 1
        isHandedOn)
    exact noPublicBase first isFirst

end Registrar.Inheritance
