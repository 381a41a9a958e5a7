import Mathlib
import Registrar.Proofs.Graph.Aliases
import Registrar.Proofs.Operator

/-!
Contract: the classes that free operators are attached to.

Owns: through which of its operands a free operator is attached to which class, and
when that class is the one that the operand names.

Does not own: what a name of a type stands for, and which slot an operator has.

An operand names the type that its name stands for in the innermost scope where it
stands for one. The look-up for an operator goes on outwards until it finds a class
that is exposed, so a type in an inner scope that is not is passed over for another
of the same name.
-/

set_option autoImplicit false

namespace Registrar

namespace Graph

/-- The node is the wanted one that the first of the names stands for that stands for a
wanted node at all. -/
inductive FirstOf (graph : Graph) (wanted : Node → Prop) : List String → Node → Prop where
  | here {name : String} {outer : List String} {node : Node}
      (stands : graph.StandsFor name node) (isWanted : wanted node) :
      FirstOf graph wanted (name :: outer) node
  | further {name : String} {outer : List String} {node : Node}
      (passed : ∀ other, graph.StandsFor name other → ¬ wanted other)
      (onwards : FirstOf graph wanted outer node) : FirstOf graph wanted (name :: outer) node

/-- What the type of an operand names: the type that its name stands for in the innermost
scope around the operator in which it stands for a type. -/
def NamesType (graph : Graph) (operator : Node) (type : String) (named : Node) : Prop :=
  graph.FirstOf Node.IsType (OperatorTable.candidateNames graph operator type) named

variable {graph : Graph} {wanted wider : Node → Prop} {names : List String} {node : Node}

namespace FirstOf

theorem isWanted (first : graph.FirstOf wanted names node) : wanted node := by
  induction first with
  | here _ isWanted => exact isWanted
  | further _ _ inductionHypothesis => exact inductionHypothesis

/-- A name that stands for no wanted node is passed. -/
theorem cons_iff {name : String}
    (passed : ∀ other, graph.StandsFor name other → ¬ wanted other) :
    graph.FirstOf wanted (name :: names) node ↔ graph.FirstOf wanted names node := by
  constructor
  · intro first
    cases first with
    | here stands isWanted => exact absurd isWanted (passed _ stands)
    | further _ onwards => exact onwards
  · exact .further passed

/-- Where a wanted node is found, so is one if more nodes are wanted. -/
theorem exists_wider (first : graph.FirstOf wanted names node)
    (included : ∀ other, wanted other → wider other) :
    ∃ named, graph.FirstOf wider names named := by
  induction first with
  | here stands isWanted => exact ⟨_, .here stands (included _ isWanted)⟩
  | @further name outer node _ _ inductionHypothesis =>
      by_cases isFound : ∃ other, graph.StandsFor name other ∧ wider other
      · obtain ⟨other, stands, isWider⟩ := isFound
        exact ⟨other, .here stands isWider⟩
      · push Not at isFound
        obtain ⟨named, onwards⟩ := inductionHypothesis
        exact ⟨named, .further isFound onwards⟩

/-- What is found first among more nodes is found first among those that are wanted, if
it is one of them. -/
theorem narrower (first : graph.FirstOf wider names node)
    (included : ∀ other, wanted other → wider other) (isWanted : wanted node) :
    graph.FirstOf wanted names node := by
  induction first with
  | here stands _ => exact .here stands isWanted
  | further passed _ inductionHypothesis =>
      refine .further (fun other stands isOther => ?_) (inductionHypothesis isWanted)
      exact passed other stands (included other isOther)

end FirstOf

section Wired

variable (wired : graph.Wired)
  (rootPlain : ∀ root, graph.node? Graph.root = some root → root.kind.target ≠ .typeAlias)

include wired rootPlain

theorem resolveType_of_standsFor {name : String} (stands : graph.StandsFor name node) :
    graph.resolveType name = some node.id ∧ graph.node? node.id = some node := by
  obtain ⟨last, named⟩ := stands.exists_named.1
  have found := ((named?_eq_some_iff wired).mp named).2
  exact ⟨(resolveType_eq_some_iff wired rootPlain).mpr ⟨node, found, stands⟩, found⟩

/-- A name stands for one node at most. -/
theorem StandsFor.unique {name : String} {other : Node} (stands : graph.StandsFor name node)
    (otherStands : graph.StandsFor name other) : node = other := by
  obtain ⟨resolves, found⟩ := resolveType_of_standsFor wired rootPlain stands
  obtain ⟨otherResolves, otherFound⟩ := resolveType_of_standsFor wired rootPlain otherStands
  rw [resolves, Option.some.injEq] at otherResolves
  rw [← otherResolves, found, Option.some.injEq] at otherFound
  exact otherFound

theorem FirstOf.unique {other : Node} (first : graph.FirstOf wanted names node)
    (otherFirst : graph.FirstOf wanted names other) : node = other := by
  induction first with
  | here stands isWanted =>
      cases otherFirst with
      | here otherStands _ => exact stands.unique wired rootPlain otherStands
      | further passed _ => exact absurd isWanted (passed _ stands)
  | further passed _ inductionHypothesis =>
      cases otherFirst with
      | here otherStands isOther => exact absurd isOther (passed _ otherStands)
      | further _ onwards => exact inductionHypothesis onwards

/-- Looking up names one after the other finds the first wanted node. -/
theorem find?_resolveType_eq_some_iff {test : Nat → Bool} {id : Nat}
    (isTest : ∀ other, graph.node? other.id = some other →
      (test other.id = true ↔ wanted other)) :
    (names.filterMap graph.resolveType).find? test = some id ↔
      ∃ first, first.id = id ∧ graph.FirstOf wanted names first := by
  induction names with
  | nil =>
      simp only [List.filterMap_nil, List.find?_nil, reduceCtorEq, false_iff]
      rintro ⟨first, _, isFirst⟩
      cases isFirst
  | cons name outer inductionHypothesis =>
      cases resolves : graph.resolveType name with
      | none =>
          have passed : ∀ other, graph.StandsFor name other → ¬ wanted other := by
            intro other stands
            rw [(resolveType_of_standsFor wired rootPlain stands).1] at resolves
            cases resolves
          simp only [List.filterMap_cons_none resolves, inductionHypothesis,
            FirstOf.cons_iff passed]
      | some reached =>
          obtain ⟨target, isTarget, stands⟩ :=
            (resolveType_eq_some_iff wired rootPlain).mp resolves
          obtain rfl : target.id = reached := wired.id_eq isTarget
          rw [List.filterMap_cons_some resolves, List.find?_cons]
          cases isTested : test target.id with
          | true =>
              have first : graph.FirstOf wanted (name :: outer) target :=
                .here stands ((isTest target isTarget).mp isTested)
              simp only [Option.some.injEq]
              constructor
              · exact fun same => ⟨target, same, first⟩
              · rintro ⟨other, rfl, otherFirst⟩
                rw [first.unique wired rootPlain otherFirst]
          | false =>
              have passed : ∀ other, graph.StandsFor name other → ¬ wanted other := by
                intro other otherStands
                rw [← stands.unique wired rootPlain otherStands, ← isTest target isTarget,
                  isTested]
                exact Bool.false_ne_true
              simp only [inductionHypothesis, FirstOf.cons_iff passed]

end Wired

end Graph

/-- The node is a class that is emitted. -/
def Node.IsExposedClass (visibility : Visibility) (node : Node) : Prop :=
  node.kind.target = .class ∧ visibility.isEmitted node.id = true

/-- The node is a free operator that can be called, with operands of the types. -/
def Node.IsFreeOperator (node : Node) (symbol : String) (types : List String) : Prop :=
  ∃ signature, node.kind = .operator symbol signature false ∧ signature.isDeleted = false ∧
    signature.parameters.map Parameter.type = types

namespace OperatorTable

/-! ## Statements -/

/-- The class that the look-up for an operand finds: the first exposed one that its name
stands for in the scopes around the operator, from the innermost outwards. -/
def FindsClass (graph : Graph) (visibility : Visibility) (operator : Node) (type : String)
    (found : Node) : Prop :=
  graph.FirstOf (Node.IsExposedClass visibility) (candidateNames graph operator type) found

/-- The free operator is attached to the class through its first operand, of two at most,
that is found to be an exposed class, if it has a slot with that operand. -/
structure AttachedThrough (graph : Graph) (visibility : Visibility) (inheritance : Inheritance)
    (operator : Node) (type : String) (owner : Node) : Prop where
  candidate : operator ∈ candidates graph visibility inheritance
  unnamed : operator.marking.exposeAs = none
  operand : ∃ symbol types before after, operator.IsFreeOperator symbol types ∧
    types.take 2 = before ++ type :: after ∧
    (∀ other ∈ before, ∀ found, ¬ FindsClass graph visibility operator other found) ∧
    FindsClass graph visibility operator type owner ∧
    (OperatorSlot.free? symbol types before.length).isSome = true

/-- The class or enumeration that the type of an operand names. -/
def namedType? (graph : Graph) (operator : Node) (type : String) : Option Nat :=
  ((candidateNames graph operator type).filterMap graph.resolveType).find? fun id =>
    (graph.node? id).any fun node =>
      node.kind.target == .class || node.kind.target == .enum

/-- Every free operator is attached to the class that its operand names. -/
def AttachesAsNamed (graph : Graph) (visibility : Visibility) (inheritance : Inheritance) : Prop :=
  ∀ operator type owner, AttachedThrough graph visibility inheritance operator type owner →
    graph.NamesType operator type owner

/-- The operand names a type that is no exposed class, and that the look-up passes over. -/
def PassesOver (graph : Graph) (visibility : Visibility) (operator : Node) (type : String)
    (hidden : Node) : Prop :=
  graph.NamesType operator type hidden ∧ ¬ hidden.IsExposedClass visibility

variable {graph : Graph} {visibility : Visibility} {inheritance : Inheritance}

/-! ## Operands -/

section Wired

variable (wired : graph.Wired)
  (rootPlain : ∀ root, graph.node? Graph.root = some root → root.kind.target ≠ .typeAlias)

include wired rootPlain

theorem operandClass?_eq_some_iff {operator : Node} {type : String} {id : Nat} :
    operandClass? graph visibility operator type = some id ↔
      ∃ found, found.id = id ∧ FindsClass graph visibility operator type found := by
  refine Graph.find?_resolveType_eq_some_iff wired rootPlain ?_
  intro other isOther
  simp only [isOther, Bool.and_eq_true, beq_iff_eq, Node.IsExposedClass]

theorem namedType?_eq_some_iff {operator : Node} {type : String} {id : Nat} :
    namedType? graph operator type = some id ↔
      ∃ named, named.id = id ∧ graph.NamesType operator type named := by
  refine Graph.find?_resolveType_eq_some_iff wired rootPlain ?_
  intro other isOther
  simp only [isOther, Option.any_some, Bool.or_eq_true, beq_iff_eq, Node.IsType]

theorem operandClass?_eq_none_iff {operator : Node} {type : String} :
    operandClass? graph visibility operator type = none ↔
      ∀ found, ¬ FindsClass graph visibility operator type found := by
  rw [Option.eq_none_iff_forall_ne_some]
  simp only [ne_eq, operandClass?_eq_some_iff wired rootPlain]
  constructor
  · exact fun none found isFound => none found.id ⟨found, rfl, isFound⟩
  · rintro none id ⟨found, _, isFound⟩
    exact none found isFound

theorem firstOperand?_eq_some_iff {operator : Node} {types : List String}
    {position place id : Nat} :
    firstOperand? graph visibility operator position types = some (place, id) ↔
      ∃ before type after, types = before ++ type :: after ∧ place = position + before.length ∧
        (∀ other ∈ before, ∀ found, ¬ FindsClass graph visibility operator other found) ∧
        ∃ found, found.id = id ∧ FindsClass graph visibility operator type found := by
  induction types generalizing position with
  | nil => simp [firstOperand?]
  | cons type rest inductionHypothesis =>
      rw [firstOperand?]
      cases isClass : operandClass? graph visibility operator type with
      | some owner =>
          have isFound := (operandClass?_eq_some_iff wired rootPlain).mp isClass
          constructor
          · rintro ⟨⟩
            exact ⟨[], type, rest, rfl, rfl, by simp, isFound⟩
          · rintro ⟨before, operand, after, isSplit, rfl, none, found⟩
            cases before with
            | nil =>
                obtain ⟨rfl, -⟩ := List.cons.inj isSplit
                rw [(operandClass?_eq_some_iff wired rootPlain).mpr found, Option.some.injEq]
                  at isClass
                rw [isClass]
                rfl
            | cons first before =>
                obtain ⟨rfl, -⟩ := List.cons.inj isSplit
                obtain ⟨earlier, _, isEarlier⟩ := isFound
                exact absurd isEarlier (none type List.mem_cons_self earlier)
      | none =>
          have noneFound := (operandClass?_eq_none_iff wired rootPlain).mp isClass
          dsimp only
          rw [inductionHypothesis]
          constructor
          · rintro ⟨before, operand, after, rfl, rfl, none, found⟩
            refine ⟨type :: before, operand, after, rfl, ?_,
              List.forall_mem_cons.mpr ⟨noneFound, none⟩, found⟩
            rw [List.length_cons]
            omega
          · rintro ⟨before, operand, after, isSplit, rfl, none, found⟩
            cases before with
            | nil =>
                obtain ⟨rfl, -⟩ := List.cons.inj isSplit
                obtain ⟨other, _, isFound⟩ := found
                exact absurd isFound (noneFound other)
            | cons first before =>
                obtain ⟨rfl, rfl⟩ := List.cons.inj isSplit
                refine ⟨before, operand, after, rfl, ?_, (List.forall_mem_cons.mp none).2, found⟩
                rw [List.length_cons]
                omega

end Wired

/-! ## Entries -/

/-- The entry of a member names no class. -/
theorem owner_map_member (slot? : Option OperatorSlot) (id : Nat) :
    (slot?.map fun slot => (⟨id, slot, none⟩ : OperatorEntry)).bind OperatorEntry.owner = none := by
  cases slot? <;> rfl

theorem owner_assignedFree?_iff {operator : Node} {symbol : String} {types : List String}
    {id : Nat} :
    (assignedFree? graph visibility operator symbol types).bind OperatorEntry.owner = some id ↔
      ∃ place, firstOperand? graph visibility operator 0 (types.take 2) = some (place, id) ∧
        (OperatorSlot.free? symbol types place).isSome = true := by
  unfold assignedFree?
  cases firstOperand? graph visibility operator 0 (types.take 2) with
  | none => simp
  | some operand =>
      obtain ⟨place, owner⟩ := operand
      cases slot : OperatorSlot.free? symbol types place with
      | none =>
          simp [slot]
      | some slot =>
          simp [slot]

/-- Only the entry of a free operator names a class. -/
theorem owner_assigned?_iff {operator : Node} {id : Nat} :
    (assigned? graph visibility operator).bind OperatorEntry.owner = some id ↔
      operator.marking.exposeAs = none ∧ ∃ symbol types, operator.IsFreeOperator symbol types ∧
        (assignedFree? graph visibility operator symbol types).bind OperatorEntry.owner =
          some id := by
  unfold assigned?
  cases unnamed : operator.marking.exposeAs with
  | some name => simp
  | none =>
      cases kind : operator.kind with
      | operator symbol signature isMember =>
          cases isMember <;> cases deleted : signature.isDeleted <;>
            simp [Node.IsFreeOperator, kind, deleted, owner_map_member]
      | conversionFunction signature =>
          cases deleted : signature.isDeleted <;>
            simp [Node.IsFreeOperator, kind, deleted, owner_map_member]
      | _ => simp [Node.IsFreeOperator, kind]

/-- The table attaches a node to what the entry of the node names. -/
theorem owner?_ofGraph_iff (wired : graph.Wired) {id owner : Nat} :
    (ofGraph graph visibility inheritance).owner? id = some owner ↔
      ∃ operator ∈ candidates graph visibility inheritance, operator.id = id ∧
        (assigned? graph visibility operator).bind OperatorEntry.owner = some owner := by
  unfold owner?
  rw [Option.bind_eq_some_iff]
  constructor
  · rintro ⟨entry, found, isOwner⟩
    obtain ⟨member, sameNode⟩ := (find?_eq_some_iff wired).mp found
    obtain ⟨operator, candidate, isAssigned⟩ := exists_candidate_of_mem member
    refine ⟨operator, candidate, ?_, ?_⟩
    · rw [← (assigned_of_assigned? isAssigned).node_eq, sameNode]
    · rw [isAssigned, Option.bind_some, isOwner]
  · rintro ⟨operator, candidate, rfl, named⟩
    obtain ⟨entry, isAssigned, isOwner⟩ := Option.bind_eq_some_iff.mp named
    have member : entry ∈ (ofGraph graph visibility inheritance).entries :=
      List.mem_filterMap.mpr ⟨operator, candidate, isAssigned⟩
    exact ⟨entry, (find?_eq_some_iff wired).mpr
      ⟨member, (assigned_of_assigned? isAssigned).node_eq⟩, isOwner⟩

section Wired

variable (wired : graph.Wired)
  (rootPlain : ∀ root, graph.node? Graph.root = some root → root.kind.target ≠ .typeAlias)

include wired rootPlain

/-- The table attaches operators through the operands that are to attach them. -/
theorem owner?_iff_attachedThrough {id owner : Nat} :
    (ofGraph graph visibility inheritance).owner? id = some owner ↔
      ∃ operator type found, operator.id = id ∧ found.id = owner ∧
        AttachedThrough graph visibility inheritance operator type found := by
  rw [owner?_ofGraph_iff wired]
  constructor
  · rintro ⟨operator, candidate, isOperator, named⟩
    obtain ⟨unnamed, symbol, types, isFree, assigned⟩ := owner_assigned?_iff.mp named
    obtain ⟨place, isFirst, hasSlot⟩ := owner_assignedFree?_iff.mp assigned
    obtain ⟨before, type, after, isSplit, isPlace, none, found, isOwner, finds⟩ :=
      (firstOperand?_eq_some_iff wired rootPlain).mp isFirst
    rw [isPlace, Nat.zero_add] at hasSlot
    exact ⟨operator, type, found, isOperator, isOwner, candidate, unnamed,
      symbol, types, before, after, isFree, isSplit, none, finds, hasSlot⟩
  · rintro ⟨operator, type, found, isOperator, isOwner, attached⟩
    obtain ⟨symbol, types, before, after, isFree, isSplit, none, finds, hasSlot⟩ :=
      attached.operand
    refine ⟨operator, attached.candidate, isOperator, owner_assigned?_iff.mpr
      ⟨attached.unnamed, symbol, types, isFree, owner_assignedFree?_iff.mpr
        ⟨before.length, ?_, hasSlot⟩⟩⟩
    exact (firstOperand?_eq_some_iff wired rootPlain).mpr
      ⟨before, type, after, isSplit, (Nat.zero_add _).symm, none, found, isOwner, finds⟩

end Wired

/-! ## Names -/

/-- An operator is attached through an operand that is found to be an exposed class. -/
theorem AttachedThrough.finds {operator owner : Node} {type : String}
    (attached : AttachedThrough graph visibility inheritance operator type owner) :
    FindsClass graph visibility operator type owner := by
  obtain ⟨_, _, _, _, _, _, _, finds, _⟩ := attached.operand
  exact finds

/-- The operand that an operator is attached through is one of its parameters. -/
theorem AttachedThrough.type_mem {operator owner : Node} {type : String} {signature : Signature}
    (attached : AttachedThrough graph visibility inheritance operator type owner)
    (isSignature : operator.kind.signature? = some signature) :
    type ∈ signature.parameters.map Parameter.type := by
  obtain ⟨symbol, types, before, after, ⟨other, kind, _, rfl⟩, isSplit, _⟩ := attached.operand
  rw [kind] at isSignature
  obtain rfl : other = signature := Option.some.inj isSignature
  refine List.mem_of_mem_take (i := 2) ?_
  rw [isSplit]
  exact List.mem_append_right _ List.mem_cons_self

/-- What is found for an operand is what it names if that is an exposed class itself. -/
theorem FindsClass.namesType_iff (wired : graph.Wired)
    (rootPlain : ∀ root, graph.node? Graph.root = some root → root.kind.target ≠ .typeAlias)
    {operator found : Node} {type : String}
    (finds : FindsClass graph visibility operator type found) :
    graph.NamesType operator type found ↔
      ∀ hidden, ¬ PassesOver graph visibility operator type hidden := by
  have included : ∀ other : Node, other.IsExposedClass visibility → other.IsType :=
    fun other isExposed => .inl isExposed.1
  constructor
  · rintro names hidden ⟨namesHidden, notExposed⟩
    rw [namesHidden.unique wired rootPlain names] at notExposed
    exact notExposed finds.isWanted
  · intro noneHidden
    obtain ⟨named, names⟩ := finds.exists_wider included
    have isExposed : named.IsExposedClass visibility := by
      by_contra notExposed
      exact noneHidden named ⟨names, notExposed⟩
    rw [finds.unique wired rootPlain (names.narrower included isExposed)]
    exact names

variable {unit : TranslationUnit} {markings : MarkingTable}

/-- A free operator is attached through its first operand that is found to be an exposed
class. These are the classes that the operands name if and only if no operand that an
operator is attached through names a hidden type, which would be passed over. -/
theorem ofGraph_attachesAsNamed_iff (built : Graph.ofUnit unit markings = .ok graph)
    (visibility : Visibility) (inheritance : Inheritance) :
    (∀ id owner, (ofGraph graph visibility inheritance).owner? id = some owner ↔
      ∃ operator type found, operator.id = id ∧ found.id = owner ∧
        AttachedThrough graph visibility inheritance operator type found) ∧
      (AttachesAsNamed graph visibility inheritance ↔
        ∀ operator type owner,
          AttachedThrough graph visibility inheritance operator type owner →
            ∀ hidden, ¬ PassesOver graph visibility operator type hidden) := by
  have wired := Graph.ofUnit_wired built
  have rootPlain := Graph.root_notAlias built
  refine ⟨fun id owner => owner?_iff_attachedThrough wired rootPlain, ?_⟩
  unfold AttachesAsNamed
  refine forall₃_congr fun operator type owner => forall_congr' fun attached => ?_
  exact attached.finds.namesType_iff wired rootPlain

/-- A class that holds a hidden class and an operator on it, and an exposed class of the
same name around both. -/
def shadowedOperand : TranslationUnit where
  root := { id := 0, kind := .translationUnit, order := 0 }
  others :=
    [ { id := 1, kind := .class [] none, name := "A", qualifiedName := "A", parent := some 0
        order := 1, payloads := [.text "visible"] },
      { id := 2, kind := .class [] none, name := "S", qualifiedName := "S", parent := some 0
        order := 2, payloads := [.text "visible"] },
      { id := 3, kind := .class [] none, name := "A", qualifiedName := "S::A", parent := some 2
        order := 3, payloads := [.text "hidden"] },
      { id := 4
        kind := .operator "-"
          { returnType := "A", parameters := [{ name := "operand", type := "A" }] } false
        name := "operator-", qualifiedName := "S::operator-", parent := some 2, order := 4 } ]
  valid := by decide

/-- The operator is attached to the class that its operand does not name. -/
theorem shadowedOperand_attachesOutside :
    ∃ markings graph, Graph.ofUnit shadowedOperand markings = .ok graph ∧
      (ofGraph graph (Visibility.ofGraph graph {}) ⟨[]⟩).owner? 4 = some 1 ∧
      ¬ AttachesAsNamed graph (Visibility.ofGraph graph {}) ⟨[]⟩ := by
  have isShadowed : (Graph.withTable? shadowedOperand).any (fun (_, graph) =>
      (ofGraph graph (Visibility.ofGraph graph {}) ⟨[]⟩).owner? 4 == some 1 &&
        !(Visibility.ofGraph graph {}).isEmitted 3 &&
        (graph.node? 4).any fun operator => operator.kind.signature?.any fun signature =>
          (signature.parameters.map Parameter.type).all fun type =>
            namedType? graph operator type == some 3) = true := by
    decide +kernel
  obtain ⟨markings, graph, _, isGraph, holds⟩ := Graph.exists_of_any isShadowed
  simp only [Bool.and_eq_true, beq_iff_eq, Bool.not_eq_true', Option.any_eq_true,
    List.all_eq_true] at holds
  obtain ⟨⟨isOwner, notEmitted⟩, node, isNode, signature, isSignature, allNamed⟩ := holds
  refine ⟨markings, graph, isGraph, isOwner, ?_⟩
  have wired := Graph.ofUnit_wired isGraph
  obtain ⟨attaches, exactly⟩ :=
    ofGraph_attachesAsNamed_iff isGraph (Visibility.ofGraph graph {}) ⟨[]⟩
  obtain ⟨operator, type, owner, isOperator, -, attached⟩ := (attaches 4 1).mp isOwner
  have found := wired.node?_id (mem_candidates.mp attached.candidate).1
  rw [isOperator, isNode, Option.some.injEq] at found
  rw [found] at isSignature allNamed
  have named := allNamed type (attached.type_mem isSignature)
  obtain ⟨hidden, isHidden, names⟩ :=
    (namedType?_eq_some_iff wired (Graph.root_notAlias isGraph)).mp named
  rw [exactly]
  intro nonePassed
  refine nonePassed operator type owner attached hidden ⟨names, fun isExposed => ?_⟩
  rw [← isHidden, isExposed.2] at notEmitted
  cases notEmitted

end OperatorTable

end Registrar
