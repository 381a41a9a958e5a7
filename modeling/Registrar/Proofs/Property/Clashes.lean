import Mathlib
import Registrar.Proofs.Inheritance.Lineage
import Registrar.Proofs.Property.Pairing

/-!
Contract: when accessors cannot be made into properties.

Owns: what can be wrong with the accessors of a class, told by what each of them says,
and that there are properties unless some emitted class has something wrong with its own.

Does not own: which fault tells of it.

A role is taken as often as it is said to be. So it is taken twice where two accessors
say that they have it, and also where one of them says so twice.
-/

set_option autoImplicit false

namespace Registrar

namespace Property

variable {graph : Graph} {visibility : Visibility} {configuration : Configuration}
  {inheritance : Inheritance} {node : Node}

/-! ## What can be wrong -/

/-- The method is an accessor of the class and says that it has the role of the property. -/
def IsClaimedBy (graph : Graph) (inheritance : Inheritance) (node : Node) (role : Role)
    (name : String) (method : Node) : Prop :=
  IsAccessorOf graph inheritance node method ∧ name ∈ role.claims method

/-- Two accessors of the class have one role of a property, or a property is written and
not read. -/
inductive Clash (graph : Graph) (inheritance : Inheritance) (node : Node) : Prop where
  | shared (role : Role) (name : String) (left right : Node) (different : left ≠ right)
      (isLeft : IsClaimedBy graph inheritance node role name left)
      (isRight : IsClaimedBy graph inheritance node role name right)
  | unread (name : String) (setter : Node)
      (isSetter : IsClaimedBy graph inheritance node .setter name setter)
      (noGetter : ∀ getter, ¬ IsClaimedBy graph inheritance node .getter name getter)

/-- An accessor of the class says twice that it has one role of one property. -/
def Repeats (graph : Graph) (inheritance : Inheritance) (node : Node) : Prop :=
  ∃ method, IsAccessorOf graph inheritance node method ∧
    ∃ role : Role, ¬ (role.claims method).Nodup

/-! ## Roles -/

theorem Role.forall_iff {holds : Role → Prop} :
    (∀ role, holds role) ↔ holds .getter ∧ holds .setter :=
  ⟨fun all => ⟨all _, all _⟩, fun both role => by cases role; exacts [both.1, both.2]⟩

/-- No role is taken twice exactly if each method says everything once, and no two say the
same. -/
theorem pairwise_accessors_iff {methods : List Node} :
    (accessors methods).Pairwise (fun first second => ¬ second.SameRole first) ↔
      (∀ method ∈ methods, ∀ role : Role, (role.claims method).Nodup) ∧
        methods.Pairwise fun left right =>
          ∀ role : Role, ∀ name ∈ role.claims left, name ∉ role.claims right := by
  unfold accessors
  rw [List.pairwise_flatMap]
  refine and_congr (forall₂_congr fun method _ => ?_) (List.Pairwise.iff fun left right => ?_)
  · rw [List.pairwise_append, List.pairwise_map, List.pairwise_map, Role.forall_iff, ← and_assoc]
    refine (and_iff_left ?_).trans ?_
    · -- What a method reads and what it writes are in different roles.
      simp only [List.forall_mem_map, Accessor.SameRole]
      simp
    · simp [Accessor.SameRole, Role.claims, List.nodup_iff_pairwise_ne, eq_comm]
  · simp only [List.forall_mem_append, List.forall_mem_map, Role.forall_iff, Role.claims,
      Accessor.SameRole, reduceCtorEq, and_false, and_true, not_false_eq_true, implies_true,
      true_and]
    exact and_congr (forall₂_congr fun _ _ => List.forall_mem_ne')
      (forall₂_congr fun _ _ => List.forall_mem_ne')

theorem isTaken_accessors_iff {methods : List Node} {role : Role} {name : String} :
    IsTaken (accessors methods) role name ↔ ∃ method ∈ methods, name ∈ role.claims method := by
  constructor
  · rintro ⟨accessor, listed, rfl, rfl⟩
    obtain ⟨isMethod, claimed⟩ := mem_accessors_iff.mp listed
    exact ⟨accessor.method, isMethod, claimed⟩
  · rintro ⟨method, isMethod, claimed⟩
    exact ⟨⟨method, name, role⟩, mem_accessors_iff.mpr ⟨isMethod, claimed⟩, rfl, rfl⟩

/-! ## The accessors of a class -/

/-- No method is an accessor of a class twice: what the class takes from bases is not its
own. -/
theorem accessorMethods_nodup (wired : graph.Wired)
    (inherited : (Inheritance.ofGraph graph visibility configuration).1 = .ok inheritance)
    (isNode : node ∈ graph.nodes) : (accessorMethods graph inheritance node).Nodup := by
  have isNumbered : ∀ id ∈ (inheritance.inherited node.id).map Member.node, id < graph.size := by
    intro id listed
    obtain ⟨used, taken, rfl⟩ := List.mem_map.mp listed
    obtain ⟨base, baseNode, _, _, _, inlinable⟩ :=
      Inheritance.exists_base_of_inherited wired inherited taken
    obtain ⟨child, selected, sameId⟩ := List.mem_map.mp inlinable
    rw [← sameId]
    exact Graph.node?_lt (wired.node?_id
      (Graph.mem_nodes_of_childrenOf (List.mem_of_mem_filter selected)))
  unfold accessorMethods
  refine List.Nodup.filter _ (List.Nodup.append ?_ ?_ ?_)
  · exact (wired.childrenOf_nodup isNode).filter _
  · refine List.Nodup.of_map (fun method => method.id) ?_
    rw [wired.map_id_nodesOf isNumbered]
    exact Inheritance.inherited_nodup wired inherited node.id
  · intro method own taken
    obtain ⟨id, listed, found⟩ := Graph.mem_nodesOf.mp taken
    obtain ⟨used, isUsed, sameId⟩ := List.mem_map.mp listed
    refine Inheritance.ne_of_mem_inherited wired inherited isNode (List.mem_of_mem_filter own)
      isUsed ?_
    rw [sameId, wired.id_eq found]

/-- Something is wrong with the accessors of a class exactly if two of them clash or one
repeats itself. -/
theorem faults_ne_nil_iff (wired : graph.Wired)
    (inherited : (Inheritance.ofGraph graph visibility configuration).1 = .ok inheritance)
    (isNode : node ∈ graph.nodes) :
    faults (accessors (accessorMethods graph inheritance node)) ≠ [] ↔
      Clash graph inheritance node ∨ Repeats graph inheritance node := by
  have isAccessor (method : Node) := @mem_accessorMethods_iff graph inheritance node method wired
    isNode
  rw [Ne, faults_eq_nil_iff, pairwise_accessors_iff]
  simp only [isTaken_accessors_iff]
  constructor
  · intro isWrong
    by_contra nothing
    rw [not_or] at nothing
    refine isWrong ⟨⟨?_, ?_⟩, ?_⟩
    · intro method listed role
      by_contra twice
      exact nothing.2 ⟨method, (isAccessor method).mp listed, role, twice⟩
    · refine (accessorMethods_nodup wired inherited isNode).pairwise_of_forall_ne ?_
      intro left isLeft right isRight different role name claimsLeft claimsRight
      exact nothing.1 (.shared role name left right different
        ⟨(isAccessor left).mp isLeft, claimsLeft⟩ ⟨(isAccessor right).mp isRight, claimsRight⟩)
    · rintro name ⟨setter, isSetter, claims⟩
      by_contra unread
      refine nothing.1 (.unread name setter ⟨(isAccessor setter).mp isSetter, claims⟩ ?_)
      rintro getter ⟨isGetter, claimsGetter⟩
      exact unread ⟨getter, (isAccessor getter).mpr isGetter, claimsGetter⟩
  · rintro (clash | ⟨method, isMethod, role, twice⟩) ⟨⟨onceEach, apart⟩, allRead⟩
    · cases clash with
      | shared role name left right different isLeft isRight =>
          have : Std.Symm fun left right : Node =>
              ∀ role : Role, ∀ name ∈ role.claims left, name ∉ role.claims right :=
            ⟨fun _ _ apart role name claimsRight claimsLeft =>
              apart role name claimsLeft claimsRight⟩
          exact apart.forall ((isAccessor left).mpr isLeft.1) ((isAccessor right).mpr isRight.1)
            different role name isLeft.2 isRight.2
      | unread name setter isSetter noGetter =>
          obtain ⟨getter, isGetter, claims⟩ :=
            allRead name ⟨setter, (isAccessor setter).mpr isSetter.1, isSetter.2⟩
          exact noGetter getter ⟨(isAccessor getter).mp isGetter, claims⟩
    · exact twice (onceEach method ((isAccessor method).mpr isMethod) role)

end Property

/-! ## The table -/

namespace PropertyTable

variable {unit : TranslationUnit} {markings : MarkingTable} {graph : Graph}
  {visibility other : Visibility} {configuration : Configuration} {inheritance : Inheritance}

/-- There is no table exactly if something is wrong with the accessors of an emitted
class. -/
theorem exists_error_iff (wired : graph.Wired) :
    (∃ faults, ofGraph graph visibility inheritance = .error faults) ↔
      ∃ node ∈ graph.nodes, visibility.isEmitted node.id = true ∧ node.kind.target = .class ∧
        Property.faults (Property.accessors
          (Property.accessorMethods graph inheritance node)) ≠ [] := by
  rw [exists_error_iff_not_ok, exists_ofGraph_iff]
  constructor
  · intro isWrong
    push Not at isWrong
    obtain ⟨id, listed, node, found, hasFaults⟩ := isWrong
    obtain ⟨isEmitted, same, isSame, isClass⟩ := (Inheritance.mem_emittedClasses wired).mp listed
    obtain rfl : node = same := Option.some.inj (found.symm.trans isSame)
    exact ⟨node, Graph.mem_nodes_of_node? found, wired.id_eq found ▸ isEmitted, isClass, hasFaults⟩
  · rintro ⟨node, isNode, isEmitted, isClass, hasFaults⟩ noFaults
    have found := wired.node?_id isNode
    exact hasFaults (noFaults node.id
      ((Inheritance.mem_emittedClasses wired).mpr ⟨isEmitted, node, found, isClass⟩) node found)

/-- The properties of a unit cannot be told exactly if two accessors of an emitted class
clash, or one repeats itself. -/
theorem ofGraph_fails_iff (isGraph : Graph.ofUnit unit markings = .ok graph)
    (inherited : (Inheritance.ofGraph graph other configuration).1 = .ok inheritance) :
    (∃ faults, ofGraph graph visibility inheritance = .error faults) ↔
      ∃ node ∈ graph.nodes, visibility.isEmitted node.id = true ∧ node.kind.target = .class ∧
        (Property.Clash graph inheritance node ∨ Property.Repeats graph inheritance node) := by
  have wired := Graph.ofUnit_wired isGraph
  rw [exists_error_iff wired]
  refine exists_congr fun node => and_congr_right fun isNode => ?_
  rw [Property.faults_ne_nil_iff wired inherited isNode]

/-- A class whose one method says twice that it reads a property. -/
def repeatedGetter : TranslationUnit where
  root := { id := 0, kind := .translationUnit, order := 0 }
  others :=
    [ { id := 1, kind := .class [] none, name := "A", qualifiedName := "A", parent := some 0
        order := 1, payloads := [.text "visible"] },
      { id := 2, kind := .method { returnType := "int" } false false, name := "get"
        qualifiedName := "A::get", parent := some 1, order := 2
        payloads := [.map [("getter_for", .array [.string "x", .string "x"])]] } ]
  valid := by decide

/-- The run fails, although no two accessors are there to clash. -/
theorem repeatedGetter_fails :
    ∃ markings graph inheritance, Graph.ofUnit repeatedGetter markings = .ok graph ∧
      (Inheritance.ofGraph graph (Visibility.ofGraph graph {}) {}).1 = .ok inheritance ∧
      (∃ faults, ofGraph graph (Visibility.ofGraph graph {}) inheritance = .error faults) ∧
      ¬ ∃ node, Property.Clash graph inheritance node := by
  obtain ⟨markings, graph, inheritance, _, isGraph, inherited, _, holds⟩ :=
    @Inheritance.exists_of_any 1 repeatedGetter (fun graph _ =>
      graph.nodes.any (fun node => graph.nodes.any fun method =>
        (Visibility.ofGraph graph {}).isEmitted node.id && node.kind.target == .class &&
          method.kind.target == .method && method.parent == some node.id &&
          method.access == .public && method.marking.visible == none &&
          method.marking.getterFor == ["x", "x"]) &&
        graph.nodes.all fun method =>
          method.marking.setterFor == [] && (method.marking.getterFor == [] || method.id == 2))
      (by decide +kernel)
  simp only [Bool.and_eq_true, Bool.or_eq_true, List.any_eq_true, List.all_eq_true, beq_iff_eq]
    at holds
  obtain ⟨⟨node, isNode, method, member, ⟨⟨⟨⟨⟨isEmitted, isClass⟩, isMethod⟩, isParent⟩,
    isPublic⟩, notHidden⟩, reads⟩, alone⟩ := holds
  refine ⟨markings, graph, inheritance, isGraph, inherited, ?_, ?_⟩
  · have isAccessor : Property.IsAccessorOf graph inheritance node method :=
      ⟨member, isMethod, .inl (by simp [reads]),
        .inl ⟨isParent, isPublic, by simp [notHidden]⟩⟩
    refine (ofGraph_fails_iff isGraph inherited).mpr
      ⟨node, isNode, isEmitted, isClass, .inr ⟨method, isAccessor, .getter, ?_⟩⟩
    simp [Property.Role.claims, reads]
  · rintro ⟨node, clash⟩
    cases clash with
    | shared role name left right different isLeft isRight =>
        have isOnly {accessor : Node}
            (claimed : Property.IsClaimedBy graph inheritance node role name accessor) :
            accessor.id = 2 := by
          have othersSay := alone accessor claimed.1.member
          have names := claimed.2
          cases role with
          | getter => exact othersSay.2.resolve_left (List.ne_nil_of_mem names)
          | setter => exact absurd othersSay.1 (List.ne_nil_of_mem names)
        exact different ((Graph.ofUnit_wired isGraph).eq_of_id_eq isLeft.1.member
          isRight.1.member ((isOnly isLeft).trans (isOnly isRight).symm))
    | unread name setter isSetter _ =>
        exact List.ne_nil_of_mem isSetter.2 (alone setter isSetter.1.member).1

end PropertyTable

end Registrar
