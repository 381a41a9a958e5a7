import Mathlib
import Registrar.Proofs.TopologicalOrder.Circles

/-!
Contract: what an order does not depend on.

Owns: that other names for the items, which keep their precedence, change an
order in nothing but the names, and so that neither the order nor the repetition
of the listed items and of their dependencies matters.

Does not own: which other names there are.
-/

set_option autoImplicit false

namespace Registrar.TopologicalOrder

universe u v

variable {α : Type u} {β : Type v}

/-! ## Other names -/

/-- The other items are the items under other names. Both depend on each other
and precede each other alike. -/
structure Renames [LE α] [LE β] (rename : α → β) (key : α → Nat) (dependencies : α → List α)
    (items : List α) (otherKey : β → Nat) (otherDependencies : β → List β)
    (others : List β) : Prop where
  mem_iff : ∀ other, other ∈ others ↔ ∃ item ∈ items, rename item = other
  depends_iff : ∀ item ∈ items, ∀ dependency ∈ items,
    rename dependency ∈ otherDependencies (rename item) ↔ dependency ∈ dependencies item
  precedes_iff : ∀ left ∈ items, ∀ right ∈ items,
    Precedes otherKey (rename left) (rename right) ↔ Precedes key left right

namespace Renames

variable [LE α] [LE β] {rename : α → β} {key : α → Nat} {dependencies : α → List α}
  {items : List α} {otherKey : β → Nat} {otherDependencies : β → List β} {others : List β}

theorem rename_mem
    (renames : Renames rename key dependencies items otherKey otherDependencies others)
    {item : α} (listed : item ∈ items) : rename item ∈ others :=
  (renames.mem_iff _).mpr ⟨item, listed, rfl⟩

variable [Std.IsLinearOrder α]

/-- No two items have one other name, since one would precede itself only. -/
theorem injective
    (renames : Renames rename key dependencies items otherKey otherDependencies others)
    {left right : α} (leftListed : left ∈ items) (rightListed : right ∈ items)
    (same : rename left = rename right) : left = right := by
  have forth := renames.precedes_iff left leftListed right rightListed
  have back := renames.precedes_iff right rightListed left leftListed
  rw [same] at forth back
  rcases Precedes.total key left right with precedes | precedes
  · exact precedes.antisymm (back.mp (forth.mpr precedes))
  · exact (precedes.antisymm (forth.mp (back.mpr precedes))).symm

theorem rename_mem_map_iff
    (renames : Renames rename key dependencies items otherKey otherDependencies others)
    {placed : List α} (among : placed ⊆ items) {item : α} (listed : item ∈ items) :
    rename item ∈ placed.map rename ↔ item ∈ placed := by
  constructor
  · intro member
    obtain ⟨other, isPlaced, same⟩ := List.mem_map.mp member
    rwa [← renames.injective (among isPlaced) listed same]
  · exact List.mem_map_of_mem

theorem dependsOn_iff
    (renames : Renames rename key dependencies items otherKey otherDependencies others)
    {item dependency : α} (itemListed : item ∈ items) (listed : dependency ∈ items) :
    DependsOn otherDependencies others (rename item) (rename dependency) ↔
      DependsOn dependencies items item dependency := by
  have isDistinct : rename dependency ≠ rename item ↔ dependency ≠ item :=
    not_congr ⟨renames.injective listed itemListed, congrArg rename⟩
  rw [DependsOn, DependsOn, renames.depends_iff item itemListed dependency listed, isDistinct]
  simp only [renames.rename_mem itemListed, renames.rename_mem listed, itemListed, listed]

/-! ## The same order under other names -/

theorem ready_iff
    (renames : Renames rename key dependencies items otherKey otherDependencies others)
    {placed : List α} (among : placed ⊆ items) {item : α} (listed : item ∈ items) :
    Ready otherDependencies others (placed.map rename) (rename item) ↔
      Ready dependencies items placed item := by
  constructor
  · intro ready
    refine ⟨listed, fun isPlaced => ready.unplaced (List.mem_map_of_mem isPlaced), ?_⟩
    intro dependency depends
    rw [← renames.rename_mem_map_iff among depends.2.1]
    exact ready.dependenciesPlaced _ ((renames.dependsOn_iff listed depends.2.1).mpr depends)
  · intro ready
    refine ⟨renames.rename_mem listed, ?_, ?_⟩
    · rw [renames.rename_mem_map_iff among listed]
      exact ready.unplaced
    · intro other depends
      obtain ⟨dependency, dependencyListed, rfl⟩ := (renames.mem_iff other).mp depends.2.1
      exact List.mem_map_of_mem (ready.dependenciesPlaced dependency
        ((renames.dependsOn_iff listed dependencyListed).mp depends))

theorem isNext
    (renames : Renames rename key dependencies items otherKey otherDependencies others)
    {placed : List α} (among : placed ⊆ items) {item : α}
    (next : IsNext key dependencies items placed item) :
    IsNext otherKey otherDependencies others (placed.map rename) (rename item) := by
  refine ⟨(renames.ready_iff among next.ready.listed).mpr next.ready, ?_⟩
  intro other ready
  obtain ⟨original, listed, rfl⟩ := (renames.mem_iff other).mp ready.listed
  rw [renames.precedes_iff item next.ready.listed original listed]
  exact next.least original ((renames.ready_iff among listed).mp ready)

theorem greedy
    (renames : Renames rename key dependencies items otherKey otherDependencies others)
    {placed ordered : List α} (among : placed ⊆ items)
    (isGreedy : Greedy key dependencies items placed ordered) :
    Greedy otherKey otherDependencies others (placed.map rename) (ordered.map rename) := by
  induction isGreedy with
  | stuck noneReady =>
      refine .stuck fun other ready => ?_
      obtain ⟨item, listed, rfl⟩ := (renames.mem_iff other).mp ready.listed
      exact noneReady item ((renames.ready_iff among listed).mp ready)
  | @take placed rest item next onwards inductionHypothesis =>
      refine .take (renames.isNext among next) ?_
      rw [← List.map_singleton, ← List.map_append]
      exact inductionHypothesis
        (List.append_subset.mpr ⟨among, List.cons_subset.mpr ⟨next.ready.listed, by simp⟩⟩)

/-! ## The same circles under other names -/

/-- What is reached under other names is reached under the names. -/
theorem exists_reached
    (renames : Renames rename key dependencies items otherKey otherDependencies others)
    {item : α} (listed : item ∈ items) {other : β}
    (path : Relation.ReflTransGen (DependsOn otherDependencies others) (rename item) other) :
    ∃ reached ∈ items, rename reached = other ∧
      Relation.ReflTransGen (DependsOn dependencies items) item reached := by
  induction path with
  | refl => exact ⟨item, listed, rfl, .refl⟩
  | tail _ depends inductionHypothesis =>
      obtain ⟨middle, middleListed, rfl, reached⟩ := inductionHypothesis
      obtain ⟨last, lastListed, rfl⟩ := (renames.mem_iff _).mp depends.2.1
      exact ⟨last, lastListed, rfl,
        reached.tail ((renames.dependsOn_iff middleListed lastListed).mp depends)⟩

theorem reaches_iff
    (renames : Renames rename key dependencies items otherKey otherDependencies others)
    {item goal : α} (itemListed : item ∈ items) (goalListed : goal ∈ items) :
    Relation.ReflTransGen (DependsOn otherDependencies others) (rename item) (rename goal) ↔
      Relation.ReflTransGen (DependsOn dependencies items) item goal := by
  constructor
  · intro path
    obtain ⟨reached, listed, same, reaches⟩ := renames.exists_reached itemListed path
    rwa [← renames.injective listed goalListed same]
  · refine Relation.ReflTransGen.lift rename ?_ item goal
    intro item dependency depends
    exact (renames.dependsOn_iff depends.1 depends.2.1).mpr depends

theorem onCircle_iff
    (renames : Renames rename key dependencies items otherKey otherDependencies others)
    {item : α} (listed : item ∈ items) :
    OnCircle otherDependencies others (rename item) ↔ OnCircle dependencies items item := by
  rw [OnCircle, OnCircle, Relation.TransGen.head'_iff, Relation.TransGen.head'_iff]
  constructor
  · rintro ⟨other, depends, path⟩
    obtain ⟨next, nextListed, rfl⟩ := (renames.mem_iff other).mp depends.2.1
    exact ⟨next, (renames.dependsOn_iff listed nextListed).mp depends,
      (renames.reaches_iff nextListed listed).mp path⟩
  · rintro ⟨next, depends, path⟩
    exact ⟨rename next, (renames.dependsOn_iff listed depends.2.1).mpr depends,
      (renames.reaches_iff depends.2.1 listed).mpr path⟩

theorem acyclic_iff
    (renames : Renames rename key dependencies items otherKey otherDependencies others) :
    Acyclic otherDependencies others ↔ Acyclic dependencies items := by
  constructor
  · intro acyclic item onCircle
    exact acyclic (rename item) ((renames.onCircle_iff onCircle.between.1.listed).mpr onCircle)
  · intro acyclic other onCircle
    obtain ⟨item, listed, rfl⟩ := (renames.mem_iff other).mp onCircle.between.1.listed
    exact acyclic item ((renames.onCircle_iff listed).mp onCircle)

theorem between_iff
    (renames : Renames rename key dependencies items otherKey otherDependencies others)
    {item : α} (listed : item ∈ items) :
    BetweenCircles otherDependencies others (rename item) ↔
      BetweenCircles dependencies items item := by
  constructor
  · rintro ⟨⟨goal, goalOnCircle, onwards⟩, circular, onCircle, path⟩
    obtain ⟨last, lastListed, rfl⟩ := (renames.mem_iff goal).mp goalOnCircle.between.1.listed
    obtain ⟨first, firstListed, rfl⟩ := (renames.mem_iff circular).mp onCircle.between.1.listed
    exact ⟨⟨last, (renames.onCircle_iff lastListed).mp goalOnCircle,
        (renames.reaches_iff listed lastListed).mp onwards⟩,
      first, (renames.onCircle_iff firstListed).mp onCircle,
        (renames.reaches_iff firstListed listed).mp path⟩
  · rintro ⟨⟨goal, goalOnCircle, onwards⟩, circular, onCircle, path⟩
    have goalListed := goalOnCircle.between.1.listed
    have circularListed := onCircle.between.1.listed
    exact ⟨⟨rename goal, (renames.onCircle_iff goalListed).mpr goalOnCircle,
        (renames.reaches_iff listed goalListed).mpr onwards⟩,
      rename circular, (renames.onCircle_iff circularListed).mpr onCircle,
        (renames.reaches_iff circularListed listed).mpr path⟩

/-! ## The same result under other names -/

variable [DecidableLE α] [DecidableEq α] [Std.IsLinearOrder β] [DecidableLE β] [DecidableEq β]

theorem order_eq_ok
    (renames : Renames rename key dependencies items otherKey otherDependencies others)
    {ordered : List α} (inOrder : order key dependencies items = .ok ordered) :
    order otherKey otherDependencies others = .ok (ordered.map rename) := by
  have isGreedy := greedy_of_order inOrder
  refine order_of_greedy (renames.greedy (List.nil_subset items) isGreedy) ?_
  intro other listed
  obtain ⟨item, itemListed, rfl⟩ := (renames.mem_iff other).mp listed
  apply List.mem_map_of_mem
  rwa [(order_perm inOrder).mem_iff, List.mem_eraseDups]

theorem order_eq_error
    (renames : Renames rename key dependencies items otherKey otherDependencies others)
    {reported : List α} (stuck : order key dependencies items = .error reported) :
    order otherKey otherDependencies others = .error (reported.map rename) := by
  obtain ⟨distinct, ascending, isReported⟩ := reported_of_order stuck
  have among (item : α) (member : item ∈ reported) : item ∈ items :=
    ((isReported item).mp member).1.listed
  cases outcome : order otherKey otherDependencies others with
  | ok ordered =>
      obtain ⟨original, inOrder⟩ := (exists_order_iff key dependencies items).mpr
        (renames.acyclic_iff.mp ((exists_order_iff _ _ _).mp ⟨ordered, outcome⟩))
      rw [stuck] at inOrder
      cases inOrder
  | error told =>
      obtain ⟨toldDistinct, toldAscending, isTold⟩ := reported_of_order outcome
      have renamedAscending : (reported.map rename).Pairwise (Precedes otherKey) := by
        rw [List.pairwise_map]
        refine ascending.imp_of_mem ?_
        intro left right leftMember rightMember precedes
        exact (renames.precedes_iff left (among left leftMember) right
          (among right rightMember)).mpr precedes
      have renamedDistinct : (reported.map rename).Nodup := by
        refine distinct.map_on ?_
        intro left leftMember right rightMember same
        exact renames.injective (among left leftMember) (among right rightMember) same
      -- Both lists are ascending, and what is in them is the same.
      rw [Except.error.injEq]
      refine List.Perm.eq_of_pairwise (fun _ _ _ _ forth back => forth.antisymm back)
        toldAscending renamedAscending ?_
      rw [List.perm_ext_iff_of_nodup toldDistinct renamedDistinct]
      intro other
      rw [isTold, List.mem_map]
      constructor
      · intro between
        obtain ⟨item, listed, rfl⟩ := (renames.mem_iff other).mp between.1.listed
        exact ⟨item, (isReported item).mpr ((renames.between_iff listed).mp between), rfl⟩
      · rintro ⟨item, member, rfl⟩
        exact (renames.between_iff (among item member)).mpr ((isReported item).mp member)

end Renames

/-! ## The same items listed otherwise -/

/-- The order of the listed items is the greedy one. It is found exactly if there
are no circles, and does not depend on the order or the repetition of the listed
items and of their dependencies. -/
theorem order_isGreedy {α : Type u} [LinearOrder α] (key : α → Nat)
    (dependencies : α → List α) (items : List α) :
    ((∃ ordered, order key dependencies items = .ok ordered) ↔ Acyclic dependencies items) ∧
      (∀ ordered, order key dependencies items = .ok ordered →
        ordered.Nodup ∧ (∀ item, item ∈ ordered ↔ item ∈ items) ∧
          (∀ before item after, ordered = before ++ item :: after →
            IsNext key dependencies items before item) ∧
          Follows dependencies items ordered) ∧
      ∀ otherDependencies others, (∀ item, item ∈ others ↔ item ∈ items) →
        (∀ item ∈ items, ∀ dependency,
          dependency ∈ otherDependencies item ↔ dependency ∈ dependencies item) →
        order key otherDependencies others = order key dependencies items := by
  refine ⟨exists_order_iff key dependencies items, ?_, ?_⟩
  · intro ordered inOrder
    have greedy := greedy_of_order inOrder
    refine ⟨greedy.nodup List.nodup_nil, ?_, fun before item after split => greedy.isNext split,
      order_follows inOrder⟩
    intro item
    rw [(order_perm inOrder).mem_iff, List.mem_eraseDups]
  · intro otherDependencies others sameItems sameDependencies
    have renames : Renames id key dependencies items key otherDependencies others := by
      refine ⟨?_, fun item listed dependency _ => sameDependencies item listed dependency,
        fun _ _ _ _ => Iff.rfl⟩
      intro other
      simp [sameItems]
    cases outcome : order key dependencies items with
    | ok ordered =>
        rw [renames.order_eq_ok outcome, List.map_id]
    | error reported =>
        rw [renames.order_eq_error outcome, List.map_id]

/-- What an item depends on comes before it, whatever its key. -/
example :
    order id (fun item : Nat => if item = 1 then [9, 9, 42] else [item]) [1, 9, 4, 1] =
      .ok [4, 9, 1] := by
  cbv

end Registrar.TopologicalOrder
