import Mathlib
import Registrar.Inheritance
import Registrar.Proofs.Graph.Tree

/-!
Contract: what classes can be relied on to take from their bases.

Owns: that supertypes are distinct emitted classes, and that the members taken are
distinct own members of other classes, so that no class has a member twice.

Does not own: in which order they are taken, and which of two of one name is.

A class that is followed is on the path, and no class on the path is done. What
an inlined base hands on comes from classes that are done, so never from the
class that takes it.
-/

set_option autoImplicit false

namespace Registrar.Inheritance

variable {graph : Graph} {visibility : Visibility} {configuration : Configuration}

/-- The class is there and is emitted. -/
def IsSupertype (graph : Graph) (visibility : Visibility) (id : Nat) : Prop :=
  visibility.isEmitted id = true ∧
    ∃ node, graph.node? id = some node ∧ node.kind.target = .class

/-- The member is an own member of one of the given classes other than the class
that takes it. -/
def IsTaken (graph : Graph) (classes : List Nat) (id : Nat) (member : Member) : Prop :=
  ∃ base node, member.inlinedFrom = some base ∧ base ∈ classes ∧ base ≠ id ∧
    graph.node? base = some node ∧ member.node ∈ inlinableMembers graph node

/-- What a class has taken so far is in order. -/
structure Sound (graph : Graph) (visibility : Visibility) (classes : List Nat) (id : Nat)
    (gained : ClassBases) : Prop where
  registered : ∀ supertype ∈ gained.registered, IsSupertype graph visibility supertype
  inherited : ∀ member ∈ gained.inherited, IsTaken graph classes id member
  distinct : (gained.inherited.map Member.node).Nodup
  unrepeated : gained.registered.Nodup

/-! ## Taking one thing -/

namespace Sound

variable {classes : List Nat} {id : Nat} {gained : ClassBases}

theorem ofUses (uses : List BaseUse) :
    Sound graph visibility classes id { bases := uses } where
  registered := by
    intro supertype member
    cases member
  inherited := by
    intro member taken
    cases taken
  distinct := List.nodup_nil
  unrepeated := List.nodup_nil

theorem mono {more : List Nat} (sound : Sound graph visibility classes id gained)
    (among : classes ⊆ more) : Sound graph visibility more id gained where
  registered := sound.registered
  inherited := by
    intro member taken
    obtain ⟨base, node, origin, done, rest⟩ := sound.inherited member taken
    exact ⟨base, node, origin, among done, rest⟩
  distinct := sound.distinct
  unrepeated := sound.unrepeated

theorem register {supertype : Nat} (sound : Sound graph visibility classes id gained)
    (isSupertype : IsSupertype graph visibility supertype) :
    Sound graph visibility classes id (Inheritance.register gained supertype) := by
  unfold Inheritance.register
  split
  · exact sound
  · rename_i isNew
    refine ⟨?_, sound.inherited, sound.distinct, ?_⟩
    · intro other member
      rcases List.mem_append.mp member with before | new
      · exact sound.registered other before
      · rw [List.mem_singleton.mp new]
        exact isSupertype
    · rw [List.contains_iff_mem] at isNew
      rw [← List.concat_eq_append]
      exact sound.unrepeated.concat isNew

theorem inherit {member : Member} (taken : List String)
    (sound : Sound graph visibility classes id gained)
    (isTaken : IsTaken graph classes id member) :
    Sound graph visibility classes id
      (Inheritance.inherit visibility taken gained member) := by
  unfold Inheritance.inherit
  split
  · exact sound
  · rename_i isNew
    rw [Bool.or_eq_true, not_or, List.any_eq_true] at isNew
    refine ⟨sound.registered, ?_, ?_, sound.unrepeated⟩
    · intro other listed
      rcases List.mem_append.mp listed with before | new
      · exact sound.inherited other before
      · rw [List.mem_singleton.mp new]
        exact isTaken
    · rw [List.map_append, List.map_singleton, ← List.concat_eq_append]
      refine sound.distinct.concat ?_
      intro before
      obtain ⟨other, listed, sameNode⟩ := List.mem_map.mp before
      exact isNew.2 ⟨other, listed, beq_iff_eq.mpr sameNode⟩

theorem foldl_register {supertypes : List Nat} (sound : Sound graph visibility classes id gained)
    (areSupertypes : ∀ supertype ∈ supertypes, IsSupertype graph visibility supertype) :
    Sound graph visibility classes id (supertypes.foldl Inheritance.register gained) := by
  induction supertypes generalizing gained with
  | nil => exact sound
  | cons first rest inductionHypothesis =>
      rw [List.foldl_cons]
      apply inductionHypothesis (sound.register (areSupertypes first List.mem_cons_self))
      intro supertype member
      exact areSupertypes supertype (List.mem_cons_of_mem first member)

theorem foldl_inherit {members : List Member} (taken : List String)
    (sound : Sound graph visibility classes id gained)
    (areTaken : ∀ member ∈ members, IsTaken graph classes id member) :
    Sound graph visibility classes id
      (members.foldl (Inheritance.inherit visibility taken) gained) := by
  induction members generalizing gained with
  | nil => exact sound
  | cons first rest inductionHypothesis =>
      rw [List.foldl_cons]
      apply inductionHypothesis (sound.inherit taken (areTaken first List.mem_cons_self))
      intro member listed
      exact areTaken member (List.mem_cons_of_mem first listed)

/-- What an inlined base hands on comes from it, or from classes that are done,
among which the taking class is not. -/
theorem absorb {base : Nat} {handedOn : ClassBases} (taken : List String)
    (sound : Sound graph visibility classes id gained)
    (handed : Sound graph visibility classes base handedOn)
    (isDone : ∀ node, graph.node? base = some node → base ∈ classes) (other : base ≠ id)
    (isOpen : id ∉ classes) :
    Sound graph visibility classes id
      (Inheritance.absorb graph visibility taken gained base handedOn) := by
  unfold Inheritance.absorb
  apply foldl_inherit taken (sound.foldl_register handed.registered)
  intro member listed
  rcases List.mem_append.mp listed with own | further
  · cases found : graph.node? base with
    | none => simp [found] at own
    | some node =>
        rw [found, Option.map_some, Option.getD_some, List.mem_map] at own
        obtain ⟨inlined, inlinable, rfl⟩ := own
        exact ⟨base, node, rfl, isDone node found, other, found, inlinable⟩
  · obtain ⟨origin, node, isOrigin, done, _, rest⟩ := handed.inherited member further
    refine ⟨origin, node, isOrigin, done, ?_, rest⟩
    rintro rfl
    exact isOpen done

end Sound

/-! ## Following the bases -/

/-- The classes that are done. -/
def Progress.doneClasses (progress : Progress) : List Nat := progress.done.map Prod.fst

theorem Progress.mem_done_of_find? {progress : Progress} {id : Nat} {gained : ClassBases}
    (found : progress.find? id = some gained) : (id, gained) ∈ progress.done := by
  unfold Progress.find? at found
  obtain ⟨entry, isEntry, rfl⟩ := Option.map_eq_some_iff.mp found
  have sameId := List.find?_some isEntry
  rw [beq_iff_eq] at sameId
  rw [← sameId]
  exact List.mem_of_find?_eq_some isEntry

theorem Progress.not_mem_doneClasses {progress : Progress} {id : Nat}
    (found : progress.find? id = none) : id ∉ progress.doneClasses := by
  unfold Progress.find? at found
  rw [Option.map_eq_none_iff, List.find?_eq_none] at found
  intro done
  obtain ⟨entry, isEntry, sameId⟩ := List.mem_map.mp done
  exact found entry isEntry (beq_iff_eq.mpr sameId)

/-- Everything that is done is in order, and no class on the path is done. -/
structure Fit (graph : Graph) (visibility : Visibility) (path : List Nat)
    (progress : Progress) : Prop where
  sound : ∀ entry ∈ progress.done,
    Sound graph visibility progress.doneClasses entry.1 entry.2
  apart : ∀ id ∈ path, id ∉ progress.doneClasses

/-- A step along a path leaves what is known in order, and forgets nothing. -/
structure Leaves (graph : Graph) (visibility : Visibility) (path : List Nat)
    (before after : Progress) : Prop where
  fit : Fit graph visibility path after
  grows : before.doneClasses ⊆ after.doneClasses

theorem Leaves.refl {path : List Nat} {progress : Progress}
    (fit : Fit graph visibility path progress) :
    Leaves graph visibility path progress progress :=
  ⟨fit, fun _ member => member⟩

theorem Leaves.trans {path : List Nat} {first second third : Progress}
    (earlier : Leaves graph visibility path first second)
    (later : Leaves graph visibility path second third) :
    Leaves graph visibility path first third :=
  ⟨later.fit, fun _ done => later.grows (earlier.grows done)⟩

/-- Following classes along a path finds what they hand on, for classes that are
not on the path. -/
def Follows (graph : Graph) (visibility : Visibility) (path : List Nat)
    (follow : Nat → Progress → Except Fault ClassBases × Progress) : Prop :=
  ∀ id progress, Fit graph visibility path progress →
    Leaves graph visibility path progress (follow id progress).2 ∧
      ∀ gained, (follow id progress).1 = .ok gained →
        id ∉ path ∧ Sound graph visibility (follow id progress).2.doneClasses id gained ∧
          ∀ node, graph.node? id = some node → id ∈ (follow id progress).2.doneClasses

theorem takeBases_sound {path : List Nat} {id : Nat} {taken : List String}
    {follow : Nat → Progress → Except Fault ClassBases × Progress}
    (follows : Follows graph visibility path follow) (onPath : id ∈ path)
    {uses : List BaseUse}
    (areClasses : ∀ use ∈ uses, ∀ base, use.node = some base →
      ∃ node, graph.node? base = some node ∧ node.kind.target = .class)
    {gained : ClassBases} {progress : Progress} (fit : Fit graph visibility path progress)
    (sound : Sound graph visibility progress.doneClasses id gained) :
    Leaves graph visibility path progress
        (takeBases graph visibility taken follow uses gained progress).2 ∧
      ∀ result, (takeBases graph visibility taken follow uses gained progress).1 = .ok result →
        Sound graph visibility
          (takeBases graph visibility taken follow uses gained progress).2.doneClasses id
            result := by
  induction uses generalizing gained progress with
  | nil =>
      refine ⟨Leaves.refl fit, ?_⟩
      intro result isResult
      rw [← Except.ok.inj isResult]
      exact sound
  | cons use rest inductionHypothesis =>
      have areOthers : ∀ other ∈ rest, ∀ base, other.node = some base →
          ∃ node, graph.node? base = some node ∧ node.kind.target = .class := by
        intro other member
        exact areClasses other (List.mem_cons_of_mem use member)
      unfold takeBases
      split
      · rename_i base isBase isKept
        refine inductionHypothesis areOthers fit ?_
        split
        · rename_i kept
          rw [Bool.and_eq_true] at kept
          exact sound.register ⟨kept.2, areClasses use List.mem_cons_self base isBase⟩
        · exact sound
      · rename_i base isBase isInlined
        obtain ⟨leaves, found⟩ := follows base progress fit
        cases followed : follow base progress with
        | mk outcome after =>
            rw [followed] at leaves found
            cases outcome with
            | error fault =>
                refine ⟨leaves, ?_⟩
                intro result isResult
                cases isResult
            | ok handedOn =>
                obtain ⟨offPath, handed, isDone⟩ := found handedOn rfl
                have other : base ≠ id := by
                  rintro rfl
                  exact offPath onPath
                have absorbed := (sound.mono leaves.grows).absorb taken handed isDone other
                  (leaves.fit.apart id onPath)
                obtain ⟨onwards, isSound⟩ := inductionHypothesis areOthers leaves.fit absorbed
                exact ⟨leaves.trans onwards, isSound⟩
      · exact inductionHypothesis areOthers fit sound

theorem classNamed?_isClass (wired : graph.Wired) {name : String} {node : Node}
    (named : classNamed? graph name = some node) :
    graph.node? node.id = some node ∧ node.kind.target = .class := by
  unfold classNamed? at named
  obtain ⟨isFound, isClass⟩ := Option.filter_eq_some_iff.mp named
  obtain ⟨id, _, found⟩ := Option.bind_eq_some_iff.mp isFound
  rw [beq_iff_eq] at isClass
  exact ⟨wired.node?_id (Graph.mem_nodes_of_node? found), isClass⟩

theorem usesOf_areClasses (wired : graph.Wired) (node : Node) :
    ∀ use ∈ usesOf graph node, ∀ base, use.node = some base →
      ∃ found, graph.node? base = some found ∧ found.kind.target = .class := by
  intro use member base isBase
  unfold usesOf at member
  obtain ⟨clause, _, rfl⟩ := List.mem_map.mp member
  dsimp only at isBase
  cases named : classNamed? graph clause.qualifiedName with
  | none => simp [named] at isBase
  | some found =>
      rw [named, Option.map_some, Option.some.injEq] at isBase
      rw [← isBase]
      exact ⟨found, classNamed?_isClass wired named⟩

/-- A class that is not done can be put on the path. -/
theorem Fit.extend {path : List Nat} {progress : Progress} {id : Nat}
    (fit : Fit graph visibility path progress) (isNew : id ∉ progress.doneClasses) :
    Fit graph visibility (path ++ [id]) progress where
  sound := fit.sound
  apart := by
    intro other member
    rcases List.mem_append.mp member with before | last
    · exact fit.apart other before
    · rw [List.mem_singleton.mp last]
      exact isNew

theorem Fit.warn {path : List Nat} {progress : Progress}
    (fit : Fit graph visibility path progress) (warnings : List Diagnostic) :
    Fit graph visibility path { progress with warnings } :=
  ⟨fit.sound, fit.apart⟩

theorem Leaves.shorten {path : List Nat} {before after : Progress} {id : Nat}
    (leaves : Leaves graph visibility (path ++ [id]) before after) :
    Leaves graph visibility path before after where
  fit := ⟨leaves.fit.sound, fun other member =>
    leaves.fit.apart other (List.mem_append_left [id] member)⟩
  grows := leaves.grows

/-- Notes that a class is done. -/
def Progress.finish (progress : Progress) (id : Nat) (gained : ClassBases) : Progress :=
  { progress with done := progress.done ++ [(id, gained)] }

theorem Progress.doneClasses_finish (progress : Progress) (id : Nat) (gained : ClassBases) :
    (progress.finish id gained).doneClasses = progress.doneClasses ++ [id] := by
  unfold finish doneClasses
  rw [List.map_append, List.map_singleton]

/-- Once the last class of a path is done, the path goes on without it. -/
theorem Leaves.finish {path : List Nat} {before after : Progress} {id : Nat}
    {gained : ClassBases} (leaves : Leaves graph visibility (path ++ [id]) before after)
    (offPath : id ∉ path) (sound : Sound graph visibility after.doneClasses id gained) :
    Leaves graph visibility path before (after.finish id gained) := by
  have grows : after.doneClasses ⊆ (after.finish id gained).doneClasses := by
    rw [Progress.doneClasses_finish]
    exact List.subset_append_left _ _
  refine ⟨⟨?_, ?_⟩, fun other done => grows (leaves.grows done)⟩
  · intro entry member
    rcases List.mem_append.mp member with earlier | last
    · exact (leaves.fit.sound entry earlier).mono grows
    · rw [List.mem_singleton.mp last]
      exact sound.mono grows
  · intro other member done
    rw [Progress.doneClasses_finish] at done
    rcases List.mem_append.mp done with earlier | last
    · exact leaves.shorten.fit.apart other member earlier
    · rw [List.mem_singleton.mp last] at member
      exact offPath member

theorem follow_follows (wired : graph.Wired) (budget : Nat) (path : List Nat) :
    Follows graph visibility path (follow graph visibility configuration budget path) := by
  induction budget generalizing path with
  | zero =>
      intro id progress fit
      refine ⟨Leaves.refl fit, ?_⟩
      intro gained isGained
      cases isGained
  | succ budget inductionHypothesis =>
      intro id progress fit
      cases known : progress.find? id with
      | some gained =>
          have done := Progress.mem_done_of_find? known
          have isDone : id ∈ progress.doneClasses := List.mem_map_of_mem done
          simp only [follow, known]
          refine ⟨Leaves.refl fit, ?_⟩
          intro result isResult
          rw [← Except.ok.inj isResult]
          exact ⟨fun onPath => fit.apart id onPath isDone, fit.sound _ done, fun _ _ => isDone⟩
      | none =>
          have isNew := Progress.not_mem_doneClasses known
          by_cases onPath : path.contains id = true
          · simp only [follow, known, onPath, if_true]
            refine ⟨Leaves.refl fit, ?_⟩
            intro gained isGained
            cases isGained
          · have offPath : id ∉ path := by
              rw [← List.contains_iff_mem]
              exact onPath
            cases found : graph.node? id with
            | none =>
                simp only [follow, known, onPath, found, Bool.false_eq_true, if_false]
                refine ⟨Leaves.refl fit, ?_⟩
                intro gained isGained
                rw [← Except.ok.inj isGained]
                refine ⟨offPath, Sound.ofUses [], ?_⟩
                intro node isNode
                cases isNode
            | some node =>
                simp only [follow, known, onPath, found, Bool.false_eq_true, if_false]
                have warnedFit := (fit.extend isNew).warn
                  (progress.warnings ++ unknownBases graph configuration node)
                obtain ⟨leaves, isSound⟩ := takeBases_sound
                  (inductionHypothesis (path ++ [id]))
                  (List.mem_append_right path (List.mem_singleton_self id))
                  (usesOf_areClasses wired node) warnedFit (Sound.ofUses (usesOf graph node))
                split
                · rename_i gained after taken
                  rw [taken] at leaves isSound
                  have sound := isSound gained rfl
                  have finished := leaves.finish offPath sound
                  refine ⟨⟨finished.fit, finished.grows⟩, ?_⟩
                  intro result isResult
                  rw [← Except.ok.inj isResult]
                  have grown := Progress.doneClasses_finish after id gained
                  refine ⟨offPath, ?_, ?_⟩
                  · apply sound.mono
                    exact grown ▸ List.subset_append_left _ _
                  · intro _ _
                    exact grown ▸ List.mem_append_right _ (List.mem_singleton_self id)
                · rename_i failed notOk
                  refine ⟨⟨leaves.shorten.fit, leaves.grows⟩, ?_⟩
                  intro result isResult
                  exact (notOk result _ (Prod.ext isResult rfl)).elim

/-! ## All classes -/

theorem followAll_fit (wired : graph.Wired) {classes : List Nat} {faults : List Fault}
    {progress : Progress} (fit : Fit graph visibility [] progress) :
    Fit graph visibility []
      (followAll graph visibility configuration faults progress classes).2 := by
  induction classes generalizing faults progress with
  | nil => exact fit
  | cons first rest inductionHypothesis =>
      have follows : Follows graph visibility []
          (follow graph visibility configuration (graph.size + 1) []) :=
        follow_follows wired (graph.size + 1) []
      have leaves := (follows first progress fit).1
      unfold followAll
      split
      · rename_i gained after followed
        rw [followed] at leaves
        exact inductionHypothesis leaves.fit
      · rename_i fault after followed
        rw [followed] at leaves
        exact inductionHypothesis leaves.fit

section OfGraph

variable {inheritance : Inheritance}

theorem sound_of_mem_classes (wired : graph.Wired)
    (built : (ofGraph graph visibility configuration).1 = .ok inheritance)
    {entry : Nat × ClassBases} (member : entry ∈ inheritance.classes) :
    ∃ classes, Sound graph visibility classes entry.1 entry.2 := by
  have fit : Fit graph visibility []
      (followAll graph visibility configuration [] {} (emittedClasses graph visibility)).2 := by
    apply followAll_fit wired
    refine ⟨?_, ?_⟩ <;> intro _ member <;> cases member
  unfold ofGraph at built
  dsimp only at built
  split at built
  · rw [← Except.ok.inj built, List.mem_mergeSort] at member
    exact ⟨_, fit.sound entry member⟩
  · cases built

theorem sound_of_get? (wired : graph.Wired)
    (built : (ofGraph graph visibility configuration).1 = .ok inheritance) {id : Nat}
    {gained : ClassBases} (found : inheritance.get? id = some gained) :
    ∃ classes, Sound graph visibility classes id gained := by
  unfold get? at found
  obtain ⟨entry, isEntry, rfl⟩ := Option.map_eq_some_iff.mp found
  have sameId := List.find?_some isEntry
  rw [beq_iff_eq] at sameId
  rw [← sameId]
  exact sound_of_mem_classes wired built (List.mem_of_find?_eq_some isEntry)

/-- Supertypes are emitted classes. -/
theorem isSupertype_of_registered (wired : graph.Wired)
    (built : (ofGraph graph visibility configuration).1 = .ok inheritance) {id supertype : Nat}
    (registered : supertype ∈ inheritance.registered id) :
    IsSupertype graph visibility supertype := by
  unfold Inheritance.registered at registered
  cases found : inheritance.get? id with
  | none => simp [found] at registered
  | some gained =>
      rw [found] at registered
      obtain ⟨classes, sound⟩ := sound_of_get? wired built found
      exact sound.registered supertype registered

/-- A member that a class takes is an own member of another class. -/
theorem exists_base_of_inherited (wired : graph.Wired)
    (built : (ofGraph graph visibility configuration).1 = .ok inheritance) {id : Nat}
    {member : Member} (taken : member ∈ inheritance.inherited id) :
    ∃ base node, member.inlinedFrom = some base ∧ base ≠ id ∧ graph.node? base = some node ∧
      member.node ∈ inlinableMembers graph node := by
  unfold inherited at taken
  cases found : inheritance.get? id with
  | none => simp [found] at taken
  | some gained =>
      rw [found] at taken
      obtain ⟨classes, sound⟩ := sound_of_get? wired built found
      obtain ⟨base, node, origin, _, rest⟩ := sound.inherited member taken
      exact ⟨base, node, origin, rest⟩

/-- A node that some class takes is an own member of a base. -/
theorem exists_base_of_inlinedNodes (wired : graph.Wired)
    (built : (ofGraph graph visibility configuration).1 = .ok inheritance) {id : Nat}
    (inlined : id ∈ inheritance.inlinedNodes) : ∃ base, id ∈ inlinableMembers graph base := by
  unfold inlinedNodes at inlined
  obtain ⟨entry, isEntry, taken⟩ := List.mem_flatMap.mp inlined
  obtain ⟨member, isMember, rfl⟩ := List.mem_map.mp taken
  obtain ⟨classes, sound⟩ := sound_of_mem_classes wired built isEntry
  obtain ⟨_, base, _, _, _, _, isOwn⟩ := sound.inherited member isMember
  exact ⟨base, isOwn⟩

/-- A class takes no member twice. -/
theorem inherited_nodup (wired : graph.Wired)
    (built : (ofGraph graph visibility configuration).1 = .ok inheritance) (id : Nat) :
    ((inheritance.inherited id).map Member.node).Nodup := by
  unfold inherited
  cases found : inheritance.get? id with
  | none => exact List.nodup_nil
  | some gained =>
      obtain ⟨classes, sound⟩ := sound_of_get? wired built found
      exact sound.distinct

/-- A class is registered with no supertype twice. -/
theorem registered_nodup (wired : graph.Wired)
    (built : (ofGraph graph visibility configuration).1 = .ok inheritance) (id : Nat) :
    (inheritance.registered id).Nodup := by
  unfold Inheritance.registered
  cases found : inheritance.get? id with
  | none => exact List.nodup_nil
  | some gained =>
      obtain ⟨classes, sound⟩ := sound_of_get? wired built found
      exact sound.unrepeated

/-- What a class takes from a base is below the base, and not below the class. -/
theorem ne_of_mem_inherited (wired : graph.Wired)
    (built : (ofGraph graph visibility configuration).1 = .ok inheritance) {node child : Node}
    (member : node ∈ graph.nodes) (isChild : child ∈ graph.childrenOf node) {used : Member}
    (taken : used ∈ inheritance.inherited node.id) : used.node ≠ child.id := by
  intro sameNode
  have below := (wired.mem_childrenOf member).mp isChild
  obtain ⟨base, baseNode, _, other, isBase, inlinable⟩ :=
    exists_base_of_inherited wired built taken
  obtain ⟨declared, selected, sameId⟩ := List.mem_map.mp inlinable
  have baseBelow := (wired.mem_childrenOf (Graph.mem_nodes_of_node? isBase)).mp
    (List.mem_of_mem_filter selected)
  have same := wired.eq_of_id_eq baseBelow.1 below.1 (sameId.trans sameNode)
  rw [same, below.2, Option.some.injEq, wired.id_eq isBase] at baseBelow
  exact other baseBelow.2.symm

/-- A class has no member twice. -/
theorem members_nodup (wired : graph.Wired)
    (built : (ofGraph graph visibility configuration).1 = .ok inheritance) {node : Node}
    (member : node ∈ graph.nodes) :
    ((inheritance.members graph visibility node).map Member.node).Nodup := by
  unfold members
  dsimp only
  rw [List.map_append, List.map_map, List.nodup_append']
  refine ⟨?_, inherited_nodup wired built node.id, ?_⟩
  · have distinct := wired.children_nodup member
    rw [← wired.map_id_childrenOf member] at distinct
    exact distinct.sublist (List.filter_sublist.map _)
  · intro id own taken
    obtain ⟨child, kept, rfl⟩ := List.mem_map.mp own
    obtain ⟨used, isInherited, sameNode⟩ := List.mem_map.mp taken
    exact ne_of_mem_inherited wired built member (List.mem_of_mem_filter kept) isInherited sameNode

end OfGraph

end Registrar.Inheritance
