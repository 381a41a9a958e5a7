import Mathlib
import Registrar.Proofs.Inheritance

/-!
Contract: what each class takes, whatever comes first.

Owns: what a class takes from its bases told from the bases alone, that following
the bases finds just this, and for which classes it is found.

Does not own: what the graph is numbered by.

The classes are followed one after the other, and what one takes is kept for the
next. What is kept is what would be found again.
-/

set_option autoImplicit false

namespace Registrar.Inheritance

variable {graph : Graph} {visibility : Visibility} {configuration : Configuration}

/-! ## Taking without keeping -/

/-- Takes what bases have to give, where what an inlined one hands on is told, or is
not known. -/
def gather (graph : Graph) (visibility : Visibility) (taken : List String)
    (handsOn : Nat → Option ClassBases) : List BaseUse → ClassBases → Option ClassBases
  | [], gained => some gained
  | use :: rest, gained =>
      match use.node, use.mode with
      | some base, .keep =>
          let kept := use.access == .public && visibility.isEmitted base
          gather graph visibility taken handsOn rest
            (if kept then register gained base else gained)
      | some base, .inline =>
          (handsOn base).bind fun handedOn =>
            gather graph visibility taken handsOn rest
              (absorb graph visibility taken gained base handedOn)
      | _, _ => gather graph visibility taken handsOn rest gained

/-- What a class takes if classes are inlined into each other no deeper than so many
times. -/
def takenWithin (graph : Graph) (visibility : Visibility) : Nat → Nat → Option ClassBases
  | 0, _ => none
  | depth + 1, id =>
      match graph.node? id with
      | none => some {}
      | some node =>
          gather graph visibility (ownNames graph visibility node)
            (takenWithin graph visibility depth) (usesOf graph node)
            { bases := usesOf graph node }

/-- The class takes just this from its bases. -/
def Takes (graph : Graph) (visibility : Visibility) (id : Nat) (gained : ClassBases) : Prop :=
  ∃ depth, takenWithin graph visibility depth id = some gained

/-- The one class has the other as an inlined base. -/
def Inlines (graph : Graph) (id base : Nat) : Prop :=
  ∃ node, graph.node? id = some node ∧
    ∃ use ∈ usesOf graph node, use.node = some base ∧ use.mode = .inline

/-- The class is an emitted one, or is inlined into one that is followed. -/
def Followed (graph : Graph) (visibility : Visibility) (id : Nat) : Prop :=
  ∃ first ∈ emittedClasses graph visibility, Relation.ReflTransGen (Inlines graph) first id

/-- A base that is not inlined is dealt with alike, whatever others hand on. -/
theorem exists_pass {use : BaseUse}
    (notInlined : ¬ ∃ base, use.node = some base ∧ use.mode = .inline) (taken : List String)
    (gained : ClassBases) :
    ∃ next, (∀ handsOn rest, gather graph visibility taken handsOn (use :: rest) gained =
        gather graph visibility taken handsOn rest next) ∧
      ∀ follow rest progress,
        takeBases graph visibility taken follow (use :: rest) gained progress =
          takeBases graph visibility taken follow rest next progress := by
  cases isBase : use.node with
  | none => exact ⟨gained, by simp [gather, isBase], by simp [takeBases, isBase]⟩
  | some base =>
      cases mode : use.mode with
      | keep =>
          refine ⟨if use.access == .public && visibility.isEmitted base then register gained base
            else gained, ?_, ?_⟩
          · simp [gather, isBase, mode]
          · simp [takeBases, isBase, mode]
      | hide => exact ⟨gained, by simp [gather, isBase, mode], by simp [takeBases, isBase, mode]⟩
      | inline => exact absurd ⟨base, isBase, mode⟩ notInlined

theorem gather_mono {taken : List String} {handsOn more : Nat → Option ClassBases}
    (agrees : ∀ base handedOn, handsOn base = some handedOn → more base = some handedOn)
    {uses : List BaseUse} {gained result : ClassBases}
    (isResult : gather graph visibility taken handsOn uses gained = some result) :
    gather graph visibility taken more uses gained = some result := by
  induction uses generalizing gained with
  | nil => exact isResult
  | cons use rest inductionHypothesis =>
      unfold gather at isResult ⊢
      split at isResult
      · exact inductionHypothesis isResult
      · rename_i base _ _
        obtain ⟨handedOn, isHanded, onwards⟩ := Option.bind_eq_some_iff.mp isResult
        rw [agrees base handedOn isHanded, Option.bind_some]
        exact inductionHypothesis onwards
      · exact inductionHypothesis isResult

theorem takenWithin_succ {depth id : Nat} {gained : ClassBases}
    (isTaken : takenWithin graph visibility depth id = some gained) :
    takenWithin graph visibility (depth + 1) id = some gained := by
  induction depth generalizing id gained with
  | zero => cases isTaken
  | succ depth inductionHypothesis =>
      unfold takenWithin at isTaken ⊢
      split at isTaken
      · exact isTaken
      · exact gather_mono (fun base handedOn => inductionHypothesis) isTaken

theorem takenWithin_mono {depth more id : Nat} {gained : ClassBases} (deeper : depth ≤ more)
    (isTaken : takenWithin graph visibility depth id = some gained) :
    takenWithin graph visibility more id = some gained := by
  induction deeper with
  | refl => exact isTaken
  | step _ inductionHypothesis => exact takenWithin_succ inductionHypothesis

theorem Takes.unique {id : Nat} {left right : ClassBases}
    (isLeft : Takes graph visibility id left) (isRight : Takes graph visibility id right) :
    left = right := by
  obtain ⟨leftDepth, isLeft⟩ := isLeft
  obtain ⟨rightDepth, isRight⟩ := isRight
  have deepLeft := takenWithin_mono (Nat.le_max_left leftDepth rightDepth) isLeft
  rw [takenWithin_mono (Nat.le_max_right leftDepth rightDepth) isRight] at deepLeft
  exact (Option.some.inj deepLeft).symm

theorem takenWithin_eq_none {less depth id : Nat} (shallower : less ≤ depth)
    (notTaken : takenWithin graph visibility depth id = none) :
    takenWithin graph visibility less id = none := by
  cases found : takenWithin graph visibility less id with
  | none => rfl
  | some gained =>
      rw [takenWithin_mono shallower found] at notTaken
      cases notTaken

/-- What a class takes it takes from bases at the last depth at which it does not
take anything yet. -/
theorem exists_gather_of_takenWithin {depth id : Nat} {node : Node} {gained : ClassBases}
    (found : graph.node? id = some node)
    (isTaken : takenWithin graph visibility depth id = some gained) :
    ∃ less < depth, takenWithin graph visibility less id = none ∧
      gather graph visibility (ownNames graph visibility node)
        (takenWithin graph visibility less) (usesOf graph node) { bases := usesOf graph node } =
          some gained := by
  induction depth with
  | zero => cases isTaken
  | succ depth inductionHypothesis =>
      cases earlier : takenWithin graph visibility depth id with
      | none =>
          simp only [takenWithin, found] at isTaken
          exact ⟨depth, Nat.lt_succ_self depth, earlier, isTaken⟩
      | some other =>
          have isSame := (takenWithin_succ earlier).symm.trans isTaken
          obtain ⟨less, shallower, gathers⟩ := inductionHypothesis (earlier.trans isSame)
          exact ⟨less, Nat.lt_succ_of_lt shallower, gathers⟩

/-! ## What is kept -/

/-- What is kept of classes is what they take. Their inlined bases are done, and all
of them are among the given classes. -/
structure Known (graph : Graph) (visibility : Visibility) (among : Nat → Prop)
    (progress : Progress) : Prop where
  takes : ∀ entry ∈ progress.done, Takes graph visibility entry.1 entry.2
  closed : ∀ id ∈ progress.doneClasses, ∀ base, Inlines graph id base →
    base ∈ progress.doneClasses
  among : ∀ id ∈ progress.doneClasses, among id

theorem Known.warn {among : Nat → Prop} {progress : Progress}
    (known : Known graph visibility among progress) (warnings : List Diagnostic) :
    Known graph visibility among { progress with warnings } :=
  ⟨known.takes, known.closed, known.among⟩

theorem Known.finish {among : Nat → Prop} {progress : Progress} {id : Nat} {gained : ClassBases}
    (known : Known graph visibility among progress) (takes : Takes graph visibility id gained)
    (basesDone : ∀ base, Inlines graph id base → base ∈ progress.doneClasses)
    (isAmong : among id) : Known graph visibility among (progress.finish id gained) := by
  refine ⟨?_, ?_, ?_⟩
  · intro entry listed
    rcases List.mem_append.mp listed with earlier | last
    · exact known.takes entry earlier
    · rw [List.mem_singleton.mp last]
      exact takes
  · intro done listed base inlines
    rw [Progress.doneClasses_finish] at listed ⊢
    refine List.mem_append_left _ ?_
    rcases List.mem_append.mp listed with earlier | last
    · exact known.closed done earlier base inlines
    · rw [List.mem_singleton.mp last] at inlines
      exact basesDone base inlines
  · intro done listed
    rw [Progress.doneClasses_finish] at listed
    rcases List.mem_append.mp listed with earlier | last
    · exact known.among done earlier
    · rw [List.mem_singleton.mp last]
      exact isAmong

/-! ## Following finds what is taken -/

/-- Where a base is followed, it is done, and nothing that was known is lost. -/
def Finds (graph : Graph) (visibility : Visibility) (among : Nat → Prop)
    (follow : Nat → Progress → Except Fault ClassBases × Progress) (base : Nat)
    (handedOn : ClassBases) : Prop :=
  ∀ progress, Known graph visibility among progress →
    ∃ after, follow base progress = (.ok handedOn, after) ∧
      Known graph visibility among after ∧ progress.doneClasses ⊆ after.doneClasses ∧
        base ∈ after.doneClasses

theorem takeBases_of_gather {among : Nat → Prop} {taken : List String}
    {handsOn : Nat → Option ClassBases}
    {follow : Nat → Progress → Except Fault ClassBases × Progress} {uses : List BaseUse}
    (finds : ∀ use ∈ uses, ∀ base handedOn, use.node = some base → use.mode = .inline →
      handsOn base = some handedOn → Finds graph visibility among follow base handedOn)
    {gained result : ClassBases} {progress : Progress}
    (known : Known graph visibility among progress)
    (isResult : gather graph visibility taken handsOn uses gained = some result) :
    ∃ after, takeBases graph visibility taken follow uses gained progress = (.ok result, after) ∧
      Known graph visibility among after ∧ progress.doneClasses ⊆ after.doneClasses ∧
        ∀ use ∈ uses, ∀ base, use.node = some base → use.mode = .inline →
          base ∈ after.doneClasses := by
  induction uses generalizing gained progress with
  | nil =>
      rw [gather, Option.some.injEq] at isResult
      rw [isResult]
      exact ⟨progress, rfl, known, List.Subset.refl _, by simp⟩
  | cons use rest inductionHypothesis =>
      have findsRest := (List.forall_mem_cons.mp finds).2
      by_cases inlined : ∃ base, use.node = some base ∧ use.mode = .inline
      · obtain ⟨base, isBase, mode⟩ := inlined
        simp only [gather, isBase, mode] at isResult
        obtain ⟨handedOn, isHanded, onwards⟩ := Option.bind_eq_some_iff.mp isResult
        obtain ⟨middle, isFollowed, knownMiddle, growsMiddle, isDone⟩ :=
          finds use List.mem_cons_self base handedOn isBase mode isHanded progress known
        obtain ⟨after, isTaken, knownAfter, grows, basesDone⟩ :=
          inductionHypothesis findsRest knownMiddle onwards
        simp only [takeBases, isBase, mode, isFollowed]
        refine ⟨after, isTaken, knownAfter, List.Subset.trans growsMiddle grows,
          List.forall_mem_cons.mpr ⟨?_, basesDone⟩⟩
        intro other isOther _
        rw [isBase, Option.some.injEq] at isOther
        rw [← isOther]
        exact grows isDone
      · obtain ⟨next, gathers, takes⟩ := @exists_pass graph visibility use inlined taken gained
        rw [gathers] at isResult
        obtain ⟨after, isTaken, knownAfter, grows, basesDone⟩ :=
          inductionHypothesis findsRest known isResult
        refine ⟨after, (takes _ _ _).trans isTaken, knownAfter, grows,
          List.forall_mem_cons.mpr ⟨?_, basesDone⟩⟩
        exact fun base isBase mode => absurd ⟨base, isBase, mode⟩ inlined

/-- No class is on the path twice. -/
structure IsTrail (graph : Graph) (path : List Nat) : Prop where
  distinct : path.Nodup
  inside : ∀ id ∈ path, id < graph.size

namespace IsTrail

variable {path : List Nat}

theorem nil : IsTrail graph [] := ⟨List.nodup_nil, by simp⟩

theorem length_le (isTrail : IsTrail graph path) : path.length ≤ graph.size := by
  have fits := (List.subperm_of_subset isTrail.distinct (fun id listed =>
    List.mem_range.mpr (isTrail.inside id listed))).length_le
  rwa [List.length_range] at fits

theorem extend (isTrail : IsTrail graph path) {id : Nat} {node : Node} (offPath : id ∉ path)
    (found : graph.node? id = some node) : IsTrail graph (path ++ [id]) := by
  constructor
  · rw [← List.concat_eq_append, List.nodup_concat]
    exact ⟨offPath, isTrail.distinct⟩
  · rw [List.forall_mem_append, List.forall_mem_singleton]
    exact ⟨isTrail.inside, Graph.node?_lt found⟩

end IsTrail

/-- A path of distinct classes, none of which takes anything at the depth. -/
structure Approach (graph : Graph) (visibility : Visibility) (depth : Nat) (path : List Nat) : Prop
    extends IsTrail graph path where
  deeper : ∀ id ∈ path, takenWithin graph visibility depth id = none

namespace Approach

variable {depth : Nat} {path : List Nat}

theorem nil : Approach graph visibility depth [] :=
  ⟨IsTrail.nil, by simp⟩

theorem not_mem (approach : Approach graph visibility depth path) {id : Nat}
    {gained : ClassBases} (isTaken : takenWithin graph visibility depth id = some gained) :
    id ∉ path := by
  intro onPath
  rw [approach.deeper id onPath] at isTaken
  cases isTaken

theorem extend (approach : Approach graph visibility depth path) {less id : Nat} {node : Node}
    (shallower : less ≤ depth) (found : graph.node? id = some node) (offPath : id ∉ path)
    (notTaken : takenWithin graph visibility less id = none) :
    Approach graph visibility less (path ++ [id]) := by
  refine ⟨approach.toIsTrail.extend offPath found, ?_⟩
  rw [List.forall_mem_append, List.forall_mem_singleton]
  exact ⟨fun other listed => takenWithin_eq_none shallower (approach.deeper other listed),
    notTaken⟩

end Approach

/-- A class that takes something is followed to the end. No class on the path to it
takes as little depth as it does, so it is not on the path, and the path cannot
have become too long. -/
theorem follow_of_takes {among : Nat → Prop} (wired : graph.Wired)
    (inward : ∀ id, among id → ∀ base, Inlines graph id base → among base) {budget : Nat}
    {path : List Nat} {id : Nat} {gained : ClassBases} (isAmong : among id)
    (isNode : ∃ node, graph.node? id = some node) {depth : Nat}
    (approach : Approach graph visibility depth path)
    (enough : budget + path.length = graph.size + 1)
    (isTaken : takenWithin graph visibility depth id = some gained) :
    Finds graph visibility among (follow graph visibility configuration budget path) id
      gained := by
  induction budget generalizing path id gained depth with
  | zero =>
      have fits := approach.toIsTrail.length_le
      omega
  | succ budget inductionHypothesis =>
      intro progress known
      obtain ⟨node, found⟩ := isNode
      have takes : Takes graph visibility id gained := ⟨depth, isTaken⟩
      cases kept : progress.find? id with
      | some earlier =>
          have done := Progress.mem_done_of_find? kept
          have isSame : earlier = gained := (known.takes _ done).unique takes
          refine ⟨progress, ?_, known, List.Subset.refl _, List.mem_map_of_mem done⟩
          simp only [follow, kept, isSame]
      | none =>
          have offPath := approach.not_mem isTaken
          obtain ⟨less, shallower, notTaken, gathers⟩ :=
            exists_gather_of_takenWithin found isTaken
          have onwards : ∀ use ∈ usesOf graph node, ∀ base handedOn, use.node = some base →
              use.mode = .inline → takenWithin graph visibility less base = some handedOn →
              Finds graph visibility among
                (follow graph visibility configuration budget (path ++ [id])) base handedOn := by
            intro use isUse base handedOn isBase isInlined isHanded
            obtain ⟨baseNode, isBaseNode, _⟩ :=
              usesOf_areClasses wired node use isUse base isBase
            refine inductionHypothesis (inward id isAmong base
                ⟨node, found, use, isUse, isBase, isInlined⟩) ⟨baseNode, isBaseNode⟩
              (approach.extend shallower.le found offPath notTaken) ?_ isHanded
            rw [List.length_append, List.length_singleton]
            omega
          obtain ⟨after, isAll, knownAfter, grows, basesDone⟩ :=
            takeBases_of_gather onwards (known.warn
              (progress.warnings ++ unknownBases graph configuration node)) gathers
          refine ⟨after.finish id gained, ?_, knownAfter.finish takes ?_ isAmong, ?_, ?_⟩
          · rw [← List.contains_iff_mem, Bool.not_eq_true] at offPath
            simp only [follow, kept, offPath, found, Bool.false_eq_true, if_false, isAll]
            rfl
          · rintro base ⟨other, isOther, use, isUse, isBase, isInlined⟩
            rw [found, Option.some.injEq] at isOther
            rw [← isOther] at isUse
            exact basesDone use isUse base isBase isInlined
          · rw [Progress.doneClasses_finish]
            exact fun other done => List.mem_append_left _ (grows done)
          · rw [Progress.doneClasses_finish]
            exact List.mem_append_right _ (List.mem_singleton_self id)

theorem followAll_of_takes {among : Nat → Prop} (wired : graph.Wired)
    (inward : ∀ id, among id → ∀ base, Inlines graph id base → among base) {ids : List Nat}
    (isAmong : ∀ id ∈ ids, among id) (areNodes : ∀ id ∈ ids, ∃ node, graph.node? id = some node)
    (takes : ∀ id ∈ ids, ∃ gained, Takes graph visibility id gained) {progress : Progress}
    (known : Known graph visibility among progress) :
    ∃ after, followAll graph visibility configuration [] progress ids = ([], after) ∧
      Known graph visibility among after ∧ progress.doneClasses ⊆ after.doneClasses ∧
        ids ⊆ after.doneClasses := by
  induction ids generalizing progress with
  | nil => exact ⟨progress, rfl, known, List.Subset.refl _, List.nil_subset _⟩
  | cons id rest inductionHypothesis =>
      obtain ⟨firstAmong, restAmong⟩ := List.forall_mem_cons.mp isAmong
      obtain ⟨firstNode, restNodes⟩ := List.forall_mem_cons.mp areNodes
      obtain ⟨⟨gained, depth, isTaken⟩, restTakes⟩ := List.forall_mem_cons.mp takes
      obtain ⟨middle, isFollowed, knownMiddle, growsMiddle, isDone⟩ :=
        @follow_of_takes graph visibility configuration among wired inward (graph.size + 1) [] id
          gained firstAmong firstNode depth Approach.nil rfl isTaken progress known
      obtain ⟨after, isAll, knownAfter, grows, restDone⟩ :=
        inductionHypothesis restAmong restNodes restTakes knownMiddle
      refine ⟨after, ?_, knownAfter, List.Subset.trans growsMiddle grows,
        List.cons_subset.mpr ⟨grows isDone, restDone⟩⟩
      simp only [followAll, isFollowed, isAll]

/-! ## What is found is taken -/

/-- Everything that is kept is what is taken. -/
def KeepsTaken (graph : Graph) (visibility : Visibility) (progress : Progress) : Prop :=
  ∀ entry ∈ progress.done, Takes graph visibility entry.1 entry.2

/-- What is found is taken, and what is kept of it too. -/
def FindsTaken (graph : Graph) (visibility : Visibility)
    (follow : Nat → Progress → Except Fault ClassBases × Progress) : Prop :=
  ∀ id progress gained after, KeepsTaken graph visibility progress →
    follow id progress = (.ok gained, after) →
      Takes graph visibility id gained ∧ KeepsTaken graph visibility after

theorem gather_of_takeBases {taken : List String}
    {follow : Nat → Progress → Except Fault ClassBases × Progress}
    (findsTaken : FindsTaken graph visibility follow) {uses : List BaseUse}
    {gained result : ClassBases} {progress after : Progress}
    (keeps : KeepsTaken graph visibility progress)
    (isTaken : takeBases graph visibility taken follow uses gained progress =
      (.ok result, after)) :
    (∃ depth, gather graph visibility taken (takenWithin graph visibility depth) uses gained =
      some result) ∧ KeepsTaken graph visibility after := by
  induction uses generalizing gained progress with
  | nil =>
      rw [takeBases, Prod.mk.injEq, Except.ok.injEq] at isTaken
      rw [← isTaken.1, ← isTaken.2]
      exact ⟨⟨0, rfl⟩, keeps⟩
  | cons use rest inductionHypothesis =>
      by_cases inlined : ∃ base, use.node = some base ∧ use.mode = .inline
      · obtain ⟨base, isBase, mode⟩ := inlined
        simp only [takeBases, isBase, mode] at isTaken
        split at isTaken
        · cases isTaken
        · rename_i handedOn middle followed
          obtain ⟨⟨depth, isHanded⟩, keepsMiddle⟩ :=
            findsTaken base progress handedOn middle keeps followed
          obtain ⟨⟨more, gathers⟩, keepsAfter⟩ := inductionHypothesis keepsMiddle isTaken
          refine ⟨⟨max depth more, ?_⟩, keepsAfter⟩
          simp only [gather, isBase, mode]
          rw [takenWithin_mono (Nat.le_max_left depth more) isHanded, Option.bind_some]
          exact gather_mono (fun _ _ => takenWithin_mono (Nat.le_max_right depth more)) gathers
      · obtain ⟨next, gathers, takes⟩ := @exists_pass graph visibility use inlined taken gained
        rw [takes] at isTaken
        obtain ⟨⟨depth, isResult⟩, keepsAfter⟩ := inductionHypothesis keeps isTaken
        exact ⟨⟨depth, (gathers _ _).trans isResult⟩, keepsAfter⟩

theorem follow_findsTaken (budget : Nat) (path : List Nat) :
    FindsTaken graph visibility (follow graph visibility configuration budget path) := by
  induction budget generalizing path with
  | zero =>
      intro id progress gained after keeps isFollowed
      simp [follow] at isFollowed
  | succ budget inductionHypothesis =>
      intro id progress gained after keeps isFollowed
      cases kept : progress.find? id with
      | some earlier =>
          simp only [follow, kept, Prod.mk.injEq, Except.ok.injEq] at isFollowed
          rw [← isFollowed.1, ← isFollowed.2]
          exact ⟨keeps _ (Progress.mem_done_of_find? kept), keeps⟩
      | none =>
          by_cases onPath : path.contains id = true
          · simp only [follow, kept, onPath, if_true] at isFollowed
            cases isFollowed
          · rw [Bool.not_eq_true] at onPath
            cases found : graph.node? id with
            | none =>
                simp only [follow, kept, onPath, found, Bool.false_eq_true, if_false,
                  Prod.mk.injEq, Except.ok.injEq] at isFollowed
                rw [← isFollowed.1, ← isFollowed.2]
                exact ⟨⟨1, by simp only [takenWithin, found]⟩, keeps⟩
            | some node =>
                simp only [follow, kept, onPath, found, Bool.false_eq_true, if_false]
                  at isFollowed
                split at isFollowed
                · rename_i result middle taken
                  have keepsWarned : KeepsTaken graph visibility { progress with
                    warnings := progress.warnings ++ unknownBases graph configuration node } := keeps
                  obtain ⟨⟨depth, gathers⟩, keepsMiddle⟩ := gather_of_takeBases
                    (inductionHypothesis (path ++ [id])) keepsWarned taken
                  rw [Prod.mk.injEq, Except.ok.injEq] at isFollowed
                  have takes : Takes graph visibility id gained :=
                    ⟨depth + 1, by simp only [takenWithin, found, gathers, isFollowed.1]⟩
                  refine ⟨takes, ?_⟩
                  rw [← isFollowed.2]
                  intro entry listed
                  rcases List.mem_append.mp listed with earlier | last
                  · exact keepsMiddle entry earlier
                  · rw [List.mem_singleton.mp last, isFollowed.1]
                    exact takes
                · rename_i notOk
                  exact (notOk gained after isFollowed).elim

theorem addFault_ne_nil (faults : List Fault) (fault : Fault) : addFault faults fault ≠ [] := by
  unfold addFault
  split
  · rename_i isKnown
    rintro rfl
    cases isKnown
  · simp

/-- A fault that was found is not forgotten. -/
theorem followAll_ne_nil {ids : List Nat} {faults : List Fault} {progress : Progress}
    (isFaulty : faults ≠ []) :
    (followAll graph visibility configuration faults progress ids).1 ≠ [] := by
  induction ids generalizing faults progress with
  | nil => exact isFaulty
  | cons id rest inductionHypothesis =>
      unfold followAll
      split
      · exact inductionHypothesis isFaulty
      · exact inductionHypothesis (addFault_ne_nil _ _)

theorem takes_of_followAll {ids : List Nat} {progress : Progress}
    (keeps : KeepsTaken graph visibility progress)
    (noFaults : (followAll graph visibility configuration [] progress ids).1 = []) :
    ∀ id ∈ ids, ∃ gained, Takes graph visibility id gained := by
  induction ids generalizing progress with
  | nil => simp
  | cons id rest inductionHypothesis =>
      unfold followAll at noFaults
      split at noFaults
      · rename_i gained after followed
        obtain ⟨takes, keepsAfter⟩ :=
          follow_findsTaken _ _ id progress gained after keeps followed
        exact List.forall_mem_cons.mpr ⟨⟨gained, takes⟩, inductionHypothesis keepsAfter noFaults⟩
      · exact absurd noFaults (followAll_ne_nil (addFault_ne_nil _ _))

/-! ## All classes -/

theorem mem_emittedClasses (wired : graph.Wired) {id : Nat} :
    id ∈ emittedClasses graph visibility ↔
      visibility.isEmitted id = true ∧
        ∃ node, graph.node? id = some node ∧ node.kind.target = .class := by
  unfold emittedClasses Visibility.isEmitted
  rw [List.contains_iff_mem, List.mem_map]
  constructor
  · rintro ⟨node, listed, rfl⟩
    rw [List.mem_filter, beq_iff_eq, Graph.mem_nodesOf] at listed
    obtain ⟨⟨id, emitted, found⟩, isClass⟩ := listed
    rw [← wired.id_eq found] at emitted found
    exact ⟨emitted, node, found, isClass⟩
  · rintro ⟨emitted, node, found, isClass⟩
    refine ⟨node, ?_, wired.id_eq found⟩
    rw [List.mem_filter, beq_iff_eq, Graph.mem_nodesOf]
    exact ⟨⟨id, emitted, found⟩, isClass⟩

/-- Where every emitted class takes something, it is found, and kept for just the
classes that are followed. -/
theorem exists_ofGraph (wired : graph.Wired)
    (takes : ∀ id ∈ emittedClasses graph visibility, ∃ gained, Takes graph visibility id gained) :
    ∃ inheritance, (ofGraph graph visibility configuration).1 = .ok inheritance ∧
      ∀ id gained, (id, gained) ∈ inheritance.classes ↔
        Followed graph visibility id ∧ Takes graph visibility id gained := by
  have inward : ∀ id, Followed graph visibility id → ∀ base, Inlines graph id base →
      Followed graph visibility base := by
    rintro id ⟨first, isFirst, path⟩ base inlines
    exact ⟨first, isFirst, path.tail inlines⟩
  have startKnown : Known graph visibility (Followed graph visibility) {} :=
    ⟨by simp, by simp [Progress.doneClasses], by simp [Progress.doneClasses]⟩
  obtain ⟨after, isAll, known, _, isDone⟩ := @followAll_of_takes graph visibility configuration
    (Followed graph visibility) wired inward (emittedClasses graph visibility)
    (fun id listed => ⟨id, listed, .refl⟩)
    (fun id listed => by
      obtain ⟨_, node, found, _⟩ := (mem_emittedClasses wired).mp listed
      exact ⟨node, found⟩)
    takes {} startKnown
  refine ⟨⟨after.done.mergeSort fun left right => left.1 ≤ right.1⟩, ?_, ?_⟩
  · unfold ofGraph
    simp only [isAll]
    rfl
  · intro id gained
    rw [List.mem_mergeSort]
    constructor
    · intro listed
      exact ⟨known.among id (List.mem_map_of_mem listed), known.takes _ listed⟩
    · rintro ⟨⟨first, isFirst, path⟩, isTaken⟩
      have done : id ∈ after.doneClasses := by
        clear isTaken
        induction path with
        | refl => exact isDone isFirst
        | tail _ inlines inductionHypothesis =>
            exact known.closed _ inductionHypothesis _ inlines
      obtain ⟨entry, listed, rfl⟩ := List.mem_map.mp done
      rwa [isTaken.unique (known.takes entry listed)]

variable {inheritance : Inheritance}

/-- What a class takes is found exactly if every emitted class takes something. -/
theorem exists_ofGraph_iff (wired : graph.Wired) :
    (∃ inheritance, (ofGraph graph visibility configuration).1 = .ok inheritance) ↔
      ∀ id ∈ emittedClasses graph visibility, ∃ gained, Takes graph visibility id gained := by
  constructor
  · rintro ⟨inheritance, built⟩
    have startKeeps : KeepsTaken graph visibility {} := fun entry listed => nomatch listed
    refine @takes_of_followAll graph visibility configuration _ _ startKeeps ?_
    unfold ofGraph at built
    dsimp only at built
    split at built
    · rename_i noFaults
      exact List.isEmpty_iff.mp noFaults
    · cases built
  · intro takes
    obtain ⟨inheritance, built, _⟩ := @exists_ofGraph graph visibility configuration wired takes
    exact ⟨inheritance, built⟩

theorem mem_classes_iff (wired : graph.Wired)
    (built : (ofGraph graph visibility configuration).1 = .ok inheritance) {id : Nat}
    {gained : ClassBases} :
    (id, gained) ∈ inheritance.classes ↔
      Followed graph visibility id ∧ Takes graph visibility id gained := by
  obtain ⟨found, isFound, isKept⟩ := @exists_ofGraph graph visibility configuration wired
    ((exists_ofGraph_iff wired).mp ⟨inheritance, built⟩)
  rw [built, Except.ok.injEq] at isFound
  rw [isFound]
  exact isKept id gained

theorem get?_eq_some_iff (wired : graph.Wired)
    (built : (ofGraph graph visibility configuration).1 = .ok inheritance) {id : Nat}
    {gained : ClassBases} :
    inheritance.get? id = some gained ↔
      Followed graph visibility id ∧ Takes graph visibility id gained := by
  rw [← mem_classes_iff wired built]
  unfold get?
  constructor
  · intro isFound
    obtain ⟨entry, isEntry, rfl⟩ := Option.map_eq_some_iff.mp isFound
    have sameId := List.find?_some isEntry
    rw [beq_iff_eq] at sameId
    rw [← sameId]
    exact List.mem_of_find?_eq_some isEntry
  · intro listed
    cases found : inheritance.classes.find? fun entry => entry.1 == id with
    | none => simpa using List.find?_eq_none.mp found _ listed
    | some entry =>
        have sameId := List.find?_some found
        rw [beq_iff_eq] at sameId
        have isEntry := List.mem_of_find?_eq_some found
        rw [← sameId] at listed
        have takes := ((mem_classes_iff wired built).mp listed).2
        have entryTakes : Takes graph visibility entry.1 entry.2 :=
          ((mem_classes_iff wired built).mp isEntry).2
        rw [Option.map_some, takes.unique entryTakes]

end Registrar.Inheritance
