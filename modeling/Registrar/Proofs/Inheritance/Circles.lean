import Mathlib
import Registrar.Proofs.Graph.Rounds
import Registrar.Proofs.Inheritance.Lineage

/-!
Contract: when the bases of classes cannot be followed.

Owns: that following the bases comes to its end by itself, that it fails just where
inlined bases lead from an emitted class to a circle, and what is told of the circles.

Does not own: what is taken where there are none.

A class that is met again on the way to itself closes a circle. Nothing else is told of as
one: two ways to one class are none, and a way never gets too long.
-/

set_option autoImplicit false

namespace Registrar.Inheritance

variable {graph : Graph} {visibility : Visibility} {configuration : Configuration}

/-! ## Following without a bound -/

/-- Follows the bases of a class with no bound on how long the way gets. A way on which no
class is twice gets no longer than there are nodes. -/
def followFreely (graph : Graph) (visibility : Visibility) (configuration : Configuration)
    (path : List Nat) (isTrail : IsTrail graph path) (id : Nat) (progress : Progress) :
    Except Fault ClassBases × Progress :=
  match progress.find? id with
  | some gained => (.ok gained, progress)
  | none =>
      if onPath : path.contains id then (.error (cycleFault graph path id), progress)
      else
        match found : graph.node? id with
        | none => (.ok {}, progress)
        | some node =>
            let uses := usesOf graph node
            let warned := { progress with
              warnings := progress.warnings ++ unknownBases graph configuration node }
            match takeBases graph visibility (ownNames graph visibility node)
                (followFreely graph visibility configuration (path ++ [id])
                  (isTrail.extend (by simpa using onPath) found))
                uses { bases := uses } warned with
            | (.ok gained, after) =>
                (.ok gained, { after with done := after.done ++ [(id, gained)] })
            | failed => failed
termination_by graph.size - path.length
decreasing_by
  have fits := (isTrail.extend (by simpa using onPath) found).length_le
  rw [List.length_append, List.length_singleton] at fits ⊢
  omega

/-- The bound is never met. -/
theorem follow_eq_followFreely {budget : Nat} {path : List Nat} (isTrail : IsTrail graph path)
    (enough : budget + path.length = graph.size + 1) (id : Nat) (progress : Progress) :
    follow graph visibility configuration budget path id progress =
      followFreely graph visibility configuration path isTrail id progress := by
  induction budget generalizing path id progress with
  | zero =>
      -- A way this long would have more classes than there are nodes.
      have fits := isTrail.length_le
      omega
  | succ budget inductionHypothesis =>
      rw [follow, followFreely]
      cases progress.find? id with
      | some gained => rfl
      | none =>
          dsimp only
          split
          · rfl
          · rename_i notContained
            have offPath : id ∉ path := by simpa using notContained
            -- The match that is split on is the one that keeps its equation.
            symm
            split
            · rename_i isNone
              rw [isNone]
            · rename_i node found
              have onwards : followFreely graph visibility configuration (path ++ [id])
                    (isTrail.extend offPath found) =
                  follow graph visibility configuration budget (path ++ [id]) := by
                funext base progress
                refine (inductionHypothesis _ ?_ base progress).symm
                rw [List.length_append, List.length_singleton]
                omega
              rewrite [onwards, found]
              rfl

/-! ## Descending -/

/-- The classes of a path have each the next as an inlined base, and the last has the class
that is followed now. -/
structure Descent (graph : Graph) (first : Nat) (path : List Nat) (id : Nat) : Prop
    extends IsTrail graph path where
  linked : (path ++ [id]).IsChain (Inlines graph)
  reached : Relation.ReflTransGen (Inlines graph) first id

/-- Inlined bases lead from the class back to it. -/
def OnCircle (graph : Graph) (id : Nat) : Prop := Relation.TransGen (Inlines graph) id id

/-- The fault is that a class to which the first one leads is met again. -/
def TellsCircle (graph : Graph) (first : Nat) (fault : Fault) : Prop :=
  ∃ path id, Descent graph first path id ∧ id ∈ path ∧ fault = cycleFault graph path id

namespace Descent

variable {first id : Nat} {path : List Nat}

theorem start (first : Nat) : Descent graph first [] first :=
  ⟨IsTrail.nil, List.isChain_singleton first, .refl⟩

theorem step (descent : Descent graph first path id) (offPath : id ∉ path) {base : Nat}
    (inlines : Inlines graph id base) : Descent graph first (path ++ [id]) base := by
  have isBase := inlines
  obtain ⟨node, found, _⟩ := isBase
  refine ⟨descent.toIsTrail.extend offPath found, ?_, descent.reached.tail inlines⟩
  rw [List.append_assoc, List.singleton_append, List.isChain_split]
  exact ⟨descent.linked, List.isChain_pair.mpr inlines⟩

/-- The way from a class to where it is met again. -/
theorem exists_walk (descent : Descent graph first path id) (again : id ∈ path) :
    ∃ between, ((path.dropWhile fun other => other != id) ++ [id]) = id :: between ++ [id] ∧
      (id :: between ++ [id]).IsChain (Inlines graph) ∧
      ∀ other ∈ id :: between ++ [id], other < graph.size := by
  obtain ⟨before, between, isSplit, notBefore⟩ := List.eq_append_cons_of_mem again
  have passed : (path.dropWhile fun other => other != id) = id :: between := by
    rw [isSplit, List.dropWhile_append_of_pos, List.dropWhile_cons_of_neg (by simp)]
    intro other earlier
    rw [bne_iff_ne]
    rintro rfl
    exact notBefore earlier
  refine ⟨between, by rw [passed], ?_, ?_⟩
  · have linked := descent.linked
    rw [isSplit, List.append_assoc] at linked
    exact linked.right_of_append
  · intro other listed
    refine descent.inside other ?_
    rw [isSplit, List.mem_append]
    rcases List.mem_append.mp listed with onWay | isLast
    · exact .inr onWay
    · rw [List.mem_singleton.mp isLast]
      exact .inr List.mem_cons_self

theorem onCircle (descent : Descent graph first path id) (again : id ∈ path) :
    OnCircle graph id := by
  obtain ⟨between, _, linked, _⟩ := descent.exists_walk again
  exact transGen_of_isChain linked

end Descent

/-- Where taking bases fails, following an inlined one of them does. -/
theorem exists_follow_error {taken : List String}
    {follow : Nat → Progress → Except Fault ClassBases × Progress} {uses : List BaseUse}
    {gained : ClassBases} {progress after : Progress} {fault : Fault}
    (fails : takeBases graph visibility taken follow uses gained progress = (.error fault, after)) :
    ∃ use ∈ uses, ∃ base before, use.node = some base ∧ use.mode = .inline ∧
      follow base before = (.error fault, after) := by
  induction uses generalizing gained progress with
  | nil => cases fails
  | cons use rest inductionHypothesis =>
      by_cases inlined : ∃ base, use.node = some base ∧ use.mode = .inline
      · obtain ⟨base, isBase, mode⟩ := inlined
        simp only [takeBases, isBase, mode] at fails
        split at fails
        · rename_i found middle failed
          refine ⟨use, List.mem_cons_self, base, progress, isBase, mode, ?_⟩
          rw [failed]
          exact fails
        · obtain ⟨other, listed, found⟩ := inductionHypothesis fails
          exact ⟨other, List.mem_cons_of_mem use listed, found⟩
      · obtain ⟨next, _, takes⟩ := @exists_pass graph visibility use inlined taken gained
        rw [takes] at fails
        obtain ⟨other, listed, found⟩ := inductionHypothesis fails
        exact ⟨other, List.mem_cons_of_mem use listed, found⟩

/-- Following fails only where a class is met again, the bound being never met. -/
theorem tellsCircle_of_follow {budget first id : Nat} {path : List Nat}
    {progress after : Progress} {fault : Fault} (descent : Descent graph first path id)
    (enough : budget + path.length = graph.size + 1)
    (fails : follow graph visibility configuration budget path id progress =
      (.error fault, after)) : TellsCircle graph first fault := by
  induction budget generalizing id path progress with
  | zero =>
      have fits := descent.toIsTrail.length_le
      omega
  | succ budget inductionHypothesis =>
      unfold follow at fails
      split at fails
      · cases fails
      · split at fails
        · rename_i again
          rw [Prod.mk.injEq, Except.error.injEq] at fails
          exact ⟨path, id, descent, List.contains_iff_mem.mp again, fails.1.symm⟩
        · rename_i notContained
          have offPath : id ∉ path := by simpa using notContained
          split at fails
          · cases fails
          · rename_i node found
            dsimp only at fails
            split at fails
            · cases fails
            · obtain ⟨use, isUse, base, before, isBase, mode, followFails⟩ :=
                exists_follow_error fails
              refine inductionHypothesis
                (descent.step offPath ⟨node, found, use, isUse, isBase, mode⟩) ?_ followFails
              rw [List.length_append, List.length_singleton]
              omega

/-! ## All classes -/

theorem forall_followAll {holds : Fault → Prop} {ids : List Nat}
    (fails : ∀ id ∈ ids, ∀ progress fault after,
      follow graph visibility configuration (graph.size + 1) [] id progress =
        (.error fault, after) → holds fault)
    {earlier : List Fault} {progress : Progress} (areEarlier : ∀ fault ∈ earlier, holds fault) :
    ∀ fault ∈ (followAll graph visibility configuration earlier progress ids).1, holds fault := by
  induction ids generalizing earlier progress with
  | nil => exact areEarlier
  | cons id rest inductionHypothesis =>
      obtain ⟨here, later⟩ := List.forall_mem_cons.mp fails
      unfold followAll
      split
      · exact inductionHypothesis later areEarlier
      · rename_i found after failed
        refine inductionHypothesis later ?_
        unfold addFault
        split
        · exact areEarlier
        · rw [List.forall_mem_append, List.forall_mem_singleton]
          exact ⟨areEarlier, here progress found after failed⟩

/-- What keeps classes from being followed is that emitted ones lead to circles. -/
theorem ofGraph_error {faults : List Fault}
    (failed : (ofGraph graph visibility configuration).1 = .error faults) :
    faults ≠ [] ∧ ∀ fault ∈ faults, ∃ first ∈ emittedClasses graph visibility,
      TellsCircle graph first fault := by
  unfold ofGraph at failed
  dsimp only at failed
  split at failed
  · cases failed
  · rename_i nonempty
    rw [← Except.error.inj failed]
    refine ⟨fun isNil => nonempty (List.isEmpty_iff.mpr isNil), forall_followAll ?_ (by simp)⟩
    intro first isFirst progress fault after fails
    exact ⟨first, isFirst, tellsCircle_of_follow (.start first) rfl fails⟩

/-- The classes of the walk have each the next as an inlined base, and the last is the
first again. -/
structure IsClosedWalk (graph : Graph) (walk : List Node) : Prop where
  inside : ∀ node ∈ walk, node ∈ graph.nodes
  linked : walk.IsChain fun node base => Inlines graph node.id base.id
  long : 2 ≤ walk.length
  closed : walk.head? = walk.getLast?

theorem cause_cycleFault (path : List Nat) (id : Nat) :
    (cycleFault graph path id).cause =
      .baseClassCycle (((path.dropWhile fun other => other != id) ++ [id]).map fun id =>
        ((graph.node? id).map fun node => node.displayName).getD "") := by
  unfold cycleFault
  split <;> rfl

/-- What a fault tells of a circle is a walk around it. -/
theorem TellsCircle.exists_walk (wired : graph.Wired) {first : Nat} {fault : Fault}
    (tells : TellsCircle graph first fault) :
    ∃ walk, IsClosedWalk graph walk ∧
      fault.cause = .baseClassCycle (walk.map fun node => node.displayName) := by
  obtain ⟨path, id, descent, again, rfl⟩ := tells
  obtain ⟨between, isWalk, linked, inside⟩ := descent.exists_walk again
  have sameIds := wired.map_id_nodesOf inside
  have areNodes : ∀ node ∈ graph.nodesOf (id :: between ++ [id]), node ∈ graph.nodes := by
    intro node listed
    obtain ⟨_, _, found⟩ := Graph.mem_nodesOf.mp listed
    exact Graph.mem_nodes_of_node? found
  refine ⟨graph.nodesOf (id :: between ++ [id]), ⟨areNodes, ?_, ?_, ?_⟩, ?_⟩
  · rw [← sameIds, List.isChain_map] at linked
    exact linked
  · rw [← List.length_map fun node : Node => node.id, sameIds]
    simp
  · obtain ⟨node, found⟩ := Graph.node?_of_lt (inside id (by simp))
    simp [Graph.nodesOf, found, List.getLast?_cons]
  · rw [cause_cycleFault, isWalk, ← sameIds, List.map_map, sameIds]
    refine congrArg Cause.baseClassCycle (List.map_congr_left fun node listed => ?_)
    simp only [Function.comp_apply, wired.node?_id (areNodes node listed), Option.map_some,
      Option.getD_some]

/-- The bases of classes are followed without an end to the way being set. They cannot be
followed just where an emitted class leads to a circle, and what is told is circles. -/
structure FindsCircles (graph : Graph) (visibility : Visibility) (configuration : Configuration) :
    Prop where
  ends : ∀ id progress, follow graph visibility configuration (graph.size + 1) [] id progress =
    followFreely graph visibility configuration [] IsTrail.nil id progress
  fails_iff : (∃ faults, (ofGraph graph visibility configuration).1 = .error faults) ↔
    ∃ first ∈ graph.nodes, visibility.isEmitted first.id = true ∧ first.kind.target = .class ∧
      ∃ id, Relation.ReflTransGen (Inlines graph) first.id id ∧ OnCircle graph id
  tellsCircles : ∀ faults, (ofGraph graph visibility configuration).1 = .error faults →
    faults ≠ [] ∧ ∀ fault ∈ faults, ∃ walk, IsClosedWalk graph walk ∧
      fault.cause = .baseClassCycle (walk.map fun node => node.displayName)

/-- From a class that takes something no inlined bases lead to a circle. -/
theorem Takes.not_onCircle {first id : Nat} {gained : ClassBases}
    (takes : Takes graph visibility first gained)
    (reached : Relation.ReflTransGen (Inlines graph) first id) : ¬ OnCircle graph id := by
  induction reached using Relation.ReflTransGen.head_induction_on generalizing gained with
  | refl =>
      -- No way leads down from the class without an end, and a circle would be one.
      have ends := takes.accessible.transGen
      clear takes
      intro circle
      induction ends with
      | intro id _ inductionHypothesis =>
          exact inductionHypothesis id (Relation.transGen_swap.mpr circle) circle
  | head inlines _ inductionHypothesis =>
      obtain ⟨handedOn, baseTakes⟩ := takes.exists_of_inlines inlines
      exact inductionHypothesis baseTakes

variable {unit : TranslationUnit} {table : MarkingTable}

theorem ofGraph_findsCircles (built : Graph.ofUnit unit table = .ok graph)
    (visibility : Visibility) (configuration : Configuration) :
    FindsCircles graph visibility configuration := by
  have wired := Graph.ofUnit_wired built
  refine ⟨follow_eq_followFreely IsTrail.nil rfl, ⟨?_, ?_⟩, ?_⟩
  · rintro ⟨faults, failed⟩
    obtain ⟨nonempty, tell⟩ := ofGraph_error failed
    obtain ⟨fault, listed⟩ := List.exists_mem_of_ne_nil faults nonempty
    obtain ⟨first, isFirst, path, id, descent, again, _⟩ := tell fault listed
    obtain ⟨emitted, node, found, isClass⟩ := (mem_emittedClasses wired).mp isFirst
    obtain rfl := wired.id_eq found
    exact ⟨node, Graph.mem_nodes_of_node? found, emitted, isClass, id, descent.reached,
      descent.onCircle again⟩
  · rintro ⟨first, isNode, emitted, isClass, id, reached, circle⟩
    rw [exists_error_iff_not_ok, exists_ofGraph_iff wired]
    intro allTake
    obtain ⟨gained, takes⟩ := allTake first.id
      ((mem_emittedClasses wired).mpr ⟨emitted, first, wired.node?_id isNode, isClass⟩)
    exact takes.not_onCircle reached circle
  · intro faults failed
    obtain ⟨nonempty, tell⟩ := ofGraph_error failed
    refine ⟨nonempty, fun fault listed => ?_⟩
    obtain ⟨first, _, tells⟩ := tell fault listed
    exact tells.exists_walk wired

/-- Two classes each of which inlines the other, and one that inlines the first. -/
def mutualInlines : TranslationUnit where
  root := { id := 0, kind := .translationUnit, order := 0 }
  others :=
    [ { id := 1, kind := .class [{ qualifiedName := "B" }] none, name := "A", qualifiedName := "A"
        parent := some 0, order := 1, payloads := [.text "inline_base"] },
      { id := 2, kind := .class [{ qualifiedName := "A" }] none, name := "B", qualifiedName := "B"
        parent := some 0, order := 2, payloads := [.text "inline_base"] },
      { id := 3, kind := .class [{ qualifiedName := "A" }] none, name := "C", qualifiedName := "C"
        parent := some 0, order := 3, payloads := [.text "visible, inline_base"] } ]
  valid := by decide

/-- The circle is told from where it begins, not from the class that leads to it. -/
theorem mutualInlines_findsCircles :
    ∃ table graph faults, Graph.ofUnit mutualInlines table = .ok graph ∧
      (ofGraph graph (Visibility.ofGraph graph {}) {}).1 = .error faults ∧
      faults.map Fault.cause = [.baseClassCycle ["A", "B", "A"]] ∧
      FindsCircles graph (Visibility.ofGraph graph {}) {} := by
  have circles : (Graph.withTable? mutualInlines).any (fun made =>
      match (ofGraph made.2 (Visibility.ofGraph made.2 {}) {}).1 with
      | .ok _ => false
      | .error faults => faults.map Fault.cause == [.baseClassCycle ["A", "B", "A"]]) = true := by
    decide +kernel
  obtain ⟨table, graph, _, built, holds⟩ := Graph.exists_of_any circles
  have finds := ofGraph_findsCircles built (Visibility.ofGraph graph {}) {}
  cases made : (ofGraph graph (Visibility.ofGraph graph {}) {}).1 with
  | ok inheritance =>
      rw [made] at holds
      cases holds
  | error faults =>
      simp only [made, beq_iff_eq] at holds
      exact ⟨table, graph, faults, built, made, holds, finds⟩

end Registrar.Inheritance
