import Mathlib.Data.List.Nodup
import Mathlib.Data.List.Perm.Subperm
import Registrar.TopologicalOrder

/-!
Contract: what holds of every list that was put in order.

Owns: that an order has each distinct item once, and that every item in it
follows the listed items that it depends on.

Does not own: which of several such orders is found, and the circles that keep
items from having one.
-/

set_option autoImplicit false

namespace Registrar.TopologicalOrder

universe u

variable {α : Type u} [LE α] [DecidableLE α] [DecidableEq α]

/-- In an ordered list each item comes after those listed items that it depends
on, itself aside. -/
def Follows (dependencies : α → List α) (listed ordered : List α) : Prop :=
  ∀ before item after, ordered = before ++ item :: after →
    ∀ dependency ∈ dependencies item, dependency ∈ listed → dependency ≠ item →
      dependency ∈ before

/-! ## Distinct items -/

omit [LE α] [DecidableLE α] [DecidableEq α] in
/-- A list without its repetitions has none. -/
theorem nodup_eraseDups [BEq α] [LawfulBEq α] (items : List α) : items.eraseDups.Nodup := by
  cases items with
  | nil => simp
  | cons first rest =>
      rw [List.eraseDups_cons, List.nodup_cons]
      refine ⟨by simp, ?_⟩
      exact nodup_eraseDups (rest.filter fun other => !other == first)
termination_by items.length
decreasing_by
  rw [List.length_cons]
  exact Nat.lt_succ_of_le (List.length_filter_le _ _)

omit [LE α] [DecidableLE α] in
/-- A list without repetitions stays as it is. -/
theorem eraseDups_of_nodup {items : List α} (distinct : items.Nodup) :
    items.eraseDups = items := by
  induction items with
  | nil => rfl
  | cons first rest inductionHypothesis =>
      obtain ⟨absent, restDistinct⟩ := List.nodup_cons.mp distinct
      have kept : (rest.filter fun other => !other == first) = rest := by
        rw [List.filter_eq_self]
        intro other member
        have different : other ≠ first := fun equal => absent (equal ▸ member)
        simpa using different
      rw [List.eraseDups_cons, kept, inductionHypothesis restDistinct]

/-! ## One step -/

omit [DecidableEq α] in
/-- The least of some items is one of them. -/
theorem mem_of_least? {waiting : List (Pending α)} {least : Pending α}
    (found : least? waiting = some least) : least ∈ waiting := by
  induction waiting generalizing least with
  | nil => simp [least?] at found
  | cons first rest inductionHypothesis =>
      rw [least?] at found
      cases others : least? rest with
      | none =>
          simp only [others, Option.some.injEq] at found
          simp [found]
      | some other =>
          simp only [others] at found
          have otherMember := inductionHypothesis others
          split at found
          · simp_all
          · simp_all

omit [LE α] [DecidableLE α] in
/-- What remains once an item is in order are the other items. -/
theorem map_item_release (item : α) (remaining : List (Pending α)) :
    (release item remaining).map Pending.item =
      (remaining.map Pending.item).filter fun other => other != item := by
  rw [release, List.map_map, List.filter_map]
  rfl

omit [LE α] [DecidableLE α] in
/-- Among distinct items, the one in order and those that remain are all. -/
theorem perm_cons_release {remaining : List (Pending α)} {next : Pending α}
    (distinct : (remaining.map Pending.item).Nodup) (member : next ∈ remaining) :
    (next.item :: (release next.item remaining).map Pending.item).Perm
      (remaining.map Pending.item) := by
  have listed : next.item ∈ remaining.map Pending.item := List.mem_map_of_mem member
  rw [map_item_release, ← distinct.erase_eq_filter]
  exact (List.perm_cons_erase listed).symm

/-! ## All steps -/

/-- Nothing is lost: the items taken and those left over are all items. -/
theorem takeReady_perm (steps : Nat) {remaining : List (Pending α)}
    (distinct : (remaining.map Pending.item).Nodup) :
    ((takeReady steps remaining).1 ++ (takeReady steps remaining).2.map Pending.item).Perm
      (remaining.map Pending.item) := by
  induction steps generalizing remaining with
  | zero => exact List.Perm.refl _
  | succ steps inductionHypothesis =>
      rw [takeReady]
      cases found : least? (remaining.filter isReady) with
      | none => exact List.Perm.refl _
      | some next =>
          have member : next ∈ remaining := (List.mem_filter.mp (mem_of_least? found)).1
          have wholePerm := perm_cons_release distinct member
          have restDistinct : ((release next.item remaining).map Pending.item).Nodup :=
            (List.nodup_cons.mp (wholePerm.nodup_iff.mpr distinct)).2
          have restPerm := inductionHypothesis restDistinct
          exact (restPerm.cons next.item).trans wholePerm

/-- When an item is taken, everything that it waits for has been taken. -/
theorem takeReady_waitsFor (steps : Nat) {remaining : List (Pending α)}
    (distinct : (remaining.map Pending.item).Nodup) {before after : List α}
    {waiting : Pending α} (member : waiting ∈ remaining)
    (taken : (takeReady steps remaining).1 = before ++ waiting.item :: after) :
    ∀ dependency ∈ waiting.waitsFor, dependency ∈ before := by
  induction steps generalizing remaining before waiting with
  | zero => simp [takeReady] at taken
  | succ steps inductionHypothesis =>
      rw [takeReady] at taken
      cases found : least? (remaining.filter isReady) with
      | none => simp [found] at taken
      | some next =>
          obtain ⟨nextMember, nextReady⟩ := List.mem_filter.mp (mem_of_least? found)
          simp only [found] at taken
          have wholePerm := perm_cons_release distinct nextMember
          obtain ⟨nextGone, restDistinct⟩ :=
            List.nodup_cons.mp (wholePerm.nodup_iff.mpr distinct)
          cases before with
          | nil =>
              -- The first item taken is ready, so it waits for nothing.
              have same : waiting = next :=
                List.inj_on_of_nodup_map distinct member nextMember
                  (List.cons.inj taken).1.symm
              rw [isReady, List.isEmpty_iff] at nextReady
              simp [same, nextReady]
          | cons first before =>
              obtain ⟨rfl, takenLater⟩ := List.cons.inj taken
              have listedLater :
                  waiting.item ∈ (takeReady steps (release next.item remaining)).1 := by
                simp [takenLater]
              have remains : waiting.item ∈ (release next.item remaining).map Pending.item :=
                (takeReady_perm steps restDistinct).subset
                  (List.mem_append_left _ listedLater)
              have different : waiting.item ≠ next.item := fun equal =>
                nextGone (equal ▸ remains)
              let released : Pending α :=
                { waiting with
                  waitsFor := waiting.waitsFor.filter fun other => other != next.item }
              have releasedMember : released ∈ release next.item remaining := by
                refine List.mem_map.mpr ⟨waiting, List.mem_filter.mpr ⟨member, ?_⟩, rfl⟩
                simpa using different
              have laterBefore := inductionHypothesis restDistinct releasedMember takenLater
              intro dependency waited
              by_cases isNext : dependency = next.item
              · simp [isNext]
              · have stillWaited : dependency ∈ released.waitsFor :=
                  List.mem_filter.mpr ⟨waited, by simpa using isNext⟩
                exact List.mem_cons_of_mem _ (laterBefore dependency stillWaited)

/-! ## The order -/

omit [LE α] [DecidableLE α] in
theorem map_item_pending (key : α → Nat) (dependencies : α → List α) (items : List α) :
    (pending key dependencies items).map Pending.item = items.eraseDups := by
  simp [pending, Function.comp_def]

/-- An order is found only if all items could be taken. -/
theorem takeReady_of_order {key : α → Nat} {dependencies : α → List α}
    {items ordered : List α} (inOrder : order key dependencies items = .ok ordered) :
    takeReady (pending key dependencies items).length (pending key dependencies items) =
      (ordered, []) := by
  simp only [order] at inOrder
  split at inOrder
  · rename_i noneLeft
    rw [List.isEmpty_iff] at noneLeft
    exact Prod.ext (Except.ok.inj inOrder) noneLeft
  · cases inOrder

/-- An order has each distinct item once. -/
theorem order_perm {key : α → Nat} {dependencies : α → List α} {items ordered : List α}
    (inOrder : order key dependencies items = .ok ordered) : ordered.Perm items.eraseDups := by
  have distinct : ((pending key dependencies items).map Pending.item).Nodup := by
    rw [map_item_pending]
    exact nodup_eraseDups items
  have all := takeReady_perm (pending key dependencies items).length distinct
  rwa [takeReady_of_order inOrder, List.map_nil, List.append_nil, map_item_pending] at all

/-- An order of distinct items is a permutation of them. -/
theorem order_perm_of_nodup {key : α → Nat} {dependencies : α → List α}
    {items ordered : List α} (inOrder : order key dependencies items = .ok ordered)
    (distinct : items.Nodup) : ordered.Perm items := by
  have all := order_perm inOrder
  rwa [eraseDups_of_nodup distinct] at all

/-- In an order every item follows what it depends on. -/
theorem order_follows {key : α → Nat} {dependencies : α → List α} {items ordered : List α}
    (inOrder : order key dependencies items = .ok ordered) :
    Follows dependencies items ordered := by
  intro before item after split dependency depends listed different
  have itemListed : item ∈ items.eraseDups :=
    (order_perm inOrder).subset (by simp [split])
  let waiting : Pending α :=
    { item
      key := key item
      waitsFor := (dependencies item).filter fun other =>
        other != item && items.eraseDups.contains other }
  have member : waiting ∈ pending key dependencies items :=
    List.mem_map.mpr ⟨item, itemListed, rfl⟩
  have distinct : ((pending key dependencies items).map Pending.item).Nodup := by
    rw [map_item_pending]
    exact nodup_eraseDups items
  have taken := congrArg Prod.fst (takeReady_of_order inOrder)
  refine takeReady_waitsFor _ distinct member (taken.trans split) dependency ?_
  refine List.mem_filter.mpr ⟨depends, ?_⟩
  simpa [different, List.mem_eraseDups] using listed

end Registrar.TopologicalOrder
