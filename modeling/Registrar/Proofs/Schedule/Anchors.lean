import Mathlib
import Registrar.Proofs.Schedule.Blocks
import Registrar.Proofs.Schedule.Circles

/-!
Contract: where manual blocks stand among the items of a context.

Owns: that items can be put in order exactly if every anchor is there, that each
block then stands on its side of its anchors, next to them unless items share a
number, and that registrations keep their order.

Does not own: which items a context has, and how missing anchors are reported.

Of the greedy order only one thing is used: wherever the items are cut, the next
one follows none of those still to come, and has the least key of those that
follow none of them. The rest is about keys. A block is sorted by the least number
of its anchors, so what stands between the two has the number of an anchor as its
key.
-/

set_option autoImplicit false

namespace Registrar.Item

variable {graph : Graph} {visibility : Visibility} {items arranged : List PlacedItem}

/-! ## Statements -/

/-- The block asks for an anchor that is none of the items. -/
def LacksAnchor (graph : Graph) (visibility : Visibility) (items : List PlacedItem)
    (block : PlacedItem) : Prop :=
  ∃ name side, block.item.anchor? graph = some (name, side) ∧
    ∀ other ∈ items, other.item.name? visibility ≠ some name

/-- Blocks stand on their sides of all their anchors, and the other items in source
order. -/
structure KeepsSides (graph : Graph) (visibility : Visibility)
    (arranged : List PlacedItem) : Prop where
  before : ∀ front block back name, arranged = front ++ block :: back →
    block.item.anchor? graph = some (name, .before) →
      ∀ earlier ∈ front, earlier.item.name? visibility ≠ some name
  after : ∀ front block back name, arranged = front ++ block :: back →
    block.item.anchor? graph = some (name, .after) →
      ∀ later ∈ back, later.item.name? visibility ≠ some name
  registrations : (arranged.filter fun placed => placed.item.block?.isNone).Pairwise
    fun earlier later => earlier.order ≤ later.order

/-- Between a block and the nearest of its anchors stand only blocks with the same
anchors, on the same side of them. -/
structure Adjoins (graph : Graph) (visibility : Visibility)
    (arranged : List PlacedItem) : Prop where
  before : ∀ front block between anchor back name,
    arranged = front ++ block :: (between ++ anchor :: back) →
    block.item.anchor? graph = some (name, .before) →
    anchor.item.name? visibility = some name →
    (∀ placed ∈ between, placed.item.name? visibility ≠ some name) →
      ∀ placed ∈ between, placed.item.anchor? graph = some (name, .before)
  after : ∀ front anchor between block back name,
    arranged = front ++ anchor :: (between ++ block :: back) →
    block.item.anchor? graph = some (name, .after) →
    anchor.item.name? visibility = some name →
    (∀ placed ∈ between, placed.item.name? visibility ≠ some name) →
      ∀ placed ∈ between, placed.item.anchor? graph = some (name, .after)

/-- The numbers of all items that are not anchored. -/
def freeOrders (graph : Graph) (items : List PlacedItem) : List Nat :=
  (items.filter fun placed => (placed.item.anchor? graph).isNone).map PlacedItem.order

/-! ## Items taken in turn -/

/-- Wherever the items are cut, the next one follows none of those still to come, and
has the least key of those that follow none of them. -/
structure TakenInTurn (graph : Graph) (visibility : Visibility)
    (arranged : List PlacedItem) : Prop where
  follows : ∀ front placed back, arranged = front ++ placed :: back →
    ∀ later ∈ back, ¬ Leads graph visibility later placed
  least : ∀ front placed back, arranged = front ++ placed :: back →
    ∀ other ∈ back, (∀ waiting ∈ placed :: back, ¬ Leads graph visibility waiting other) →
      keyAmong graph visibility arranged placed ≤ keyAmong graph visibility arranged other

/-- A cut between items is one between their places. -/
theorem exists_cut {places : List Nat} {front back : List PlacedItem} {placed : PlacedItem}
    (cut : (places.filterMap fun place => items[place]?) = front ++ placed :: back) :
    ∃ earlier place later, places = earlier ++ place :: later ∧ items[place]? = some placed ∧
      (later.filterMap fun place => items[place]?) = back := by
  obtain ⟨earlier, rest, rfl, -, isRest⟩ := List.filterMap_eq_append_iff.mp cut
  obtain ⟨skipped, place, later, rfl, -, isPlaced, isBack⟩ :=
    List.filterMap_eq_cons_iff.mp isRest
  exact ⟨earlier ++ skipped, place, later, by rw [List.append_assoc], isPlaced, isBack⟩

theorem apart_of_nodup {earlier later : List Nat} {place other : Nat}
    (distinct : (earlier ++ place :: later).Nodup) (listed : other ∈ later) :
    other ∉ earlier ∧ other ≠ place := by
  rw [List.nodup_middle, List.nodup_cons, List.nodup_append] at distinct
  refine ⟨fun isEarlier => distinct.2.2.2 other isEarlier other listed rfl, ?_⟩
  rintro rfl
  exact distinct.1 (List.mem_append_right _ listed)

section Places

variable {places : List Nat}
  (found : TopologicalOrder.order
    (keyAt (items.map PlacedItem.order) (anchorings graph visibility items))
    (predecessors (anchorings graph visibility items)) (List.range items.length) = .ok places)

include found

theorem places_perm : places.Perm (List.range items.length) :=
  TopologicalOrder.order_perm_of_nodup found List.nodup_range

theorem placed_perm : (places.filterMap fun place => items[place]?).Perm items := by
  have moved := (places_perm found).filterMap fun place => items[place]?
  rwa [filterMap_getElem?_range] at moved

variable {earlier later : List Nat} {place otherPlace : Nat} {placed other : PlacedItem}
  (cut : places = earlier ++ place :: later) (listed : otherPlace ∈ later)
  (isPlaced : items[place]? = some placed) (isThere : items[otherPlace]? = some other)

include cut listed

theorem apart_of_cut : otherPlace ∉ earlier ∧ otherPlace ≠ place :=
  apart_of_nodup (cut ▸ (places_perm found).nodup_iff.mpr List.nodup_range) listed

include isPlaced isThere

/-- The item at a place follows none at a later place. -/
theorem not_leads_of_cut : ¬ Leads graph visibility other placed := by
  intro leads
  obtain ⟨notEarlier, notHere⟩ := apart_of_cut found cut listed
  have inside : otherPlace ∈ List.range items.length :=
    (places_perm found).subset (cut ▸ List.mem_append_right _ (List.mem_cons_of_mem _ listed))
  exact notEarlier (TopologicalOrder.order_follows found earlier place later cut otherPlace
    (mem_predecessors.mpr ⟨other, placed, isThere, isPlaced, leads⟩) inside notHere)

/-- The item at a place has the least key of those at later places that follow none from
that place on. -/
theorem keyAmong_le_of_cut
    (waitsForNone : ∀ waiting ∈ placed :: later.filterMap fun place => items[place]?,
      ¬ Leads graph visibility waiting other) :
    keyAmong graph visibility items placed ≤ keyAmong graph visibility items other := by
  have perm := places_perm found
  have ready : TopologicalOrder.Ready (predecessors (anchorings graph visibility items))
      (List.range items.length) earlier otherPlace := by
    refine ⟨perm.subset (cut ▸ List.mem_append_right _ (List.mem_cons_of_mem _ listed)),
      (apart_of_cut found cut listed).1, ?_⟩
    rintro dependency ⟨_, inside, precedes, _⟩
    obtain ⟨first, second, isFirst, isSecond, leads⟩ := mem_predecessors.mp precedes
    rw [isThere, Option.some.injEq] at isSecond
    have onWay := perm.symm.subset inside
    rw [cut] at onWay
    refine (List.mem_append.mp onWay).resolve_right fun stillToCome => ?_
    refine waitsForNone first ?_ (isSecond ▸ leads)
    rcases List.mem_cons.mp stillToCome with rfl | isLater
    · rw [isPlaced, Option.some.injEq] at isFirst
      exact isFirst ▸ List.mem_cons_self
    · exact List.mem_cons_of_mem _ (List.mem_filterMap.mpr ⟨dependency, isLater, isFirst⟩)
  rw [← keyAt_eq graph visibility isPlaced, ← keyAt_eq graph visibility isThere]
  rcases ((TopologicalOrder.greedy_of_order found).isNext cut).least otherPlace ready with
    less | ⟨same, _⟩
  · exact less.le
  · exact same.le

end Places

/-- Items in order are taken in turn. -/
theorem exists_takenInTurn {ordered : List Item}
    (isOrder : inOrder graph visibility items = .ok ordered) :
    ∃ arranged, arranged.Perm items ∧ arranged.map PlacedItem.item = ordered ∧
      TakenInTurn graph visibility arranged := by
  unfold inOrder at isOrder
  dsimp only at isOrder
  split at isOrder
  · cases isOrder
  split at isOrder
  case h_2 => cases isOrder
  rename_i places found
  refine ⟨_, placed_perm found, Except.ok.inj isOrder, ?_, ?_⟩
  · intro front placed back cut later isLater
    obtain ⟨earlier, place, rest, isSplit, isPlaced, rfl⟩ := exists_cut cut
    obtain ⟨laterPlace, listed, isThere⟩ := List.mem_filterMap.mp isLater
    exact not_leads_of_cut found isSplit listed isPlaced isThere
  · intro front placed back cut other isLater waitsForNone
    obtain ⟨earlier, place, rest, isSplit, isPlaced, rfl⟩ := exists_cut cut
    obtain ⟨otherPlace, listed, isThere⟩ := List.mem_filterMap.mp isLater
    rw [keyAmong_eq_of_perm (placed_perm found), keyAmong_eq_of_perm (placed_perm found)]
    exact keyAmong_le_of_cut found isSplit listed isPlaced isThere waitsForNone

/-! ## Anchors and names -/

theorem name?_eq_none_of_anchor {placed : PlacedItem} {anchor : String × Side}
    (hasAnchor : placed.item.anchor? graph = some anchor) :
    placed.item.name? visibility = none := by
  obtain ⟨node, isBlock⟩ := exists_block_of_anchor? hasAnchor
  rw [isBlock]
  rfl

theorem name?_isSome_iff {item : Item} :
    (item.name? visibility).isSome = true ↔ item.block? = none := by
  cases item <;> simp [name?, block?]

/-- Nothing has to come before a block that stands before its anchors. -/
theorem not_leads_before {earlier block : PlacedItem} {name : String}
    (hasAnchor : block.item.anchor? graph = some (name, .before)) :
    ¬ Leads graph visibility earlier block := by
  intro leads
  have further := leads.standing_lt
  rw [standing, standing, hasAnchor] at further
  exact Nat.not_lt_zero _ further

/-- A block before its anchors leads nothing else. -/
theorem not_leads_of_before {block other : PlacedItem} {name : String}
    (hasAnchor : block.item.anchor? graph = some (name, .before))
    (unnamed : other.item.name? visibility ≠ some name) :
    ¬ Leads graph visibility block other := by
  rintro ⟨found, ⟨isAnchor, isName⟩ | ⟨_, isName⟩⟩
  · rw [hasAnchor, Option.some.injEq, Prod.mk.injEq] at isAnchor
    exact unnamed (isAnchor.1 ▸ isName)
  · rw [name?_eq_none_of_anchor hasAnchor] at isName
    cases isName

/-- A block after its anchors leads nothing. -/
theorem not_leads_of_after {block other : PlacedItem} {name : String}
    (hasAnchor : block.item.anchor? graph = some (name, .after)) :
    ¬ Leads graph visibility block other := by
  rintro ⟨found, ⟨isAnchor, _⟩ | ⟨_, isName⟩⟩
  · rw [hasAnchor] at isAnchor
    cases isAnchor
  · rw [name?_eq_none_of_anchor hasAnchor] at isName
    cases isName

/-- Only its anchors lead a block after its anchors. -/
theorem not_leads_after {earlier block : PlacedItem} {name : String}
    (hasAnchor : block.item.anchor? graph = some (name, .after))
    (unnamed : earlier.item.name? visibility ≠ some name) :
    ¬ Leads graph visibility earlier block := by
  rintro ⟨found, ⟨_, isName⟩ | ⟨isAnchor, isName⟩⟩
  · rw [name?_eq_none_of_anchor hasAnchor] at isName
    cases isName
  · rw [hasAnchor, Option.some.injEq, Prod.mk.injEq] at isAnchor
    exact unnamed (isAnchor.1 ▸ isName)

theorem keyAmong_of_plain {placed : PlacedItem} (plain : placed.item.anchor? graph = none) :
    keyAmong graph visibility items placed = placed.order := by
  unfold keyAmong
  rw [plain]

/-- The key of a block with an anchor is the least number of its anchors. -/
theorem exists_least_anchor {block other : PlacedItem} {name : String} {side : Side}
    (hasAnchor : block.item.anchor? graph = some (name, side)) (listed : other ∈ items)
    (isName : other.item.name? visibility = some name) :
    ∃ anchor ∈ items, anchor.item.name? visibility = some name ∧
      keyAmong graph visibility items block = anchor.order ∧ anchor.order ≤ other.order := by
  have isAnchor : other.order ∈ (items.filter (isNamed visibility name)).map PlacedItem.order :=
    List.mem_map_of_mem (List.mem_filter.mpr ⟨listed, beq_iff_eq.mpr isName⟩)
  obtain ⟨least, isLeast⟩ := Option.isSome_iff_exists.mp (List.isSome_min?_of_mem isAnchor)
  obtain ⟨anchor, kept, isOrder⟩ := List.mem_map.mp (List.min?_mem isLeast)
  obtain ⟨anchorListed, anchorNamed⟩ := List.mem_filter.mp kept
  refine ⟨anchor, anchorListed, beq_iff_eq.mp anchorNamed, ?_, ?_⟩
  · unfold keyAmong
    rw [hasAnchor]
    dsimp only
    rw [isLeast, Option.getD_some, isOrder]
  · rw [isOrder]
    exact (List.min?_eq_some_iff.mp isLeast).2 _ isAnchor

theorem exists_anchor_of_key {block : PlacedItem} {name : String} {side : Side}
    (hasAnchor : block.item.anchor? graph = some (name, side))
    (present : ¬ LacksAnchor graph visibility items block) :
    ∃ anchor ∈ items, anchor.item.name? visibility = some name ∧
      keyAmong graph visibility items block = anchor.order := by
  have isThere : ∃ other ∈ items, other.item.name? visibility = some name := by
    by_contra absent
    push Not at absent
    exact present ⟨name, side, hasAnchor, absent⟩
  obtain ⟨other, listed, isName⟩ := isThere
  obtain ⟨anchor, anchorListed, anchorNamed, isKey, _⟩ :=
    exists_least_anchor hasAnchor listed isName
  exact ⟨anchor, anchorListed, anchorNamed, isKey⟩

/-- No anchor has a number below the key of the block. -/
theorem key_le_of_anchor {block anchor : PlacedItem} {name : String} {side : Side}
    (hasAnchor : block.item.anchor? graph = some (name, side)) (listed : anchor ∈ items)
    (isName : anchor.item.name? visibility = some name) :
    keyAmong graph visibility items block ≤ anchor.order := by
  obtain ⟨least, _, _, isKey, atMost⟩ := exists_least_anchor hasAnchor listed isName
  rw [isKey]
  exact atMost

/-- What has the number of a named item as its key is a block anchored to that name, or
has the name itself, where no two free items share a number. -/
theorem exists_side_of_key_eq {placed anchor : PlacedItem} {name : String}
    (distinct : (freeOrders graph items).Nodup)
    (present : ∀ block ∈ items, ¬ LacksAnchor graph visibility items block)
    (placedListed : placed ∈ items) (anchorListed : anchor ∈ items)
    (isName : anchor.item.name? visibility = some name)
    (sameKey : keyAmong graph visibility items placed = anchor.order)
    (otherName : placed.item.name? visibility ≠ some name) :
    ∃ side, placed.item.anchor? graph = some (name, side) := by
  have eq_of_order {left right : PlacedItem} (leftListed : left ∈ items)
      (rightListed : right ∈ items) (leftFree : left.item.anchor? graph = none)
      (rightFree : right.item.anchor? graph = none) (same : left.order = right.order) :
      left = right :=
    List.inj_on_of_nodup_map distinct
      (List.mem_filter.mpr ⟨leftListed, Option.isNone_iff_eq_none.mpr leftFree⟩)
      (List.mem_filter.mpr ⟨rightListed, Option.isNone_iff_eq_none.mpr rightFree⟩) same
  have anchorFree : anchor.item.anchor? graph = none := anchor?_eq_none_of_name isName
  cases hasAnchor : placed.item.anchor? graph with
  | none =>
      rw [keyAmong_of_plain hasAnchor] at sameKey
      have same := eq_of_order placedListed anchorListed hasAnchor anchorFree sameKey
      exact absurd (same ▸ isName) otherName
  | some found =>
      obtain ⟨other, side⟩ := found
      obtain ⟨first, firstListed, firstNamed, isKey⟩ :=
        exists_anchor_of_key hasAnchor (present placed placedListed)
      have same := eq_of_order firstListed anchorListed (anchor?_eq_none_of_name firstNamed)
        anchorFree (isKey.symm.trans sameKey)
      rw [same, isName, Option.some.injEq] at firstNamed
      exact ⟨side, by rw [firstNamed]⟩

/-! ## Sides -/

namespace TakenInTurn

variable (inTurn : TakenInTurn graph visibility arranged)

include inTurn

/-- Nothing is taken while a free item with a lower number is still to come. -/
theorem key_le_order {front back : List PlacedItem} {placed other : PlacedItem}
    (cut : arranged = front ++ placed :: back) (stillToCome : other ∈ back)
    (free : other.item.anchor? graph = none) :
    keyAmong graph visibility arranged placed ≤ other.order := by
  have otherListed : other ∈ arranged :=
    cut ▸ List.mem_append_right _ (List.mem_cons_of_mem _ stillToCome)
  by_cases waits : ∃ waiting ∈ placed :: back, Leads graph visibility waiting other
  · -- A free item waits only for blocks before it, which wait for nothing themselves.
    obtain ⟨waiting, listed, name, ⟨hasAnchor, isName⟩ | ⟨isAfter, _⟩⟩ := waits
    · have waitingKey := key_le_of_anchor hasAnchor otherListed isName
      rcases List.mem_cons.mp listed with rfl | isLater
      · exact waitingKey
      · exact (inTurn.least front placed back cut waiting isLater
          fun earlier _ => not_leads_before hasAnchor).trans waitingKey
    · rw [free] at isAfter
      cases isAfter
  · push Not at waits
    rw [← keyAmong_of_plain free]
    exact inTurn.least front placed back cut other stillToCome waits

theorem registrations_sorted :
    (arranged.filter fun placed => placed.item.block?.isNone).Pairwise
      fun earlier later => earlier.order ≤ later.order := by
  have free {placed : PlacedItem} (isRegistration : placed.item.block?.isNone = true) :
      placed.item.anchor? graph = none := by
    obtain ⟨name, isName⟩ := Option.isSome_iff_exists.mp
      ((@name?_isSome_iff visibility placed.item).mpr
        (Option.isNone_iff_eq_none.mp isRegistration))
    exact anchor?_eq_none_of_name isName
  rw [List.pairwise_filter, List.pairwise_iff_forall_sublist]
  intro earlier later apart earlierIs laterIs
  obtain ⟨left, right, isSplit, earlierListed, laterListed⟩ := List.cons_sublist_iff.mp apart
  obtain ⟨front, middle, rfl⟩ := List.append_of_mem earlierListed
  have cut : arranged = front ++ earlier :: (middle ++ right) := by
    rw [isSplit, List.append_assoc, List.cons_append]
  rw [← keyAmong_of_plain (free earlierIs)]
  exact inTurn.key_le_order cut
    (List.mem_append_right _ (List.singleton_sublist.mp laterListed)) (free laterIs)

theorem keepsSides : KeepsSides graph visibility arranged where
  before := by
    intro front block back name cut hasAnchor earlier isEarlier isName
    obtain ⟨first, middle, rfl⟩ := List.append_of_mem isEarlier
    rw [List.append_assoc, List.cons_append] at cut
    exact inTurn.follows first earlier (middle ++ block :: back) cut block
      (List.mem_append_right _ List.mem_cons_self) ⟨name, .inl ⟨hasAnchor, isName⟩⟩
  after := by
    intro front block back name cut hasAnchor later isLater isName
    exact inTurn.follows front block back cut later isLater ⟨name, .inr ⟨hasAnchor, isName⟩⟩
  registrations := inTurn.registrations_sorted

/-- What is taken follows neither itself nor anything still to come. -/
theorem not_leads_of_rest {front back : List PlacedItem} {placed : PlacedItem}
    (cut : arranged = front ++ placed :: back) :
    ∀ waiting ∈ placed :: back, ¬ Leads graph visibility waiting placed := by
  intro waiting listed leads
  rcases List.mem_cons.mp listed with rfl | isLater
  · exact Nat.lt_irrefl _ leads.standing_lt
  · exact inTurn.follows front placed back cut waiting isLater leads

/-- What a block stands before is still to come when the block is taken. -/
theorem mem_back_of_name {front back : List PlacedItem} {block other : PlacedItem} {name : String}
    (cut : arranged = front ++ block :: back)
    (hasAnchor : block.item.anchor? graph = some (name, .before)) (listed : other ∈ arranged)
    (isName : other.item.name? visibility = some name) : other ∈ back := by
  rw [cut, List.mem_append, List.mem_cons] at listed
  rcases listed with isFront | rfl | isBack
  · exact absurd isName (inTurn.keepsSides.before front block back name cut hasAnchor other isFront)
  · rw [name?_eq_none_of_anchor hasAnchor] at isName
    cases isName
  · exact isBack

/-- What could be taken as well as an item, and is taken later, has no lower key. -/
theorem key_le_of_between {front between back : List PlacedItem} {first placed : PlacedItem}
    (cut : arranged = front ++ first :: (between ++ placed :: back))
    (noneLeads : ∀ waiting ∈ first :: between, ¬ Leads graph visibility waiting placed) :
    keyAmong graph visibility arranged first ≤ keyAmong graph visibility arranged placed := by
  have placedCut : arranged = (front ++ first :: between) ++ placed :: back := by
    rw [cut, List.append_assoc, List.cons_append]
  refine inTurn.least front first _ cut placed
    (List.mem_append_right _ List.mem_cons_self) fun waiting listed => ?_
  rw [← List.cons_append, List.mem_append] at listed
  rcases listed with isEarlier | isRest
  · exact noneLeads waiting isEarlier
  · exact inTurn.not_leads_of_rest placedCut waiting isRest

/-! ## Neighbours -/

omit inTurn in
/-- What holds of each of some items if it holds of those before it, holds of all. -/
theorem forall_mem_of_cuts {Holds : PlacedItem → Prop} {between : List PlacedItem}
    (step : ∀ earlier placed later, between = earlier ++ placed :: later →
      (∀ other ∈ earlier, Holds other) → Holds placed) :
    ∀ placed ∈ between, Holds placed := by
  induction between using List.reverseRecOn with
  | nil => simp
  | append_singleton between last inductionHypothesis =>
      have earlierHold : ∀ placed ∈ between, Holds placed := by
        refine inductionHypothesis fun earlier placed later isSplit => ?_
        exact step earlier placed (later ++ [last])
          (by rw [isSplit, List.append_assoc, List.cons_append])
      intro placed listed
      rcases List.mem_append.mp listed with isEarlier | isLast
      · exact earlierHold placed isEarlier
      · rw [List.mem_singleton.mp isLast]
        exact step between last [] rfl earlierHold

variable (distinct : (freeOrders graph arranged).Nodup)
  (present : ∀ block ∈ arranged, ¬ LacksAnchor graph visibility arranged block)

include distinct present

/-- What is taken after a block and before its anchors has the key of the block, since
the block was taken first although it could be taken as well. -/
theorem adjoins_before {front between back : List PlacedItem} {block anchor : PlacedItem}
    {name : String} (cut : arranged = front ++ block :: (between ++ anchor :: back))
    (hasAnchor : block.item.anchor? graph = some (name, .before))
    (unnamed : ∀ placed ∈ between, placed.item.name? visibility ≠ some name) :
    ∀ placed ∈ between, placed.item.anchor? graph = some (name, .before) := by
  -- The first anchor by number need not be the first by place, but is still to come.
  obtain ⟨first, firstListed, firstNamed, isKey⟩ := exists_anchor_of_key hasAnchor
    (present block (cut ▸ List.mem_append_right _ List.mem_cons_self))
  have firstLater : first ∈ anchor :: back :=
    (List.mem_append.mp (inTurn.mem_back_of_name cut hasAnchor firstListed
      firstNamed)).resolve_left fun isBetween => unnamed first isBetween firstNamed
  refine forall_mem_of_cuts ?_
  rintro earlier placed later rfl earlierStand
  rw [List.append_assoc, List.cons_append] at cut
  have placedCut : arranged =
      (front ++ block :: earlier) ++ placed :: (later ++ anchor :: back) := by
    rw [cut, List.append_assoc, List.cons_append]
  have placedUnnamed := unnamed placed (List.mem_append_right _ List.mem_cons_self)
  have atMost : keyAmong graph visibility arranged placed ≤ first.order :=
    inTurn.key_le_order placedCut (List.mem_append_right _ firstLater)
      (anchor?_eq_none_of_name firstNamed)
  have allStand : ∀ other ∈ block :: earlier, other.item.anchor? graph = some (name, .before) :=
    List.forall_mem_cons.mpr ⟨hasAnchor, earlierStand⟩
  have atLeast : keyAmong graph visibility arranged block ≤
      keyAmong graph visibility arranged placed :=
    inTurn.key_le_of_between cut fun waiting isEarlier =>
      not_leads_of_before (allStand waiting isEarlier) placedUnnamed
  obtain ⟨side, isAnchored⟩ := exists_side_of_key_eq distinct present
    (placedCut ▸ List.mem_append_right _ List.mem_cons_self) firstListed firstNamed
    (atMost.antisymm (isKey ▸ atLeast)) placedUnnamed
  cases side with
  | before => exact isAnchored
  | after =>
      exact absurd firstNamed (inTurn.keepsSides.after _ placed _ name placedCut isAnchored first
        (List.mem_append_right _ firstLater))

/-- What is taken after the last anchor of a block and before the block has the key of
the block, since each of the two could be taken as well as the one after it. -/
theorem adjoins_after {front between back : List PlacedItem} {block anchor : PlacedItem}
    {name : String} (cut : arranged = front ++ anchor :: (between ++ block :: back))
    (hasAnchor : block.item.anchor? graph = some (name, .after))
    (isName : anchor.item.name? visibility = some name)
    (unnamed : ∀ placed ∈ between, placed.item.name? visibility ≠ some name) :
    ∀ placed ∈ between, placed.item.anchor? graph = some (name, .after) := by
  have anchorListed : anchor ∈ arranged := cut ▸ List.mem_append_right _ List.mem_cons_self
  have anchorFree : anchor.item.anchor? graph = none := anchor?_eq_none_of_name isName
  have blockCut : arranged = (front ++ anchor :: between) ++ block :: back := by
    rw [cut, List.append_assoc, List.cons_append]
  have backUnnamed := inTurn.keepsSides.after _ block back name blockCut hasAnchor
  refine forall_mem_of_cuts ?_
  rintro earlier placed later rfl earlierStand
  rw [List.append_assoc, List.cons_append] at cut
  have placedCut : arranged =
      (front ++ anchor :: earlier) ++ placed :: (later ++ block :: back) := by
    rw [cut, List.append_assoc, List.cons_append]
  -- Of what was taken since, only the anchor can have been waited for.
  by_cases leads : Leads graph visibility anchor placed
  · obtain ⟨other, ⟨isAnchored, _⟩ | ⟨isAnchored, isOther⟩⟩ := leads
    · rw [anchorFree] at isAnchored
      cases isAnchored
    · rw [isName, Option.some.injEq] at isOther
      rw [isAnchored, isOther]
  have restUnnamed : ∀ waiting ∈ placed :: later, waiting.item.name? visibility ≠ some name :=
    fun waiting isRest => unnamed waiting (List.mem_append_right _ isRest)
  have atMost : keyAmong graph visibility arranged placed ≤
      keyAmong graph visibility arranged block :=
    inTurn.key_le_of_between placedCut fun waiting isRest =>
      not_leads_after hasAnchor (restUnnamed waiting isRest)
  have blockKey := key_le_of_anchor hasAnchor anchorListed isName
  have atLeast : anchor.order ≤ keyAmong graph visibility arranged placed := by
    rw [← keyAmong_of_plain anchorFree]
    exact inTurn.key_le_of_between cut (List.forall_mem_cons.mpr
      ⟨leads, fun waiting isEarlier => not_leads_of_after (earlierStand waiting isEarlier)⟩)
  obtain ⟨side, isAnchored⟩ := exists_side_of_key_eq distinct present
    (placedCut ▸ List.mem_append_right _ List.mem_cons_self) anchorListed isName
    ((atMost.trans blockKey).antisymm atLeast) (restUnnamed placed List.mem_cons_self)
  cases side with
  | before =>
      exact absurd isName (inTurn.keepsSides.before _ placed _ name placedCut isAnchored anchor
        (List.mem_append_right _ List.mem_cons_self))
  | after => exact isAnchored

end TakenInTurn

/-! ## The order -/

theorem lacksAnchor_iff_of_perm {others : List PlacedItem} (perm : others.Perm items)
    {block : PlacedItem} :
    LacksAnchor graph visibility others block ↔ LacksAnchor graph visibility items block := by
  unfold LacksAnchor
  simp only [perm.mem_iff]

/-- A block is told of exactly if its anchor is missing. -/
theorem isSome_faultAmong?_iff {block : PlacedItem} :
    (faultAmong? graph visibility items block).isSome = true ↔
      LacksAnchor graph visibility items block := by
  constructor
  · intro isFault
    unfold faultAmong? at isFault
    split at isFault
    · rename_i hasAnchor
      split at isFault
      · cases isFault
      · rename_i absent
        refine ⟨_, _, hasAnchor, fun other listed isName => absent ?_⟩
        exact List.any_eq_true.mpr ⟨other, listed, beq_iff_eq.mpr isName⟩
    · cases isFault
  · rintro ⟨name, side, hasAnchor, absent⟩
    obtain ⟨id, isBlock⟩ := exists_block_of_anchor? hasAnchor
    have notNamed : items.any (isNamed visibility name) = false := by
      rw [List.any_eq_false]
      exact fun other listed isName => absent other listed (beq_iff_eq.mp isName)
    unfold faultAmong?
    rw [isBlock] at hasAnchor ⊢
    simp only [hasAnchor, notNamed]
    cases found : graph.node? id with
    | some node => rfl
    | none =>
        unfold anchor? at hasAnchor
        simp only [found] at hasAnchor
        cases hasAnchor

/-- Items cannot be put in order exactly if an anchor is missing. -/
theorem exists_error_iff : (∃ faults, inOrder graph visibility items = .error faults) ↔
    ∃ block ∈ items, LacksAnchor graph visibility items block := by
  have hasFault : (∃ block ∈ items, LacksAnchor graph visibility items block) ↔
      (anchorings graph visibility items).filterMap (anchorFault? graph) ≠ [] := by
    rw [anchorFaults_eq, ne_eq, List.filterMap_eq_nil_iff]
    push Not
    simp only [← isSome_faultAmong?_iff, Option.isSome_iff_ne_none]
  rw [hasFault]
  constructor
  · rintro ⟨faults, fails⟩
    rw [← inOrder_error fails]
    exact inOrder_error_ne_nil fails
  · intro nonempty
    refine ⟨(anchorings graph visibility items).filterMap (anchorFault? graph), ?_⟩
    unfold inOrder
    dsimp only
    rw [if_pos (by simpa using nonempty)]

/-- Items can be put in order exactly if the anchor of each block is among them. Then
none is lost, each block stands on its side of its anchors, and registrations stay in
source order. A block is separated from its anchors by blocks like it alone, unless two
free items share a number. -/
theorem inOrder_keepsSides (graph : Graph) (visibility : Visibility) (items : List PlacedItem) :
    ((∃ faults, inOrder graph visibility items = .error faults) ↔
        ∃ block ∈ items, LacksAnchor graph visibility items block) ∧
      ∀ ordered, inOrder graph visibility items = .ok ordered →
        ∃ arranged, arranged.Perm items ∧ arranged.map PlacedItem.item = ordered ∧
          KeepsSides graph visibility arranged ∧
          ((freeOrders graph items).Nodup → Adjoins graph visibility arranged) := by
  refine ⟨exists_error_iff, ?_⟩
  intro ordered isOrder
  obtain ⟨arranged, perm, isMap, inTurn⟩ := exists_takenInTurn isOrder
  refine ⟨arranged, perm, isMap, inTurn.keepsSides, ?_⟩
  intro itemsDistinct
  have distinct : (freeOrders graph arranged).Nodup :=
    ((perm.filter _).map PlacedItem.order).nodup_iff.mpr itemsDistinct
  have present : ∀ block ∈ arranged, ¬ LacksAnchor graph visibility arranged block := by
    intro block listed lacks
    obtain ⟨faults, fails⟩ := exists_error_iff.mpr
      ⟨block, perm.subset listed, (lacksAnchor_iff_of_perm perm).mp lacks⟩
    rw [isOrder] at fails
    cases fails
  exact
    { before := fun _ _ _ _ _ _ cut hasAnchor _ unnamed =>
        inTurn.adjoins_before distinct present cut hasAnchor unnamed
      after := fun _ _ _ _ _ _ cut hasAnchor isName unnamed =>
        inTurn.adjoins_after distinct present cut hasAnchor isName unnamed }

end Registrar.Item
