import Mathlib
import Registrar.Proofs.Schedule.Items
import Registrar.Proofs.TopologicalOrder.Renaming

/-!
Contract: items of a context that were collected in another order.

Owns: what decides about the place of an item, told by the items and not by
where they stand, and so that items which differ in their place in the source may
be collected in any order.

Does not own: which items a context has.
-/

set_option autoImplicit false

namespace Registrar.Item

variable {graph : Graph} {visibility : Visibility} {items : List PlacedItem}

/-! ## Anchors -/

def isNamed (visibility : Visibility) (name : String) (placed : PlacedItem) : Bool :=
  placed.item.name? visibility == some name

theorem mem_placesOf {name : String} {place : Nat} :
    place ∈ placesOf (items.map fun placed => placed.item.name? visibility) name ↔
      ∃ placed, items[place]? = some placed ∧ placed.item.name? visibility = some name := by
  unfold placesOf
  rw [List.mem_map]
  constructor
  · rintro ⟨⟨named, found⟩, kept, rfl⟩
    obtain ⟨listed, isName⟩ := List.mem_filter.mp kept
    rw [List.mem_zipIdx_iff_getElem?, List.getElem?_map, Option.map_eq_some_iff] at listed
    obtain ⟨placed, isPlaced, rfl⟩ := listed
    exact ⟨placed, isPlaced, beq_iff_eq.mp isName⟩
  · rintro ⟨placed, isPlaced, isName⟩
    refine ⟨(some name, place), List.mem_filter.mpr ⟨?_, beq_self_eq_true _⟩, rfl⟩
    rw [List.mem_zipIdx_iff_getElem?, List.getElem?_map, isPlaced, Option.map_some, isName]

/-- What stands at the places of a name are the items of that name. -/
theorem map_placesOf (name : String) :
    (placesOf (items.map fun placed => placed.item.name? visibility) name).map
        (fun place => (items.map PlacedItem.order).getD place 0) =
      (items.filter (isNamed visibility name)).map PlacedItem.order := by
  have atPlace : ∀ entry ∈ items.zipIdx.filter (isNamed visibility name ∘ Prod.fst),
      (items.map PlacedItem.order).getD entry.2 0 = entry.1.order := by
    intro entry kept
    have listed := List.mem_zipIdx_iff_getElem?.mp (List.mem_of_mem_filter kept)
    rw [List.getD_eq_getElem?_getD, List.getElem?_map, listed, Option.map_some, Option.getD_some]
  have named : placesOf (items.map fun placed => placed.item.name? visibility) name =
      (items.zipIdx.filter (isNamed visibility name ∘ Prod.fst)).map Prod.snd := by
    unfold placesOf
    rw [List.zipIdx_map, List.filter_map, List.map_map]
    rfl
  calc (placesOf (items.map fun placed => placed.item.name? visibility) name).map
        (fun place => (items.map PlacedItem.order).getD place 0)
    _ = (items.zipIdx.filter (isNamed visibility name ∘ Prod.fst)).map
          fun entry => entry.1.order := by
        rw [named, List.map_map]
        exact List.map_congr_left atPlace
    _ = ((items.zipIdx.map Prod.fst).filter (isNamed visibility name)).map
          PlacedItem.order := by
        rw [List.filter_map, List.map_map]
        rfl
    _ = (items.filter (isNamed visibility name)).map PlacedItem.order := by
        rw [List.zipIdx_map_fst]

theorem exists_block_of_anchor? {item : Item} {anchor : String × Side}
    (hasAnchor : item.anchor? graph = some anchor) : ∃ node, item = .manualBlock node := by
  cases item with
  | manualBlock node => exact ⟨node, rfl⟩
  | _ => cases hasAnchor

theorem mem_anchorings {anchoring : Anchoring} :
    anchoring ∈ anchorings graph visibility items ↔
      ∃ placed, items[anchoring.place]? = some placed ∧
        placed.item = .manualBlock anchoring.node ∧
        placed.item.anchor? graph = some (anchoring.name, anchoring.side) ∧
        anchoring.anchors =
          placesOf (items.map fun placed => placed.item.name? visibility) anchoring.name := by
  unfold anchorings
  rw [List.mem_filterMap]
  constructor
  · rintro ⟨⟨placed, place⟩, listed, isAnchoring⟩
    rw [List.mem_zipIdx_iff_getElem?] at listed
    dsimp only at isAnchoring
    split at isAnchoring
    · rename_i node name side isBlock hasAnchor
      rw [← Option.some.inj isAnchoring]
      exact ⟨placed, listed, isBlock, hasAnchor, rfl⟩
    · cases isAnchoring
  · rintro ⟨placed, isPlaced, isBlock, hasAnchor, anchors⟩
    refine ⟨(placed, anchoring.place), List.mem_zipIdx_iff_getElem?.mpr isPlaced, ?_⟩
    rw [isBlock] at hasAnchor
    simp only [isBlock, hasAnchor]
    rw [← anchors]

theorem exists_anchoring {place : Nat} {placed : PlacedItem} {name : String} {side : Side}
    (isPlaced : items[place]? = some placed)
    (hasAnchor : placed.item.anchor? graph = some (name, side)) :
    ∃ anchoring ∈ anchorings graph visibility items,
      anchoring.place = place ∧ anchoring.side = side ∧
        anchoring.anchors =
          placesOf (items.map fun placed => placed.item.name? visibility) name := by
  obtain ⟨node, isBlock⟩ := exists_block_of_anchor? hasAnchor
  let anchoring : Anchoring :=
    { node, place, name, side
      anchors := placesOf (items.map fun placed => placed.item.name? visibility) name }
  exact ⟨anchoring, mem_anchorings.mpr ⟨placed, isPlaced, isBlock, hasAnchor, rfl⟩, rfl, rfl, rfl⟩

/-! ## What decides about a place -/

/-- The number by which an item is sorted among others. -/
def keyAmong (graph : Graph) (visibility : Visibility) (items : List PlacedItem)
    (placed : PlacedItem) : Nat :=
  match placed.item.anchor? graph with
  | none => placed.order
  | some (name, _) =>
      (((items.filter (isNamed visibility name)).map PlacedItem.order).min?).getD placed.order

variable (graph visibility) in
theorem keyAt_eq {place : Nat} {placed : PlacedItem} (isPlaced : items[place]? = some placed) :
    keyAt (items.map PlacedItem.order) (anchorings graph visibility items) place =
      keyAmong graph visibility items placed := by
  have orderAt : (items.map PlacedItem.order).getD place 0 = placed.order := by
    rw [List.getD_eq_getElem?_getD, List.getElem?_map, isPlaced, Option.map_some, Option.getD_some]
  unfold keyAt keyAmong
  dsimp only
  rw [orderAt]
  cases found : (anchorings graph visibility items).find? fun anchoring =>
      anchoring.place == place with
  | none =>
      have notAnchored : placed.item.anchor? graph = none := by
        rw [Option.eq_none_iff_forall_ne_some]
        rintro ⟨name, side⟩ hasAnchor
        obtain ⟨anchoring, listed, samePlace, _⟩ := exists_anchoring isPlaced hasAnchor
        exact List.find?_eq_none.mp found anchoring listed (beq_iff_eq.mpr samePlace)
      rw [notAnchored]
  | some anchoring =>
      obtain ⟨block, isHere, _, hasAnchor, anchors⟩ :=
        mem_anchorings.mp (List.mem_of_find?_eq_some found)
      have samePlace := List.find?_some found
      rw [beq_iff_eq] at samePlace
      rw [samePlace, isPlaced, Option.some.injEq] at isHere
      rw [← isHere] at hasAnchor
      rw [hasAnchor]
      dsimp only
      rw [anchors, map_placesOf]

variable (visibility) in
theorem keyAt_of_plain {place : Nat} {placed : PlacedItem} (isPlaced : items[place]? = some placed)
    (plain : placed.item.anchor? graph = none) :
    keyAt (items.map PlacedItem.order) (anchorings graph visibility items) place =
      placed.order := by
  rw [keyAt_eq graph visibility isPlaced]
  unfold keyAmong
  rw [plain]

/-- The first of two items must come before the second: it is a block that stands
before the second, or the second a block that stands after it. -/
def Leads (graph : Graph) (visibility : Visibility) (earlier later : PlacedItem) : Prop :=
  ∃ name,
    (earlier.item.anchor? graph = some (name, .before) ∧
      later.item.name? visibility = some name) ∨
    (later.item.anchor? graph = some (name, .after) ∧
      earlier.item.name? visibility = some name)

theorem mem_predecessors {earlier later : Nat} :
    earlier ∈ predecessors (anchorings graph visibility items) later ↔
      ∃ first second, items[earlier]? = some first ∧ items[later]? = some second ∧
        Leads graph visibility first second := by
  unfold predecessors
  rw [List.mem_flatMap]
  constructor
  · rintro ⟨anchoring, isAnchoring, isEarlier⟩
    obtain ⟨block, isBlock, _, hasAnchor, anchors⟩ := mem_anchorings.mp isAnchoring
    cases side : anchoring.side with
    | before =>
        simp only [side] at isEarlier
        split at isEarlier
        · rename_i isAnchor
          rw [List.contains_iff_mem, anchors, mem_placesOf] at isAnchor
          obtain ⟨anchor, isPlaced, isName⟩ := isAnchor
          rw [List.mem_singleton.mp isEarlier]
          rw [side] at hasAnchor
          exact ⟨block, anchor, isBlock, isPlaced, anchoring.name, .inl ⟨hasAnchor, isName⟩⟩
        · cases isEarlier
    | after =>
        simp only [side] at isEarlier
        split at isEarlier
        · rename_i samePlace
          rw [anchors, mem_placesOf] at isEarlier
          obtain ⟨anchor, isPlaced, isName⟩ := isEarlier
          rw [← beq_iff_eq.mp samePlace]
          rw [side] at hasAnchor
          exact ⟨anchor, block, isPlaced, isBlock, anchoring.name, .inr ⟨hasAnchor, isName⟩⟩
        · cases isEarlier
  · rintro ⟨first, second, isFirst, isSecond, name, ⟨hasAnchor, isName⟩ | ⟨hasAnchor, isName⟩⟩
    · obtain ⟨anchoring, listed, samePlace, side, anchors⟩ := exists_anchoring isFirst hasAnchor
      refine ⟨anchoring, listed, ?_⟩
      have isAnchor := mem_placesOf.mpr ⟨second, isSecond, isName⟩
      rw [← anchors, ← List.contains_iff_mem] at isAnchor
      simp only [side, isAnchor, samePlace, ↓reduceIte, List.mem_singleton]
    · obtain ⟨anchoring, listed, samePlace, side, anchors⟩ := exists_anchoring isSecond hasAnchor
      refine ⟨anchoring, listed, ?_⟩
      have isAnchor := mem_placesOf.mpr ⟨first, isFirst, isName⟩
      rw [← anchors] at isAnchor
      simp only [side, samePlace, beq_self_eq_true, ↓reduceIte, isAnchor]

/-- The fault of a block whose anchor is none of the items. -/
def faultAmong? (graph : Graph) (visibility : Visibility) (items : List PlacedItem)
    (placed : PlacedItem) : Option Fault :=
  match placed.item, placed.item.anchor? graph with
  | .manualBlock id, some (name, _) =>
      if items.any (isNamed visibility name) then none
      else (graph.node? id).map fun node =>
        (Fault.ofCause (.unknownAnchor name)).located node.displayName node.location
  | _, _ => none

theorem isEmpty_placesOf (name : String) :
    (placesOf (items.map fun placed => placed.item.name? visibility) name).isEmpty =
      !items.any (isNamed visibility name) := by
  rw [Bool.eq_iff_iff, List.isEmpty_iff, Bool.not_eq_true', List.any_eq_false,
    List.eq_nil_iff_forall_not_mem]
  constructor
  · intro nowhere placed listed isName
    obtain ⟨place, isPlaced⟩ := List.mem_iff_getElem?.mp listed
    exact nowhere place (mem_placesOf.mpr ⟨placed, isPlaced, beq_iff_eq.mp isName⟩)
  · intro none place isAnchor
    obtain ⟨placed, isPlaced, isName⟩ := mem_placesOf.mp isAnchor
    exact none placed (List.mem_of_getElem? isPlaced) (beq_iff_eq.mpr isName)

theorem anchorFaults_eq :
    (anchorings graph visibility items).filterMap (anchorFault? graph) =
      items.filterMap (faultAmong? graph visibility items) := by
  have atPlaces : items.filterMap (faultAmong? graph visibility items) =
      items.zipIdx.filterMap (faultAmong? graph visibility items ∘ Prod.fst) := by
    rw [← List.filterMap_map, List.zipIdx_map_fst]
  unfold anchorings
  rw [List.filterMap_filterMap, atPlaces]
  refine List.filterMap_congr ?_
  rintro ⟨placed, place⟩ _
  rw [Function.comp_apply]
  cases isItem : placed.item with
  | manualBlock node =>
      cases hasAnchor : (manualBlock node).anchor? graph with
      | none => simp [faultAmong?, isItem, hasAnchor]
      | some anchor =>
          simp only [faultAmong?, isItem, hasAnchor, Option.bind_some, anchorFault?,
            isEmpty_placesOf]
          cases items.any (isNamed visibility anchor.1) <;> rfl
  | _ => simp [faultAmong?, isItem]

/-! ## Exchanging neighbours -/

section Perm

variable {others : List PlacedItem}

theorem min?_eq_of_perm {left right : List Nat} (perm : left.Perm right) :
    left.min? = right.min? := by
  cases least : right.min? with
  | none =>
      rw [List.min?_eq_none_iff] at least ⊢
      rw [least] at perm
      exact perm.eq_nil
  | some number =>
      rw [List.min?_eq_some_iff] at least ⊢
      exact ⟨perm.mem_iff.mpr least.1, fun other listed => least.2 other (perm.mem_iff.mp listed)⟩

theorem keyAmong_eq_of_perm (perm : others.Perm items) (placed : PlacedItem) :
    keyAmong graph visibility others placed = keyAmong graph visibility items placed := by
  unfold keyAmong
  cases placed.item.anchor? graph with
  | none => rfl
  | some anchor => simp only [min?_eq_of_perm ((perm.filter _).map PlacedItem.order)]

theorem faultAmong?_eq_of_perm (perm : others.Perm items) :
    faultAmong? graph visibility others = faultAmong? graph visibility items := by
  funext placed
  unfold faultAmong?
  simp only [perm.any_eq]

end Perm

/-- The places of two neighbours, exchanged. -/
def exchange (first place : Nat) : Nat :=
  if place = first then first + 1 else if place = first + 1 then first else place

theorem exchange_exchange (first place : Nat) : exchange first (exchange first place) = place := by
  unfold exchange
  split_ifs <;> omega

theorem exchange_lt {first place bound : Nat} (inside : first + 1 < bound) (isLt : place < bound) :
    exchange first place < bound := by
  unfold exchange
  split_ifs <;> omega

/-- Only the two neighbours change sides. -/
theorem exchange_le_iff {first left right : Nat}
    (apart : ¬ (left = first ∧ right = first + 1) ∧ ¬ (left = first + 1 ∧ right = first)) :
    exchange first left ≤ exchange first right ↔ left ≤ right := by
  unfold exchange
  split_ifs <;> omega

section Exchange

variable {front back : List PlacedItem} {first second : PlacedItem}

/-- What stands at a place stands at the exchanged place of the exchanged list. -/
theorem getElem?_exchange (place : Nat) :
    (front ++ second :: first :: back)[exchange front.length place]? =
      (front ++ first :: second :: back)[place]? := by
  unfold exchange
  split_ifs with isFirst isSecond
  · subst isFirst
    simp
  · subst isSecond
    simp
  · rcases Nat.lt_or_ge place front.length with before | notBefore
    · rw [List.getElem?_append_left before, List.getElem?_append_left before]
    · obtain ⟨rest, rfl⟩ : ∃ rest, place = front.length + (rest + 2) :=
        ⟨place - front.length - 2, by omega⟩
      rw [List.getElem?_append_right notBefore, List.getElem?_append_right notBefore,
        Nat.add_sub_cancel_left]
      rfl

variable (front back first second) in
theorem exchange_perm : (front ++ second :: first :: back).Perm
    (front ++ first :: second :: back) :=
  (List.Perm.swap first second back).append_left front

variable (graph visibility) in
theorem keyAt_exchange {place : Nat} (isLt : place < (front ++ first :: second :: back).length) :
    keyAt ((front ++ second :: first :: back).map PlacedItem.order)
        (anchorings graph visibility (front ++ second :: first :: back))
        (exchange front.length place) =
      keyAt ((front ++ first :: second :: back).map PlacedItem.order)
        (anchorings graph visibility (front ++ first :: second :: back)) place := by
  have found := List.getElem?_eq_getElem isLt
  rw [keyAt_eq graph visibility found,
    keyAt_eq graph visibility ((getElem?_exchange place).trans found),
    keyAmong_eq_of_perm (exchange_perm front back first second)]

variable (visibility front back) in
/-- Exchanged places are renamed places, if the neighbours differ in their numbers. -/
theorem renames_exchange (firstPlain : first.item.anchor? graph = none)
    (secondPlain : second.item.anchor? graph = none) (apart : first.order ≠ second.order) :
    TopologicalOrder.Renames (exchange front.length)
      (keyAt ((front ++ first :: second :: back).map PlacedItem.order)
        (anchorings graph visibility (front ++ first :: second :: back)))
      (predecessors (anchorings graph visibility (front ++ first :: second :: back)))
      (List.range (front ++ first :: second :: back).length)
      (keyAt ((front ++ second :: first :: back).map PlacedItem.order)
        (anchorings graph visibility (front ++ second :: first :: back)))
      (predecessors (anchorings graph visibility (front ++ second :: first :: back)))
      (List.range (front ++ second :: first :: back).length) := by
  have sameLength := (exchange_perm front back first second).length_eq
  have inside : front.length + 1 < (front ++ first :: second :: back).length := by
    rw [List.length_append, List.length_cons, List.length_cons]
    omega
  refine ⟨?_, ?_, ?_⟩
  · intro other
    simp only [List.mem_range, sameLength]
    constructor
    · intro isLt
      exact ⟨exchange front.length other, exchange_lt inside isLt, exchange_exchange _ _⟩
    · rintro ⟨place, isLt, rfl⟩
      exact exchange_lt inside isLt
  · intro later _ earlier _
    rw [mem_predecessors, mem_predecessors]
    simp only [getElem?_exchange]
  · intro left leftListed right rightListed
    rw [List.mem_range] at leftListed rightListed
    unfold TopologicalOrder.Precedes
    rw [keyAt_exchange graph visibility leftListed, keyAt_exchange graph visibility rightListed]
    refine or_congr_right (and_congr_right fun tie => exchange_le_iff ?_)
    -- The neighbours are sorted by their own numbers, so there is no tie between them.
    have isFirst : (front ++ first :: second :: back)[front.length]? = some first := by simp
    have isSecond : (front ++ first :: second :: back)[front.length + 1]? = some second := by simp
    have firstKey := keyAt_of_plain visibility isFirst firstPlain
    have secondKey := keyAt_of_plain visibility isSecond secondPlain
    constructor
    · rintro ⟨rfl, rfl⟩
      exact apart (firstKey.symm.trans (tie.trans secondKey))
    · rintro ⟨rfl, rfl⟩
      exact apart (secondKey.symm.trans (tie.trans firstKey)).symm

variable (visibility front back) in
/-- Neighbours that are no anchored blocks may be collected in either order. -/
theorem inOrder_exchange (firstPlain : first.item.anchor? graph = none)
    (secondPlain : second.item.anchor? graph = none) (apart : first.order ≠ second.order) :
    inOrder graph visibility (front ++ second :: first :: back) =
      inOrder graph visibility (front ++ first :: second :: back) := by
  have renames := renames_exchange visibility front back firstPlain secondPlain apart
  have noFault {placed : PlacedItem} (plain : placed.item.anchor? graph = none)
      (items : List PlacedItem) : faultAmong? graph visibility items placed = none := by
    unfold faultAmong?
    rw [plain]
    cases placed.item <;> rfl
  have sameFaults : (anchorings graph visibility (front ++ second :: first :: back)).filterMap
        (anchorFault? graph) =
      (anchorings graph visibility (front ++ first :: second :: back)).filterMap
        (anchorFault? graph) := by
    rw [anchorFaults_eq, anchorFaults_eq,
      faultAmong?_eq_of_perm (exchange_perm front back first second)]
    simp only [List.filterMap_append, List.filterMap_cons, noFault firstPlain,
      noFault secondPlain]
  have sameItems (places : List Nat) :
      (places.map (exchange front.length)).filterMap
          (fun place => (front ++ second :: first :: back)[place]?) =
        places.filterMap fun place => (front ++ first :: second :: back)[place]? := by
    rw [List.filterMap_map]
    exact List.filterMap_congr fun place _ => getElem?_exchange place
  unfold inOrder
  dsimp only
  rw [sameFaults]
  split
  · rfl
  · cases outcome : TopologicalOrder.order
        (keyAt ((front ++ first :: second :: back).map PlacedItem.order)
          (anchorings graph visibility (front ++ first :: second :: back)))
        (predecessors (anchorings graph visibility (front ++ first :: second :: back)))
        (List.range (front ++ first :: second :: back).length) with
    | ok places =>
        rw [renames.order_eq_ok outcome]
        dsimp only
        rw [sameItems]
    | error circle =>
        rw [renames.order_eq_error outcome]
        dsimp only
        rw [sameItems]

end Exchange

/-- Items that are no anchored blocks and differ in their numbers may be collected
in any order. -/
theorem inOrder_eq_of_perm {middle others : List PlacedItem} (perm : others.Perm middle)
    (plain : ∀ placed ∈ middle, placed.item.anchor? graph = none)
    (apart : (middle.map PlacedItem.order).Nodup) (front back : List PlacedItem) :
    inOrder graph visibility (front ++ others ++ back) =
      inOrder graph visibility (front ++ middle ++ back) := by
  induction perm generalizing front with
  | nil => rfl
  | cons placed _ inductionHypothesis =>
      have moved := inductionHypothesis
        (fun other listed => plain other (List.mem_cons_of_mem placed listed))
        (List.nodup_cons.mp apart).2 (front ++ [placed])
      simpa using moved
  | swap first second rest =>
      have firstPlain := plain first List.mem_cons_self
      have secondPlain := plain second (List.mem_cons_of_mem first List.mem_cons_self)
      have isApart : first.order ≠ second.order := by
        intro same
        apply (List.nodup_cons.mp apart).1
        rw [same]
        exact List.mem_cons_self
      have exchanged := inOrder_exchange visibility front (rest ++ back) firstPlain secondPlain
        isApart
      simpa using exchanged
  | trans _ lastPerm firstHypothesis secondHypothesis =>
      have middlePlain := fun placed listed => plain placed (lastPerm.mem_iff.mp listed)
      have middleApart := (lastPerm.map PlacedItem.order).nodup_iff.mpr apart
      exact (firstHypothesis middlePlain middleApart front).trans
        (secondHypothesis plain apart front)

end Registrar.Item
