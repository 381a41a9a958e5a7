/-!
Contract: putting items in an order in which each follows what it depends on.

Owns: the order, in which of all items that could come next the least one does,
and the items left over when dependencies form circles.

Does not own: what the items are.

Dependencies on items that are not listed, and of an item on itself, say
nothing.
-/

set_option autoImplicit false

namespace Registrar.TopologicalOrder

universe u

structure Pending (α : Type u) where
  item : α
  key : Nat
  /-- The items that must come before it and are not yet in order. -/
  waitsFor : List α

variable {α : Type u} [LE α] [DecidableLE α] [DecidableEq α]

/-- Whether one item comes before another by key and then by itself, or is it. -/
def comesFirst (left right : Pending α) : Bool :=
  decide (left.key < right.key)
    || (left.key == right.key && decide (left.item ≤ right.item))

/-- The distinct items of a list, each waiting for the listed ones that it
depends on. -/
def pending (key : α → Nat) (dependencies : α → List α) (items : List α) :
    List (Pending α) :=
  let distinct := items.eraseDups
  distinct.map fun item =>
    { item
      key := key item
      waitsFor := (dependencies item).filter fun dependency =>
        dependency != item && distinct.contains dependency }

def least? : List (Pending α) → Option (Pending α)
  | [] => none
  | first :: rest =>
      match least? rest with
      | none => some first
      | some other => if comesFirst first other then some first else some other

/-- Whether an item waits for none of the others. -/
def isReady (waiting : Pending α) : Bool := waiting.waitsFor.isEmpty

/-- The items that remain once one is in order, for which none waits any more. -/
def release (item : α) (remaining : List (Pending α)) : List (Pending α) :=
  (remaining.filter fun waiting => waiting.item != item).map fun waiting =>
    { waiting with waitsFor := waiting.waitsFor.filter fun other => other != item }

/-- Takes the least ready item out of those that remain, so many times at most
and as long as there is one. Gives the items taken in order, and the rest. -/
def takeReady : Nat → List (Pending α) → List α × List (Pending α)
  | 0, remaining => ([], remaining)
  | steps + 1, remaining =>
      match least? (remaining.filter isReady) with
      | none => ([], remaining)
      | some next =>
          let (taken, stalled) := takeReady steps (release next.item remaining)
          (next.item :: taken, stalled)

/-- The items that another one of those that remain waits for. -/
def awaited (remaining : List (Pending α)) : List (Pending α) :=
  let wanted := remaining.flatMap Pending.waitsFor
  remaining.filter fun waiting => wanted.contains waiting.item

/-- Drops the items that no other one waits for, so many times at most and as
long as there are any. -/
def dropUnawaited : Nat → List (Pending α) → List (Pending α)
  | 0, remaining => remaining
  | steps + 1, remaining =>
      let kept := awaited remaining
      if kept.length = remaining.length then remaining else dropUnawaited steps kept

/-- The items in order, or those that circles keep from having one. -/
def order (key : α → Nat) (dependencies : α → List α) (items : List α) :
    Except (List α) (List α) :=
  let listed := pending key dependencies items
  let (taken, stalled) := takeReady listed.length listed
  if stalled.isEmpty then .ok taken
  else .error (((dropUnawaited stalled.length stalled).mergeSort comesFirst).map Pending.item)

end Registrar.TopologicalOrder
