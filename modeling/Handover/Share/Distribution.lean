import Handover.Share.Basic

/-!
Contract: splitting a list of items over the nodes that take them over.

Owns: consecutive slices by given counts, and the split in two passes. The
weighted pass gives each destination its share from the front of the list while
items last; the even pass splits what is left. Both passes go through the
destinations in address order, and each item ends at one place.
-/

set_option autoImplicit false

namespace Handover

/-- Consecutive slices of the given sizes from the front, and what is left. -/
def slices {ι : Type} : List Nat → List ι → List (List ι) × List ι
  | [], items => ([], items)
  | size :: sizes, items =>
      let (later, left) := slices sizes (items.drop size)
      (items.take size :: later, left)

structure Distribution (ι : Type) where
  /-- The items of every node that got any, in address order. -/
  assignments : List (Address × List ι)
  /-- Items that found no destination. -/
  unassigned : List ι
deriving DecidableEq, Repr

namespace Distribution

variable {ι : Type}

def assignedCount (plan : Distribution ι) : Nat :=
  sumOf (plan.assignments.map fun (_, items) => items.length)

end Distribution

/-- The weighted and the even slice of every node, in the order of `nodes`. -/
def twoPasses {ι : Type} (nodes : List Address) (share : Address → Nat) (items : List ι) :
    List (Address × List ι) :=
  let (weighted, left) := slices (nodes.map share) items
  let (even, _) := slices ((evenShares nodes left.length).map Prod.snd) left
  nodes.zip (List.zipWith (· ++ ·) weighted even)

/-- Splits `items` over the distinct destinations. Shares of nodes that are no
destination play no part. -/
def distribute {ι : Type} (items : List ι) (shares : Option Shares)
    (destinations : List Address) : Distribution ι :=
  match Address.distinct destinations with
  | [] => ⟨[], items⟩
  | nodes =>
      let share := fun node => (shares.map fun table => table.of node).getD 0
      ⟨(twoPasses nodes share items).filter fun (_, taken) => !taken.isEmpty, []⟩

end Handover
