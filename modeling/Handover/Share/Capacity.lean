import Handover.Share.Basic

/-!
Contract: shares in proportion to fixed capacities.

Owns: the largest-remainder rule and the weigher that applies it to the
capacities of the nodes, which a resource group may set anew.

Each node gets its exact proportion rounded down; the items that this leaves over
go one each to the nodes with the largest remainders, of equal remainders to the
lower address.
-/

set_option autoImplicit false

namespace Handover

namespace Shares

def sum (shares : Shares) : Nat := sumOf (shares.rows.map Prod.snd)

end Shares

section Apportion

variable (weights : Shares) (total : Nat)

def floorShare (weight : Nat) : Nat := total * weight / weights.sum

/-- What rounding down takes from the proportion of `weight`, as a numerator
over the sum of the weights. -/
def remainder (weight : Nat) : Nat := total * weight % weights.sum

/-- Items that are left over when all proportions are rounded down. -/
def leftoverCount : Nat :=
  total - sumOf (weights.rows.map fun row => floorShare weights total row.2)

/-- The nodes by decreasing remainder, those of equal remainder by address. -/
def byRemainder : List (Address × Nat) :=
  weights.rows.mergeSort fun left right =>
    decide (remainder weights total right.2 ≤ remainder weights total left.2)

/-- The nodes that get one of the left over items. -/
def favoured : List Address :=
  ((byRemainder weights total).take (leftoverCount weights total)).map Prod.fst

/-- Shares of `total` in proportion to the weights, none if no weight is positive. -/
def apportion : Option Shares :=
  if weights.sum = 0 then none
  else some (weights.update
    (fun row => (row.1, floorShare weights total row.2 +
      if (favoured weights total).contains row.1 then 1 else 0))
    (fun _ => rfl))

end Apportion

/-- Capacities by node, and by group where a group has its own. -/
structure Capacities where
  standard : Shares
  byGroup : Table (String × Shares)

namespace Capacities

def forDemand (capacities : Capacities) : Demand → Shares
  | .ofKind _ _ => capacities.standard
  | .ofGroup none _ => capacities.standard
  | .ofGroup (some group) _ =>
      ((capacities.byGroup.find? group).map Prod.snd).getD capacities.standard

def weigher (capacities : Capacities) : Weigher := fun demand =>
  apportion (capacities.forDemand demand) demand.total

end Capacities

end Handover
