import Handover.Address
import Handover.Job

/-!
Contract: shares, that is, how many items each node is to take over.

Owns: tables of shares, the even split, and the question that is put to whoever
has weights for the nodes.
-/

set_option autoImplicit false

namespace Handover

/-- Item counts by node. -/
abbrev Shares := Table (Address × Nat)

def sumOf (counts : List Nat) : Nat := counts.foldr (· + ·) 0

/-- The share of `node`, 0 for a node that is not listed. -/
def Shares.of (shares : Shares) (node : Address) : Nat :=
  ((shares.find? node).map Prod.snd).getD 0

/-- What shares are asked for: so many jobs of one schedule kind, or so many
queued submissions of one resource group. -/
inductive Demand where
  | ofKind (kind : ScheduleKind) (total : Nat)
  | ofGroup (group : Option String) (total : Nat)
deriving DecidableEq, Repr

def Demand.total : Demand → Nat
  | .ofKind _ total => total
  | .ofGroup _ total => total

/-- Who answers demands. No answer means that there is nothing to weigh by. -/
abbrev Weigher := Demand → Option Shares

/-- Knows nothing, so every split is even. -/
def Weigher.none : Weigher := fun _ => Option.none

/-- Answers every demand alike. -/
def Weigher.answering (shares : Option Shares) : Weigher := fun _ => shares

/-- The share of the node at `position` when `total` items go evenly over
`count` nodes: the first `total % count` nodes take one more than the others. -/
def evenShare (count total position : Nat) : Nat :=
  if position < total % count then total / count + 1 else total / count

/-- Even shares of `total` over the nodes, in the order given. -/
def evenShares (nodes : List Address) (total : Nat) : List (Address × Nat) :=
  nodes.zipIdx.map fun (node, position) => (node, evenShare nodes.length total position)

end Handover
