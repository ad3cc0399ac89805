import Handover.Script

/-!
Contract: how far the takeover of a dead node's work has come, and what is told
about it at the end.
-/

set_option autoImplicit false

namespace Handover.Takeover

structure Tally where
  /-- The node read as alive and nothing was touched. -/
  skippedAlive : Bool := false
  reassigned : Nat := 0
  /-- Unreadable rows that were dealt with. -/
  failed : Nat := 0
  /-- Work was still with the node after the stage. -/
  leftover : Bool := false
deriving DecidableEq, Repr, Inhabited

structure Report where
  node : Address
  /-- The node read as alive in both stages. -/
  skippedAlive : Bool
  jobsReassigned : Nat
  cacheReassigned : Nat
  /-- Unreadable cache rows that were dealt with. -/
  cacheFailed : Nat
  /-- Work was still with the node after one of the stages. -/
  leftover : Bool
  notified : List Address
  notifyFailures : List Address
deriving DecidableEq, Repr

/-- Where a takeover stands between two of its rounds. -/
inductive Progress where
  | opening
  /-- The next page of jobs is the one after this row id. -/
  | jobPage (after : RowId) (jobs : Tally)
  | opened (jobs : Tally)
  /-- The next page of cache rows is the one after this row id. -/
  | cachePage (jobs : Tally) (after : RowId) (cache : Tally)
  | closing (jobs cache : Tally)
  | finished (report : Report)
deriving DecidableEq, Repr

end Handover.Takeover
