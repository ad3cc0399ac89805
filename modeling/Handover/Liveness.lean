import Handover.Address
import Handover.Time.Instant

/-!
Contract: which nodes are alive, as far as their heartbeats tell.

Owns: the liveness record of a node, the membership table, and the writes on it:
heartbeats, deaths, unconditional resets and version-checked swaps.

A record's version is the token of the version-checked swap. Heartbeats, deaths
and won swaps raise it; a reset writes whatever version the new record has.
-/

set_option autoImplicit false

namespace Handover

open Time (Instant)

structure Liveness where
  alive : Bool
  /-- Rises with each heartbeat and each death. It is counted without a bound, which is faithful
  as long as a 64-bit word holds it (`Fence.fits`). -/
  version : Nat
  lastHeartbeat : Option Instant
deriving DecidableEq, Repr, Inhabited

namespace Liveness

def heardAt (at_ : Instant) (version : Nat) : Liveness := ⟨true, version, some at_⟩

/-- The record of a node that has never been heard. Written over the record of a
node that still holds work, it says that the node needs recovery. -/
def neverAlive : Liveness := ⟨false, 0, none⟩

/-- Whether this is the record that a recovery writes when it leaves work behind. -/
def needsRecovery (record : Liveness) : Bool :=
  !record.alive && record.version == 0 && record.lastHeartbeat.isNone

/-- The record flipped to dead under the next version. -/
def markedDead (record : Liveness) : Liveness :=
  { record with alive := false, version := record.version + 1 }

theorem needsRecovery_iff (record : Liveness) :
    record.needsRecovery = true ↔ record = neverAlive := by
  obtain ⟨alive, version, lastHeartbeat⟩ := record
  cases alive <;> cases lastHeartbeat <;> simp [needsRecovery, neverAlive]

theorem needsRecovery_markedDead (record : Liveness) :
    record.markedDead.needsRecovery = false := by
  simp [needsRecovery, markedDead]

end Liveness

/-- The liveness records of the cluster by node. -/
abbrev Membership := Table (Address × Liveness)

namespace Membership

def record? (members : Membership) (node : Address) : Option Liveness :=
  (members.find? node).map Prod.snd

/-- The record of `node`; one that is not in the table was never alive. -/
def liveness (members : Membership) (node : Address) : Liveness :=
  (members.record? node).getD .neverAlive

def isAlive (members : Membership) (node : Address) : Bool := (members.liveness node).alive

/-- The version of `node`, 0 for a node that is not in the table. -/
def version (members : Membership) (node : Address) : Nat := (members.liveness node).version

/-- The alive nodes in address order. -/
def aliveNodes (members : Membership) : List Address :=
  (members.rows.filter fun member => member.2.alive).map Prod.fst

def set (members : Membership) (node : Address) (record : Liveness) : Membership :=
  members.insert (node, record)

def heartbeat (members : Membership) (node : Address) (moment : Instant) : Membership :=
  let version := match members.record? node with
    | some record => record.version + 1
    | none => 1
  members.set node (.heardAt moment version)

/-- `node` is dead, whatever its heartbeats say. -/
def markDead (members : Membership) (node : Address) : Membership :=
  members.set node (match members.record? node with
    | some record => record.markedDead
    | none => .neverAlive)

/-- Writes `record` if the version of `node` is still the expected one, and says
whether it was. -/
def swap (members : Membership) (node : Address) (expected : Nat) (record : Liveness) :
    Membership × Bool :=
  if members.version node = expected then (members.set node record, true) else (members, false)

/-- A table in which the given nodes were heard for the first time at `moment`. -/
def allAlive (nodes : List Address) (moment : Instant) : Membership :=
  .ofList (nodes.map fun node => (node, .heardAt moment 1))

end Membership

end Handover
