import Handover.Address

/-!
Contract: the settings of a node.

Owns: the coordinator's and the monitor's settings with their defaults, the
adjustments that keep them usable, and the delays that follow from them. All
times are in milliseconds.
-/

set_option autoImplicit false

namespace Handover

/-- The largest number a setting can hold. Products of settings stop there. -/
def settingLimit : Nat := UInt64.size - 1

structure Settings where
  /-- The address of this node. Its own recovery trigger needs no network. -/
  localAddress : Address
  /-- How many rows a recovery reads at a time. -/
  pageSize : Nat
  graphCheckMillis : Nat
  /-- How many retries may follow a recovery that leaves work behind. -/
  retryLimit : Nat
  retryBaseMillis : Nat
  retryMaxMillis : Nat
deriving DecidableEq, Repr

namespace Settings

instance : Inhabited Settings :=
  ⟨{ localAddress := ⟨"127.0.0.1:8090"⟩
     pageSize := 1000
     graphCheckMillis := 300000
     retryLimit := 3
     retryBaseMillis := 1000
     retryMaxMillis := 30000 }⟩

/-- The default settings of the node at `address`. -/
def forNode (address : Address) : Settings := { (default : Settings) with localAddress := address }

/-- A page holds one row at least. -/
def withPageSize (settings : Settings) (size : Nat) : Settings :=
  { settings with pageSize := max size 1 }

def withGraphCheck (settings : Settings) (millis : Nat) : Settings :=
  { settings with graphCheckMillis := millis }

/-- The longest delay is never below the shortest. -/
def withRetry (settings : Settings) (limit base longest : Nat) : Settings :=
  { settings with
    retryLimit := limit
    retryBaseMillis := base
    retryMaxMillis := max longest base }

def graphCheckInterval (settings : Settings) : Nat := max settings.graphCheckMillis 1

/-- The delay before retry number `attempt`, counted from 1: it doubles from one
retry to the next, twenty times at most, and is cut off at the longest delay. -/
def backoff (settings : Settings) (attempt : Nat) : Nat :=
  min (min (settings.retryBaseMillis * Nat.pow 2 (min (attempt - 1) 20)) settingLimit)
    settings.retryMaxMillis

/-- The most by which a delay may be lengthened at random. -/
def jitterLimit (delay : Nat) : Nat := delay / 10

/-- The delay of retry `attempt` when `draw` is drawn at random. -/
def retryDelay (settings : Settings) (attempt draw : Nat) : Nat :=
  settings.backoff attempt + draw % (jitterLimit (settings.backoff attempt) + 1)

end Settings

structure MonitorSettings where
  checkMillis : Nat
  timeoutMillis : Nat
deriving DecidableEq, Repr

namespace MonitorSettings

instance : Inhabited MonitorSettings := ⟨⟨2000, 10000⟩⟩

def checkInterval (settings : MonitorSettings) : Nat := max settings.checkMillis 1

/-- The longest timeout a check can use. -/
def longestTimeout : Nat := UInt64.size / 2 - 1

/-- The timeout that a check goes by: a setting beyond the longest timeout counts
as ten seconds. -/
def effectiveTimeout (timeoutMillis : Nat) : Nat :=
  if timeoutMillis ≤ longestTimeout then timeoutMillis else 10000

end MonitorSettings

end Handover
