import Handover.Intake
import Handover.Settings

/-!
Contract: finding the nodes whose heartbeats stopped.

Owns: when a node is due, and a pass over the liveness table. A due node is
flipped to dead by a version-checked swap and reported only if the swap was won,
so that one missed heartbeat is reported once.
-/

set_option autoImplicit false

namespace Handover.Detection

open Time (Instant)

/-- Whether the last heartbeat of an alive node is older than the timeout. -/
def isExpired (timeoutMillis : Nat) (now : Instant) (record : Liveness) : Bool :=
  match record.lastHeartbeat with
  | some heard => record.alive &&
      decide (heard.age now >
        MonitorSettings.effectiveTimeout timeoutMillis * Instant.nanosPerMilli)
  | none => false

/-- Whether a pass reports the node: its heartbeats stopped, or a takeover left
work behind. -/
def isDue (timeoutMillis : Nat) (now : Instant) (record : Liveness) : Bool :=
  isExpired timeoutMillis now record || record.needsRecovery

/-- Goes through listed records and reports the due ones. -/
def sweep (timeoutMillis : Nat) (now : Instant) :
    List (Address × Liveness) → Attempt (List Address)
  | [] => return []
  | (node, record) :: rest =>
      if isDue timeoutMillis now record then do
        let applied ← Attempt.ask (.swap node record.version record.markedDead)
        if applied then do
          let accepted ← Attempt.of (Intake.submit node.text)
          let later ← sweep timeoutMillis now rest
          return if accepted then node :: later else later
        else sweep timeoutMillis now rest
      else sweep timeoutMillis now rest

/-- A pass over the liveness table as of `now`: the nodes it reported. -/
def pass (timeoutMillis : Nat) (now : Instant) : Attempt (List Address) := do
  let listed ← Attempt.ask .liveness
  sweep timeoutMillis now listed

end Handover.Detection
