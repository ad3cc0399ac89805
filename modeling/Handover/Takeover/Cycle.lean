import Handover.Settings
import Handover.Takeover.Stages

/-!
Contract: the whole takeover of a node's work.

Owns: the order of the rounds, what a refused call does to a stage, the retry
budget at the end, and the broadcast that tells every alive node to scan its work.

A takeover never fails. A stage that breaks off counts as one that did nothing,
and the takeover goes on with the next.
-/

set_option autoImplicit false

namespace Handover.Takeover

/-- Triggers the nodes one after the other: those that were reached, and the others. -/
def triggerAll (localAddress : Address) : List Address → Script (List Address × List Address)
  | [] => return ([], [])
  | target :: rest => do
      let result ←
        if target = localAddress then Script.ask .trigger else Script.ask (.notify target)
      let (reached, missed) ← triggerAll localAddress rest
      return match result with
        | .ok _ => (target :: reached, missed)
        | .error _ => (reached, target :: missed)

/-- Tells every alive node to scan its work. -/
def broadcast (localAddress : Address) : Script (List Address × List Address) := do
  match ← Script.ask .aliveNodes with
  | .ok alive => triggerAll localAddress alive
  | .error _ => return ([], [])

/-- Settles the retry budget: a node that was alive or gave up all its work starts
afresh, and one with work left is queued again later. -/
def settle (node : Address) (jobs cache : Tally) : Script Unit := do
  let leftover := jobs.leftover || cache.leftover
  if jobs.skippedAlive || cache.skippedAlive || !leftover then
    Script.act (.forgetRetries node)
  if leftover then
    Script.act (.scheduleRetry node)

/-- Settles the retry budget of the node, broadcasts, and reports. -/
def close (settings : Settings) (node : Address) (jobs cache : Tally) : Script Progress := do
  settle node jobs cache
  let (notified, notifyFailures) ← broadcast settings.localAddress
  return .finished
    { node := node
      skippedAlive := jobs.skippedAlive && cache.skippedAlive
      jobsReassigned := jobs.reassigned
      cacheReassigned := cache.reassigned
      cacheFailed := cache.failed
      leftover := jobs.leftover || cache.leftover
      notified := notified
      notifyFailures := notifyFailures }

/-- A round, with what counts as its outcome when it breaks off. -/
def orElse (round : Attempt Progress) (broken : Progress) : Script Progress := do
  match ← round.run with
  | .ok progress => return progress
  | .error _ => return broken

def round (settings : Settings) (node : Address) : Progress → Script Progress
  | .opening => orElse (openJobs node) (.opened {})
  | .jobPage after tally => orElse (jobRound settings.pageSize node after tally) (.opened {})
  | .opened jobs => orElse (openCache node jobs) (.closing jobs {})
  | .cachePage jobs after tally =>
      orElse (cacheRound settings.pageSize node jobs after tally) (.closing jobs {})
  | .closing jobs cache => close settings node jobs cache
  | .finished report => return .finished report

end Handover.Takeover
