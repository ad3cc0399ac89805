import Handover.NodeSettings
import Handover.Rehearsal.Run

/-!
Contract: a whole node run in virtual time.

The node follows an election, checks the heartbeats and is heard itself. Its peers
count as alive from the start, but none of them can be reached.
-/

set_option autoImplicit false

namespace Handover.Rehearsal

open Coordinator (TaskId)
open Time (Instant)

def unreachable : Rule where
  name := "notify"
  subject := none
  skip := 0
  times := none
  delayMillis := 0
  deeds := []
  refused := some "unreachable"

def ofNode (settings : NodeSettings) (jobs : Jobs) (cache : Cache) (wall : Instant) : Rehearsal :=
  let world := { World.initial with
    members := .allAlive (settings.localAddress :: settings.peers) wall, jobs := jobs, cache := cache }
  { start settings.coordinator .none world wall with rules := [unreachable] }

/-- Starts all that runs in a node, and tells the tasks that a stop concerns. -/
def powerUp (run : Rehearsal) (settings : NodeSettings) (leader : Bool) : List TaskId × Rehearsal :=
  let (watcher, run) := run.launch (.follow leader)
  let (monitor, run) := run.launch (.monitor settings.monitor)
  let (beat, run) := run.launch (.beat settings.monitor.checkInterval)
  ([watcher, monitor, beat], run)

/-- Runs for so many milliseconds, and on until no report is pending if it leads. -/
def runFor (run : Rehearsal) (millis : Nat) (leader : Bool) : Rehearsal :=
  let after := run.advance millis
  if leader then runUntil (fun run => run.state.pending == 0) none momentBound after else after

/-- Stops what runs, and lets it come to its end. -/
def powerDown (run : Rehearsal) (tasks : List TaskId) : Rehearsal :=
  (tasks.foldl (fun run id => run.happen (.stop id)) run).settle eventBound

end Handover.Rehearsal
