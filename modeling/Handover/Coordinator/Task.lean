import Handover.Detection
import Handover.Takeover.Cycle

/-!
Contract: the tasks that run side by side in a node.

Owns: what a task is for, what its callers asked of it, what it has under way,
and how far it got. How tasks move is owned by `Handover.Coordinator.Step`.

A task that has something under way has a script. The script says which call or
effect comes next; the task's role and its errands say what its end means.
-/

set_option autoImplicit false

namespace Handover.Coordinator

open Time (Instant)

/-- Tasks are numbered in the order in which they came up. -/
abbrev TaskId := Nat

/-- What a script of a task ends with. -/
inductive Outcome where
  | nothing
  | accepted (yes : Bool)
  | progress (progress : Takeover.Progress)
  | checked (reported : Except Fault (List Address))
  | attempted (result : Except Fault Unit)

/-- A script, and whether the call that comes next in it is under way. -/
structure Work where
  script : Script Outcome
  started : Bool

def Work.on (script : Script Outcome) : Work := ⟨script, false⟩

/-- Something asked of the coordinator from outside. -/
inductive Errand where
  | report (text : String)
  /-- This node has become the leader, or no longer is. -/
  | lead (leader : Bool)
  /-- Take all the workers of earlier activations, and wait for them. -/
  | drain
  | await (workers : List TaskId)
  /-- Take over the work of a node at once, when no worker holds the queue. -/
  | takeOver (node : Address)
  | recordFailure (jobId detail : String)
  | check (timeoutMillis : Nat) (now : Instant)
  | trigger
deriving DecidableEq, Repr

/-- Going to standby for good. -/
def Errand.shutdown : List Errand := [.lead false, .drain]

/-- The leadership as an election publishes it. A reader has something unseen when
the count of publications has moved since it looked, or if it never looked. -/
structure Feed where
  leader : Bool
  publications : Nat
  seen : Option Nat
  closed : Bool
  stopped : Bool
deriving DecidableEq, Repr

namespace Feed

def opening (leader : Bool) : Feed := ⟨leader, 0, none, false, false⟩

def hasUnseen (feed : Feed) : Bool := feed.seen != some feed.publications

def publish (feed : Feed) (leader : Bool) : Feed :=
  { feed with leader := leader, publications := feed.publications + 1 }

def look (feed : Feed) : Feed := { feed with seen := some feed.publications }

/-- Whether its reader may stop reading. It looks once at least. -/
def mayLeave (feed : Feed) : Bool :=
  feed.seen.isSome && (feed.stopped || (feed.closed && !feed.hasUnseen))

end Feed

/-- What a task is for. -/
inductive Role where
  | caller
  | watcher (feed : Feed) (leaving : Bool)
  /-- Takes reports from the queue while it holds the queue, and is at `node`. -/
  | worker (activation : Nat) (holds : Bool) (node : Option Address)
  /-- Sees to it that the job graph of the day is there. -/
  | checker (activation : Nat) (due : Nat)
  | retry (activation : Nat) (node : Address) (due : Nat)
  /-- Checks the heartbeats now and then. -/
  | monitor (settings : MonitorSettings) (due : Nat) (stopped : Bool)
  /-- Makes this node heard now and then. -/
  | beat (node : Address) (interval : Nat) (due : Nat) (stopped : Bool)
deriving DecidableEq, Repr

structure Task where
  role : Role
  errands : List Errand
  work : Option Work
  results : List Outcome
  ended : Bool

namespace Task

def fresh (role : Role) (errands : List Errand) : Task := ⟨role, errands, none, [], false⟩

def begin (task : Task) (script : Script Outcome) : Task := { task with work := some (.on script) }

/-- The first errand is done, and brought `result`. -/
def completed (task : Task) (result : Outcome) : Task :=
  { task with
    errands := task.errands.tail
    work := none
    results := task.results ++ [result] }

/-- The task is over; what it had under way is dropped. -/
def close (task : Task) : Task := { task with work := none, errands := [], ended := true }

/-- The call that comes next, if a call comes next, and whether it is under way. -/
def call? (task : Task) : Option (Call × Bool) :=
  match task.work with
  | some ⟨.call request _, started⟩ => some (request, started)
  | _ => none

/-- The effect that comes next, if one comes next. -/
def effect? (task : Task) : Option Effect :=
  match task.work with
  | some ⟨.effect deed _, _⟩ => some deed
  | _ => none

end Task

end Handover.Coordinator
