import Handover.Coordinator.Step
import Handover.Rehearsal.Rule

/-!
Contract: a node run in virtual time over rehearsed collaborators.

Owns: which of the possible events happens. A task that can go on does so until it
can only wait; tasks that become able to go on meanwhile follow in turn. When all
can only wait, the clock moves to the next moment at which one need not.

Time passes nowhere else. The wall clock moves on by a nanosecond at each reading, and
also shows local time. No delay is lengthened at random.

Loops take a bound on the number of their rounds, which their callers choose
beyond what a run can need.
-/

set_option autoImplicit false

namespace Handover

open Coordinator Rehearsal
open Time (Instant)

structure Rehearsal.Flight where
  task : TaskId
  lands : Nat
  deeds : List Deed
  refused : Option String
deriving DecidableEq, Repr

structure Rehearsal where
  state : Coordinator.State
  weigher : Weigher
  rules : List Rule
  flights : List Flight
  /-- The tasks that can go on, in turn. -/
  ready : List TaskId
  /-- What the wall clock shows next. -/
  wall : Instant

namespace Rehearsal

def start (settings : Settings) (weigher : Weigher) (world : World) (wall : Instant) :
    Rehearsal where
  state := .initial settings world
  weigher := weigher
  rules := []
  flights := []
  ready := []
  wall := wall

def tick (run : Rehearsal) : Rehearsal := { run with wall := run.wall.plusNanos 1 }

/-- What the weigher answers to a call, if the call is a demand. -/
def sharesFor (run : Rehearsal) : Call → Option Shares
  | .weigh demand => run.weigher demand
  | _ => none

/-- The event by which a task goes on, if it can go on now. -/
def nextEvent? (run : Rehearsal) (id : TaskId) : Option Event := do
  let task ← run.state.task? id
  match task.work with
  | some ⟨.call _ _, false⟩ => some (.start id)
  | some ⟨.call request _, true⟩ => do
      let flight ← run.flights.find? fun flight => flight.task == id
      if flight.lands ≤ run.state.clock then
        some (.answer id (run.sharesFor request) flight.refused)
      else none
  | some ⟨.effect deed _, _⟩ =>
      if (run.state.afterEffect run.wall 0 deed).isSome then some (.effect id run.wall 0) else none
  | some ⟨.done _, _⟩ => some (.proceed id)
  | none =>
      if (run.state.quit id).isSome then some (.quit id)
      else if (run.state.proceed id).isSome then some (.proceed id)
      else none

def canGoOn (run : Rehearsal) (id : TaskId) : Bool := (run.nextEvent? id).isSome

/-- All tasks that can go on now, in the order of their numbers. -/
def able (run : Rehearsal) : List TaskId :=
  (List.range run.state.tasks.length).filter run.canGoOn

/-- The state after an event; an event that cannot happen changes nothing. -/
def happen (run : Rehearsal) (event : Event) : Rehearsal :=
  { run with state := (run.state.step event).getD run.state }

def write (run : Rehearsal) (entry : Write) : Rehearsal :=
  (run.happen (.write entry run.wall)).tick

/-- Reports a node dead, from begin to end. -/
def report (run : Rehearsal) (text : String) : Rehearsal :=
  if Intake.accepts text && !run.state.closed then
    let node := (Address.mk text).trim
    let state := run.state
    { run with state := { state with
      pending := state.pending + 1, queue := state.queue ++ [node] }.note (.queued node) }
  else run

def carryOut (run : Rehearsal) : Deed → Rehearsal
  | .write entry => run.write entry
  | .report text => run.report text

/-- The call of a task begins, by the rule it goes by. -/
def takeOff (run : Rehearsal) (id : TaskId) : Rehearsal :=
  match (run.state.task? id).bind Task.call? with
  | some (call, _) =>
      let (chosen, rules) := Rule.choose call run.rules
      let flight : Flight := match chosen with
        | some rule => ⟨id, run.state.clock + rule.delayMillis, rule.deeds, rule.refused⟩
        | none => ⟨id, run.state.clock, [], none⟩
      { run with rules := rules, flights := run.flights ++ [flight] }.happen (.start id)
  | none => run

/-- The call of a task ends, after what happened meanwhile. -/
def land (run : Rehearsal) (id : TaskId) (shares : Option Shares) (refused : Option String) :
    Rehearsal :=
  let deeds := (run.flights.find? fun flight => flight.task == id).map Flight.deeds
  let landed := { run with flights := run.flights.filter fun flight => flight.task != id }
  ((deeds.getD []).foldl carryOut landed).happen (.answer id shares refused)

def goOn (run : Rehearsal) : Event → Rehearsal
  | .start id => run.takeOff id
  | .answer id shares refused => run.land id shares refused
  | .effect id wall draw => (run.happen (.effect id wall draw)).tick
  | event => run.happen event

/-- Runs what can go on until all can only wait. -/
def settle : Nat → Rehearsal → Rehearsal
  | 0, run => run
  | bound + 1, run =>
      match run.ready with
      | [] =>
          match run.able with
          | [] => run
          | able => settle bound { run with ready := able }
      | id :: rest =>
          match run.nextEvent? id with
          | none => settle bound { run with ready := rest }
          | some event =>
              let after := run.goOn event
              let woken := after.able.filter fun other => !after.ready.contains other
              settle bound { after with ready := after.ready ++ woken }

/-- When a task that waits for a moment need not wait longer. -/
def dueOf (task : Task) : Option Nat :=
  if task.ended || task.work.isSome then none
  else match task.role with
    | .checker _ due => some due
    | .retry _ _ due => some due
    | .monitor _ due _ => some due
    | .beat _ _ due _ => some due
    | _ => none

/-- The next moment, after the present one, at which a task need not wait longer. -/
def nextMoment? (run : Rehearsal) : Option Nat :=
  let moments := run.state.tasks.filterMap dueOf ++ run.flights.map Flight.lands
  (moments.filter fun moment => run.state.clock < moment).min?

def passTo (run : Rehearsal) (moment : Nat) : Rehearsal :=
  run.happen (.pass (moment - run.state.clock))

/-- How many events may happen between two moments. -/
def eventBound : Nat := 100000000

/-- Runs on until `enough` holds or the clock shows `limit`. Without a limit it
also ends when nothing is left to happen. -/
def runUntil (enough : Rehearsal → Bool) (limit : Option Nat) : Nat → Rehearsal → Rehearsal
  | 0, run => run
  | bound + 1, run =>
      let settled := run.settle eventBound
      if enough settled then settled
      else match settled.nextMoment?, limit with
        | none, none => settled
        | none, some last => (settled.passTo last).settle eventBound
        | some moment, none => runUntil enough limit bound (settled.passTo moment)
        | some moment, some last =>
            if moment ≤ last then runUntil enough limit bound (settled.passTo moment)
            else (settled.passTo last).settle eventBound

/-- How many moments a run may stop at. -/
def momentBound : Nat := 100000000

def advance (run : Rehearsal) (millis : Nat) : Rehearsal :=
  runUntil (fun _ => false) (some (run.state.clock + millis)) momentBound run

/-- Something comes up that starts a task; also tells the task's number. -/
def launch (run : Rehearsal) (event : Event) : TaskId × Rehearsal :=
  let id := run.state.tasks.length
  let launched := run.happen event
  (id, { launched with ready := launched.ready ++ [id] })

/-- Runs on until a task is over. -/
def join (run : Rehearsal) (id : TaskId) (limit : Option Nat) : Rehearsal :=
  runUntil (fun run => run.state.hasEnded id) limit momentBound run

def resultsOf (run : Rehearsal) (id : TaskId) : List Outcome :=
  match run.state.task? id with
  | some task => task.results
  | none => []

def perform (run : Rehearsal) (errands : List Errand) : List Outcome × Rehearsal :=
  let (id, launched) := run.launch (.arrive errands)
  let done := launched.join id none
  (done.resultsOf id, done)

/-- Runs errands for so many milliseconds at most, and gives up on them then. -/
def performWithin (run : Rehearsal) (millis : Nat) (errands : List Errand) :
    Option (List Outcome) × Rehearsal :=
  let (id, launched) := run.launch (.arrive errands)
  let done := launched.join id (some (launched.state.clock + millis))
  if done.state.hasEnded id then (some (done.resultsOf id), done)
  else
    let freed := { done with flights := done.flights.filter fun flight => flight.task != id }
    (none, (freed.happen (.abandon id)).settle eventBound)

end Rehearsal

end Handover
