import Handover.Coordinator.State

/-!
Contract: how a node moves on, one event at a time.

Owns: the events, which of them can happen in a state, and the state after one.

An event is the smallest thing that nothing comes between: the begin of a call,
its end, an effect within the coordinator, a decision of a task that waits, the
passing of time, or something from outside. Which of the possible events happens
is left open. So are the outcome of a call, what whoever weighs answers, the reading of
a clock and the random part of a delay, which come with the event.

A mode change holds the mode from its begin to its end. A worker holds the queue
until it ends; a takeover from outside holds it for as long as it takes.
-/

set_option autoImplicit false

namespace Handover.Coordinator

open Time (Instant)

inductive Event where
  | arrive (errands : List Errand)
  /-- An election starts to be followed. -/
  | follow (leader : Bool)
  /-- An election publishes who leads. -/
  | publish (watcher : TaskId) (leader : Bool)
  | close (watcher : TaskId)
  | monitor (settings : MonitorSettings)
  /-- This node starts to be heard every so many milliseconds. -/
  | beat (interval : Nat)
  /-- A watcher, a monitor or a beat is asked to stop. -/
  | stop (id : TaskId)
  /-- The call that a task makes next begins. -/
  | start (id : TaskId)
  /-- The call of a task ends, refused with a text or carried out. A demand is answered
  with the shares. -/
  | answer (id : TaskId) (shares : Option Shares) (refused : Option String)
  /-- The effect that comes next in a task happens. The clock that it reads, if it reads
  one, shows `wall`. -/
  | effect (id : TaskId) (wall : Instant) (draw : Nat)
  /-- A task goes on that has neither a call nor an effect to make. -/
  | proceed (id : TaskId)
  /-- A task does what it does when it is asked to stop. -/
  | quit (id : TaskId)
  | abandon (id : TaskId)
  | pass (millis : Nat)
  /-- Another actor writes to what the collaborators hold. -/
  | write (entry : Write) (wall : Instant)
deriving DecidableEq

/-! ## Effects -/

namespace State

/-- Counts one more retry of `node` and starts it under an activation, unless the budget
is used up. -/
def countRetry (state : State) (activation : Nat) (node : Address) (draw : Nat) : State :=
  let attempt := state.retriesOf node + 1
  let counted := { state with retries := state.retries.insert (node, attempt) }
  if attempt > state.settings.retryLimit then counted
  else counted.spawn (.fresh
    (.retry activation node (state.clock + state.settings.retryDelay attempt draw)) [])

/-- Counts one more retry of `node` under the present activation. On standby there is
nothing to count.

To read the activation and to count are two steps, each behind a lock of its own, and
yet one event. While the task is at its takeover no one else touches the budget, so it
counts from the same number however many events come between the two; and where the
activation is over by then, the retry comes up stopped (`State.countRetry_later`). -/
def scheduleRetry (state : State) (node : Address) (draw : Nat) : State :=
  match state.group with
  | none => state
  | some group => state.countRetry group.activation node draw

/-- The state after an effect, and what the script learns. An effect that needs
the mode waits while someone changes it. -/
def afterEffect (state : State) (wall : Instant) (draw : Nat) :
    (deed : Effect) → Option (deed.Result × State)
  | .readClock => some (wall, state)
  | .readLocalClock => some (wall, state)
  | .countReport => some ((), { state with pending := state.pending + 1 })
  | .enqueue node =>
      if state.closed then some (false, state)
      else some (true, { state with queue := state.queue ++ [node] }.note (.queued node))
  | .discountReport => some ((), { state with pending := state.pending - 1 })
  | .forgetRetries node => some ((), { state with retries := state.retries.erase node })
  | .scheduleRetry node =>
      if state.changing.isSome then none else some ((), state.scheduleRetry node draw)
  | .heartbeat node =>
      some ((), { state with
        world := { state.world with members := state.world.members.heartbeat node wall } })

/-! ## Changes of the mode -/

/-- Becomes active: a worker and a checker start. -/
def activate (state : State) : State :=
  let worker := state.tasks.length
  let activation := state.activations
  { state with
    tasks := state.tasks ++
      [.fresh (.worker activation false none) [], .fresh (.checker activation state.clock) []]
    group := some ⟨activation, worker, worker + 1⟩
    activations := activation + 1
    mode := .active
    active := true }

/-- Goes to standby: the worker may finish its node, the checker is cut off. -/
def deactivate (state : State) : State :=
  let stopped := match state.group with
    | none => state
    | some group =>
        { state with
          tasks := state.tasks.modify group.checker Task.close
          draining := state.draining ++ [group.worker] }
  { stopped with group := none, mode := .standby, active := false }

/-- The mode once a change to `leader` is done. -/
def changeMode (state : State) (leader : Bool) : State :=
  if leader then state.activate else state.deactivate

/-- The workers of earlier activations that are not over. -/
def prune (state : State) : State :=
  { state with draining := state.draining.filter fun worker => !state.hasEnded worker }

end State

/-! ## Scripts of tasks -/

def roundOf (settings : Settings) (node : Address) (progress : Takeover.Progress) :
    Script Outcome := do
  let next ← Takeover.round settings node progress
  return .progress next

def submitScript (text : String) : Script Outcome := do
  let accepted ← Intake.submit text
  return .accepted accepted

def failureScript (jobId detail : String) : Script Outcome := do
  let result ← (Takeover.recordFailure jobId detail).run
  return .attempted result

def checkScript (timeoutMillis : Nat) (now : Instant) : Script Outcome := do
  let reported ← (Detection.pass timeoutMillis now).run
  return .checked reported

/-- A check of the heartbeats as of the moment it begins. -/
def monitorScript (timeoutMillis : Nat) : Script Outcome := do
  let now ← Script.act .readClock
  checkScript timeoutMillis now

def triggerScript : Script Outcome := do
  let result ← Script.ask .trigger
  return .attempted result

def toggleScript (leader : Bool) : Script Outcome := do
  let _ ← Script.ask (.activateGraph leader)
  return .nothing

/-- Sees to the job graph of the day in local time. A refusal waits for the next check. -/
def buildScript : Script Outcome := do
  let now ← Script.act .readLocalClock
  let _ ← Script.ask (.buildGraph now.dayKey)
  return .nothing

/-- Queues the node of a retry. If the queue is closed the retry is lost. -/
def pushScript (node : Address) : Script Outcome := do
  let _ ← Intake.push node
  return .nothing

/-- A worker counts off the report it took and opens the takeover. -/
def takenScript (settings : Settings) (node : Address) : Script Outcome := do
  Script.act .discountReport
  roundOf settings node .opening

def beatScript (node : Address) : Script Outcome := do
  Script.act (.heartbeat node)
  return .nothing

/-! ## Decisions of tasks -/

namespace State

/-- A task begins with its first errand, if it can. -/
def beginErrand (state : State) (id : TaskId) (task : Task) : Errand → Option State
  | .report text => some (state.setTask id (task.begin (submitScript text)))
  | .lead leader =>
      if state.changing.isSome then none
      else
        let pruned := state.prune
        if leader = (pruned.mode == .active) then
          some (pruned.setTask id (task.completed .nothing))
        else
          some ({ pruned with changing := some id }.setTask id (task.begin (toggleScript leader)))
  | .drain =>
      if state.changing.isSome then none
      else
        let awaiting := { task with errands := .await state.draining :: task.errands.tail }
        some ({ state with draining := [] }.setTask id awaiting)
  | .await [] => some (state.setTask id (task.completed .nothing))
  | .await (worker :: rest) =>
      if state.hasEnded worker then
        some (state.setTask id { task with errands := .await rest :: task.errands.tail })
      else none
  | .takeOver node =>
      if state.holder.isSome then none
      else
        let began := { state with holder := some id }.note (.began id node)
        some (began.setTask id (task.begin (roundOf state.settings node .opening)))
  | .recordFailure jobId detail =>
      some (state.setTask id (task.begin (failureScript jobId detail)))
  | .check timeoutMillis now =>
      some (state.setTask id (task.begin (checkScript timeoutMillis now)))
  | .trigger => some (state.setTask id (task.begin triggerScript))

/-- A task without an errand goes by its role. -/
def beginRole (state : State) (id : TaskId) (task : Task) : Option State :=
  match task.role with
  | .caller => some (state.setTask id task.close)
  | .watcher feed leaving =>
      if leaving then some (state.setTask id task.close)
      else if feed.hasUnseen then
        some (state.setTask id
          { task with role := .watcher feed.look false, errands := [.lead feed.leader] })
      else none
  | .worker activation false _ =>
      if state.holder.isSome then none
      else
        some ({ state with holder := some id }.setTask id
          { task with role := .worker activation true none })
  | .worker activation true _ =>
      if state.isStopped activation then none
      else match state.queue with
        | [] => none
        | node :: rest =>
            let taken := ({ state with queue := rest }.note (.taken id node)).note (.began id node)
            some (taken.setTask id
              ({ task with role := .worker activation true (some node) }.begin
                (takenScript state.settings node)))
  | .checker activation due =>
      if state.isStopped activation || decide (state.clock < due) then none
      else
        some (state.setTask id
          ({ task with
              role := .checker activation (due + state.settings.graphCheckInterval) }.begin
            buildScript))
  | .retry _ node due =>
      if state.clock < due then none
      else some (state.setTask id (task.begin (pushScript node)))
  | .monitor settings due stopped =>
      if state.clock < due then none
      else
        let later := { task with role := .monitor settings (due + settings.checkInterval) stopped }
        some (state.setTask id
          (if state.active then later.begin (monitorScript settings.timeoutMillis) else later))
  | .beat node interval due stopped =>
      if state.clock < due then none
      else
        some (state.setTask id
          ({ task with role := .beat node interval (due + interval) stopped }.begin
            (beatScript node)))

/-- The first errand of a task comes to its end, or to its next round. -/
def endErrand (state : State) (id : TaskId) (task : Task) (outcome : Outcome) : Errand → State
  | .lead leader =>
      let task := task.completed outcome
      { state.changeMode leader with changing := none }.setTask id task
  | .takeOver node =>
      match outcome with
      | .progress (.finished report) =>
          ({ state with holder := none }.note (.finished id report)).setTask id
            (task.completed outcome)
      | .progress progress =>
          state.setTask id (task.begin (roundOf state.settings node progress))
      | _ => state.setTask id (task.completed outcome)
  | _ => state.setTask id (task.completed outcome)

/-- A task without an errand comes to the end of its script. -/
def endRole (state : State) (id : TaskId) (task : Task) (outcome : Outcome) : State :=
  let rested := { task with work := none }
  match task.role with
  | .worker activation holds (some node) =>
      match outcome with
      | .progress (.finished report) =>
          (state.note (.finished id report)).setTask id
            { rested with role := .worker activation holds none }
      | .progress progress =>
          state.setTask id (task.begin (roundOf state.settings node progress))
      | _ => state.setTask id { rested with role := .worker activation holds none }
  | .retry _ _ _ => state.setTask id task.close
  | _ => state.setTask id rested

/-- A task goes on that has neither a call nor an effect to make. -/
def proceed (state : State) (id : TaskId) : Option State := do
  let task ← state.task? id
  if task.ended then none
  else match task.work, task.errands with
    | some ⟨.done outcome, _⟩, errand :: _ => some (state.endErrand id task outcome errand)
    | some ⟨.done outcome, _⟩, [] => some (state.endRole id task outcome)
    | some _, _ => none
    | none, errand :: _ => state.beginErrand id task errand
    | none, [] => state.beginRole id task

/-- A task does what it does when it is asked to stop. -/
def quit (state : State) (id : TaskId) : Option State := do
  let task ← state.task? id
  if task.ended || task.work.isSome || !task.errands.isEmpty then none
  else match task.role with
    | .caller => none
    | .watcher feed leaving =>
        if !leaving && feed.mayLeave then
          some (state.setTask id
            { task with role := .watcher feed true, errands := Errand.shutdown })
        else none
    | .worker activation holds _ =>
        if state.isStopped activation then
          let released := if holds then { state with holder := none } else state
          some (released.setTask id task.close)
        else none
    | .checker activation _ =>
        if state.isStopped activation then some (state.setTask id task.close) else none
    | .retry activation _ _ =>
        if state.isStopped activation then some (state.setTask id task.close) else none
    | .monitor _ _ stopped => if stopped then some (state.setTask id task.close) else none
    | .beat _ _ _ stopped => if stopped then some (state.setTask id task.close) else none

/-- A caller is given up on. What it holds is free again. -/
def abandon (state : State) (id : TaskId) : Option State := do
  let task ← state.task? id
  match task.role with
  | .caller =>
      let freed := { state with
        holder := if state.holder = some id then none else state.holder
        changing := if state.changing = some id then none else state.changing }
      some (freed.setTask id task.close)
  | _ => none

def changeFeed (state : State) (id : TaskId) (change : Feed → Feed) : Option State := do
  let task ← state.task? id
  match task.role with
  | .watcher feed leaving =>
      some (state.setTask id { task with role := .watcher (change feed) leaving })
  | _ => none

/-- A watcher, a monitor or a beat is asked to stop. -/
def askToStop (state : State) (id : TaskId) : Option State := do
  let task ← state.task? id
  match task.role with
  | .watcher feed leaving =>
      some (state.setTask id
        { task with role := .watcher { feed with stopped := true } leaving })
  | .monitor settings due _ =>
      some (state.setTask id { task with role := .monitor settings due true })
  | .beat node interval due _ =>
      some (state.setTask id { task with role := .beat node interval due true })
  | _ => none

/-- The state after an event, if the event can happen. -/
def step (state : State) : Event → Option State
  | .arrive errands => some (state.spawn (.fresh .caller errands))
  | .follow leader => some (state.spawn (.fresh (.watcher (.opening leader) false) []))
  | .publish id leader => state.changeFeed id fun feed => feed.publish leader
  | .close id => state.changeFeed id fun feed => { feed with closed := true }
  | .monitor settings => some (state.spawn (.fresh (.monitor settings state.clock false) []))
  | .beat interval =>
      some (state.spawn
        (.fresh (.beat state.settings.localAddress interval state.clock false) []))
  | .stop id => state.askToStop id
  | .start id => do
      let task ← state.task? id
      match task.work with
      | some ⟨.call request next, false⟩ =>
          some ((state.note (.called id request)).setTask id
            { task with work := some ⟨.call request next, true⟩ })
      | _ => none
  | .answer id shares refused => do
      let task ← state.task? id
      match task.work with
      | some ⟨.call request next, true⟩ =>
          let (reply, world) := state.world.reply (.answering shares) request refused
          some ({ state with world := world }.setTask id (task.begin (next reply)))
      | _ => none
  | .effect id wall draw => do
      let task ← state.task? id
      match task.work with
      | some ⟨.effect deed next, _⟩ =>
          let (result, after) ← state.afterEffect wall draw deed
          some (after.setTask id (task.begin (next result)))
      | _ => none
  | .proceed id => state.proceed id
  | .quit id => state.quit id
  | .abandon id => state.abandon id
  | .pass millis => some { state with clock := state.clock + millis }
  | .write entry wall => some { state with world := state.world.afterWrite wall entry }

/-- The state after a list of events, if each can happen in its turn. -/
def run (state : State) : List Event → Option State
  | [] => some state
  | event :: rest => do
      let next ← state.step event
      next.run rest

end State

end Handover.Coordinator
