import Handover.Coordinator.Task
import Handover.World

/-!
Contract: a node with all that runs in it at one moment.

Owns: the state, the log of what happened, and the starting state.
-/

set_option autoImplicit false

namespace Handover.Coordinator

/-- Whether the coordinator takes over work. -/
inductive Mode where
  | standby
  | active
deriving DecidableEq, Repr, Inhabited

def Mode.name : Mode → String
  | .standby => "standby"
  | .active => "active"

def Mode.all : List Mode := [.standby, .active]

structure Group where
  activation : Nat
  worker : TaskId
  checker : TaskId
deriving DecidableEq, Repr

inductive Occurrence where
  | called (task : TaskId) (call : Call)
  | queued (node : Address)
  | taken (worker : TaskId) (node : Address)
  | began (task : TaskId) (node : Address)
  | finished (task : TaskId) (report : Takeover.Report)
deriving DecidableEq, Repr

structure State where
  settings : Settings
  world : World
  /-- Reports of dead nodes, the oldest first. -/
  queue : List Address
  /-- Whether the queue takes no more reports, as it does once its receiver is gone. The
  receiver is kept with the queue and lent to whoever takes from it, so no event of a node
  closes the queue (`State.step_closed`). -/
  closed : Bool
  /-- How many reports count as pending. -/
  pending : Nat
  /-- The mode that leadership changes go by. -/
  mode : Mode
  /-- The mode that is told to others, as a flag. -/
  active : Bool
  /-- The tasks of the present activation. -/
  group : Option Group
  /-- Workers of earlier activations that nobody waits for yet. -/
  draining : List TaskId
  changing : Option TaskId
  /-- Who holds the queue. Only its holder may take a report or run a takeover. -/
  holder : Option TaskId
  /-- Retries that were scheduled in a row, by node. -/
  retries : Table (Address × Nat)
  activations : Nat
  /-- Milliseconds since the start. -/
  clock : Nat
  tasks : List Task
  /-- What happened, the latest first. -/
  log : List Occurrence

namespace State

/-- A coordinator on standby to which nothing was reported. -/
def initial (settings : Settings) (world : World) : State where
  settings := settings
  world := world
  queue := []
  closed := false
  pending := 0
  mode := .standby
  active := false
  group := none
  draining := []
  changing := none
  holder := none
  retries := ∅
  activations := 0
  clock := 0
  tasks := []
  log := []

def task? (state : State) (id : TaskId) : Option Task := state.tasks[id]?

def setTask (state : State) (id : TaskId) (task : Task) : State :=
  { state with tasks := state.tasks.set id task }

/-- Starts a task. Its number is the number of tasks before. -/
def spawn (state : State) (task : Task) : State := { state with tasks := state.tasks ++ [task] }

def note (state : State) (occurrence : Occurrence) : State :=
  { state with log := occurrence :: state.log }

def hasEnded (state : State) (id : TaskId) : Bool :=
  match state.task? id with
  | some task => task.ended
  | none => true

def isStopped (state : State) (activation : Nat) : Bool :=
  (state.group.map Group.activation) != some activation

/-- The mode as told to others. -/
def shownMode (state : State) : Mode := if state.active then .active else .standby

def retriesOf (state : State) (node : Address) : Nat :=
  ((state.retries.find? node).map Prod.snd).getD 0

def calls (state : State) : List Call :=
  state.log.reverse.filterMap fun
    | .called _ call => some call
    | _ => none

end State

end Handover.Coordinator
