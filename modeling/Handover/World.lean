import Handover.Script

/-!
Contract: what the collaborators hold, and what a call does to it.

Owns: the job graph builder, the recovery signal, the state of all collaborators
together, carrying out a call on it, and the writes of other actors.
-/

set_option autoImplicit false

namespace Handover

open Time (Instant)

structure GraphBuilder where
  active : Bool
  /-- How often a graph was asked for, also one that was there already. -/
  calls : Nat
  built : Table String
deriving DecidableEq

namespace GraphBuilder

def initial : GraphBuilder := ⟨false, 0, ∅⟩

def activate (builder : GraphBuilder) (active : Bool) : GraphBuilder :=
  { builder with active := active }

/-- Builds the graph of `day` unless it is there. -/
def ensureBuilt (builder : GraphBuilder) (day : String) : GraphBuilder :=
  { builder with calls := builder.calls + 1, built := builder.built.insert day }

end GraphBuilder

/-- The signal by which work on this node is scanned anew: a count of the
triggers, and the count that was published last. -/
structure Signal where
  /-- Counted without a bound, which is faithful as long as a 64-bit word holds the count
  (`Triggers.Overlap.fits`). -/
  generation : Nat
  published : Nat
  /-- How often something was published. A subscriber has something unseen when
  this has moved since it looked. -/
  publications : Nat
deriving DecidableEq, Repr

namespace Signal

def initial : Signal := ⟨0, 0, 0⟩

/-- Counts a trigger and tells its number. -/
def advance (signal : Signal) : Signal × Nat :=
  ({ signal with generation := signal.generation + 1 }, signal.generation + 1)

def publish (signal : Signal) (number : Nat) : Signal :=
  { signal with published := number, publications := signal.publications + 1 }

/-- Whether something was published since a subscriber looked, when `looked` was
the count of publications. -/
def hasUnseen (signal : Signal) (looked : Nat) : Bool := signal.publications != looked

def trigger (signal : Signal) : Signal :=
  let (advanced, number) := signal.advance
  advanced.publish number

end Signal

structure World where
  members : Membership
  jobs : Jobs
  cache : Cache
  graph : GraphBuilder
  signal : Signal
  /-- The peers that were told to scan their work, in order. -/
  notified : List Address
deriving DecidableEq

namespace World

def initial : World := ⟨∅, ∅, ∅, .initial, .initial, []⟩

/-- Carries out a call: its answer, and what the collaborators hold afterwards. -/
def carryOut (weigher : Weigher) (world : World) : (call : Call) → call.Result × World
  | .isAlive node => (world.members.isAlive node, world)
  | .aliveNodes => (world.members.aliveNodes, world)
  | .liveness => (world.members.rows, world)
  | .reset node record _ => ((), { world with members := world.members.set node record })
  | .swap node expected record =>
      let (members, applied) := world.members.swap node expected record
      (applied, { world with members := members })
  | .pageJobs after owner limit =>
      (world.jobs.page after JobStatus.unfinished owner limit, world)
  | .reassignJobs dest ids =>
      let (jobs, count) := world.jobs.reassign dest ids
      (count, { world with jobs := jobs })
  | .markJob jobId status error =>
      ((), { world with jobs := world.jobs.mark jobId status error })
  | .pageCache after owner stage group limit =>
      (world.cache.page after owner stage group limit, world)
  | .reassignCache dest jobIds =>
      let (cache, count) := world.cache.reassign dest jobIds
      (count, { world with cache := cache })
  | .deleteJob jobId =>
      let (cache, found) := world.cache.deleteJob jobId
      (found, { world with cache := cache })
  | .deleteRow id =>
      let (cache, found) := world.cache.deleteRow id
      (found, { world with cache := cache })
  | .weigh demand => (weigher demand, world)
  | .activateGraph active => ((), { world with graph := world.graph.activate active })
  | .buildGraph day => ((), { world with graph := world.graph.ensureBuilt day })
  | .notify node => ((), { world with notified := world.notified ++ [node] })
  | .trigger => ((), { world with signal := world.signal.trigger })

/-- Carries out a call, or refuses it and leaves everything as it is. -/
def reply (weigher : Weigher) (world : World) (call : Call) (refused : Option String) :
    call.Reply × World :=
  match refused with
  | some detail =>
      if call.refusable then (.error (call.refusal detail), world)
      else
        let (result, after) := world.carryOut weigher call
        (.ok result, after)
  | none =>
      let (result, after) := world.carryOut weigher call
      (.ok result, after)

end World

/-- A write of another actor on what the collaborators hold. A job is written row by row; rows
of the cache may also be given away or removed by the calls that the coordinator itself has. -/
inductive Write where
  /-- A heartbeat, at the moment of the write if none is given. -/
  | heartbeat (node : Address) (moment : Option Instant)
  | markDead (node : Address)
  | reset (node : Address) (record : Liveness)
  | swap (node : Address) (expected : Nat) (record : Liveness)
  | job (row : Job)
  | cacheRow (row : CacheRow)
  | reassignCache (dest : Address) (jobIds : List String)
  | deleteJob (jobId : String)
  | deleteRow (id : RowId)
deriving DecidableEq, Repr

/-- The world after another actor's write at the moment `now`. -/
def World.afterWrite (world : World) (now : Instant) : Write → World
  | .heartbeat node moment =>
      { world with members := world.members.heartbeat node (moment.getD now) }
  | .markDead node => { world with members := world.members.markDead node }
  | .reset node record => { world with members := world.members.set node record }
  | .swap node expected record =>
      { world with members := (world.members.swap node expected record).1 }
  | .job row => { world with jobs := world.jobs.insert row }
  | .cacheRow row => { world with cache := world.cache.insert row }
  | .reassignCache dest jobIds => { world with cache := (world.cache.reassign dest jobIds).1 }
  | .deleteJob jobId => { world with cache := (world.cache.deleteJob jobId).1 }
  | .deleteRow id => { world with cache := (world.cache.deleteRow id).1 }

end Handover
