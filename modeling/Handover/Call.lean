import Handover.Liveness
import Handover.Share.Basic
import Handover.Submission

/-!
Contract: the calls that the coordinator makes on its collaborators.

Owns: one constructor a call, the type of what it answers, the fault it ends in
when it is refused, and the name and subject by which a call can be singled out.

Does not own: what a call does. `Handover.World` carries calls out.
-/

set_option autoImplicit false

namespace Handover

inductive Call where
  | isAlive (node : Address)
  | aliveNodes
  | liveness
  | reset (node : Address) (record : Liveness) (synchronized : Bool)
  | swap (node : Address) (expected : Nat) (record : Liveness)
  | pageJobs (after : RowId) (owner : Address) (limit : Nat)
  | reassignJobs (dest : Address) (ids : List RowId)
  | markJob (jobId : String) (status : JobStatus) (error : String)
  | pageCache (after : RowId) (owner : Address) (stage : Option Stage) (group : Option String)
      (limit : Nat)
  | reassignCache (dest : Address) (jobIds : List String)
  | deleteJob (jobId : String)
  | deleteRow (id : RowId)
  | weigh (demand : Demand)
  | activateGraph (active : Bool)
  | buildGraph (day : String)
  | notify (node : Address)
  | trigger
deriving DecidableEq, Repr

namespace Call

/-- What the call answers when it is carried out. -/
@[reducible] def Result : Call → Type
  | .isAlive _ => Bool
  | .aliveNodes => List Address
  | .liveness => List (Address × Liveness)
  | .reset _ _ _ => Unit
  | .swap _ _ _ => Bool
  | .pageJobs _ _ _ => List Job
  | .reassignJobs _ _ => Nat
  | .markJob _ _ _ => Unit
  | .pageCache _ _ _ _ _ => List CacheRow
  | .reassignCache _ _ => Nat
  | .deleteJob _ => Bool
  | .deleteRow _ => Bool
  | .weigh _ => Option Shares
  | .activateGraph _ => Unit
  | .buildGraph _ => Unit
  | .notify _ => Unit
  | .trigger => Unit

/-- An answer, or the fault the call ended in. -/
abbrev Reply (call : Call) : Type := Except Fault call.Result

def name : Call → String
  | .isAlive _ => "membership.is_alive"
  | .aliveNodes => "membership.list_alive"
  | .liveness => "membership.list_liveness"
  | .reset _ _ _ => "membership.reset"
  | .swap _ _ _ => "membership.cas"
  | .pageJobs _ _ _ => "jobs.list"
  | .reassignJobs _ _ => "jobs.reassign"
  | .markJob _ _ _ => "jobs.mark"
  | .pageCache _ _ _ _ _ => "cache.list"
  | .reassignCache _ _ => "cache.reassign"
  | .deleteJob _ => "cache.delete"
  | .deleteRow _ => "cache.delete_record"
  | .weigh (.ofKind _ _) => "weigher.kind"
  | .weigh (.ofGroup _ _) => "weigher.group"
  | .activateGraph _ => "graph.set_active"
  | .buildGraph _ => "graph.ensure_built"
  | .notify _ => "notify"
  | .trigger => "local.trigger"

/-- What the call is about, as text: a node, a job, a row, a kind or a group. -/
def subject : Call → String
  | .isAlive node => node.text
  | .reset node _ _ => node.text
  | .swap node _ _ => node.text
  | .pageJobs _ owner _ => owner.text
  | .reassignJobs dest _ => dest.text
  | .markJob jobId _ _ => jobId
  | .pageCache _ owner _ _ _ => owner.text
  | .reassignCache dest _ => dest.text
  | .deleteJob jobId => jobId
  | .deleteRow id => toString id.val
  | .weigh (.ofKind kind _) => kind.name
  | .weigh (.ofGroup group _) => group.getD ""
  | .notify node => node.text
  | .aliveNodes => ""
  | .liveness => ""
  | .activateGraph _ => ""
  | .buildGraph _ => ""
  | .trigger => ""

def refusal : Call → String → Fault
  | .isAlive _, detail => .membership detail
  | .aliveNodes, detail => .membership detail
  | .liveness, detail => .membership detail
  | .reset _ _ _, detail => .membership detail
  | .swap _ _ _, detail => .membership detail
  | .notify node, detail => .notify node detail
  | _, detail => .store detail

/-- Switching the job graph on or off cannot be refused. -/
def refusable : Call → Bool
  | .activateGraph _ => false
  | _ => true

end Call

end Handover
