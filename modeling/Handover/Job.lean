import Handover.Address
import Handover.RowId

/-!
Contract: scheduled jobs and the store that holds them.

Owns: job rows, their statuses and schedule kinds, the job store, and the
operations on it that a recovery uses: a page of a node's jobs, a batch change of
owner, and the record of a failed submission.
-/

set_option autoImplicit false

namespace Handover

inductive JobStatus where
  | notSubmitted
  | submitting
  | waiting
  | running
  | restarting
  | finished
  | failed
  | submitFailed
  | canceled
deriving DecidableEq, Repr, Inhabited

namespace JobStatus

def all : List JobStatus :=
  [.notSubmitted, .submitting, .waiting, .running, .restarting, .finished, .failed,
    .submitFailed, .canceled]

/-- The statuses of jobs that still need an owner. -/
def unfinished : List JobStatus :=
  [.notSubmitted, .submitting, .waiting, .running, .restarting]

def isUnfinished (status : JobStatus) : Bool := unfinished.contains status

def name : JobStatus → String
  | .notSubmitted => "not_submitted"
  | .submitting => "submitting"
  | .waiting => "waiting"
  | .running => "running"
  | .restarting => "restarting"
  | .finished => "finished"
  | .failed => "failed"
  | .submitFailed => "submit_failed"
  | .canceled => "canceled"

def ofName? (text : String) : Option JobStatus := all.find? fun status => status.name == text

theorem mem_all (status : JobStatus) : status ∈ all := by cases status <;> decide

theorem ofName?_name (status : JobStatus) : ofName? status.name = some status := by
  cases status <;> decide

end JobStatus

inductive ScheduleKind where
  | cron
  | backfill
deriving DecidableEq, Repr, Inhabited

namespace ScheduleKind

def all : List ScheduleKind := [.cron, .backfill]

def name : ScheduleKind → String
  | .cron => "cron"
  | .backfill => "backfill"

def ofName? (text : String) : Option ScheduleKind := all.find? fun kind => kind.name == text

end ScheduleKind

structure Job where
  id : RowId
  jobId : String
  owner : Address
  status : JobStatus
  kind : ScheduleKind
  error : Option String
deriving DecidableEq, Repr, Inhabited

namespace Job

instance : Keyed Job RowId := ⟨Job.id⟩

def isUnfinished (job : Job) : Bool := job.status.isUnfinished

end Job

/-- The job store: rows by id. -/
abbrev Jobs := Table Job

namespace Jobs

/-- The first row with this job id. Job ids may repeat. -/
def findJob? (jobs : Jobs) (jobId : String) : Option Job :=
  jobs.rows.find? fun job => job.jobId == jobId

def ownedBy (jobs : Jobs) (owner : Address) : List Job :=
  jobs.rows.filter fun job => job.owner == owner

/-- At most `limit` jobs of `owner` in one of `statuses`, from the id that
follows `after` on, ascending. -/
def page (jobs : Jobs) (after : RowId) (statuses : List JobStatus) (owner : Address)
    (limit : Nat) : List Job :=
  (jobs.rows.filter fun job =>
    decide (after.following ≤ job.id) && job.owner == owner && statuses.contains job.status).take
      limit

/-- The rows with these ids go to `dest`. Also tells how many of the ids there were. -/
def reassign (jobs : Jobs) (dest : Address) (ids : List RowId) : Jobs × Nat :=
  (jobs.update (fun job => if ids.contains job.id then { job with owner := dest } else job)
      (fun job => by split <;> rfl),
    ids.countP fun id => (jobs.find? id).isSome)

/-- The first row with this job id takes the status and the error text. -/
def mark (jobs : Jobs) (jobId : String) (status : JobStatus) (error : String) : Jobs :=
  let first := (jobs.findJob? jobId).map Job.id
  jobs.update
    (fun job => if first = some job.id then { job with status := status, error := some error }
      else job)
    (fun job => by split <;> rfl)

end Jobs

end Handover
