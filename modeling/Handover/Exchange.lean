import Handover.Job
import Handover.Json.Record
import Handover.Liveness
import Handover.Submission

/-!
Contract: the JSON forms of addresses, jobs, cache rows and liveness records.

Statuses, schedule kinds and stages have names of their own in JSON, other than
those that are shown.
-/

set_option autoImplicit false

namespace Handover

open Json (Field Form Layout)

def Address.form : Form Address := .ofText (fun text => some ⟨text⟩) Address.text

def RowId.form : Form RowId :=
  .whole (fun value => if 0 ≤ value then RowId.ofNat? value.toNat else none) (fun id => Int.ofNat id.val)

def JobStatus.jsonName : JobStatus → String
  | .notSubmitted => "NotSubmitted"
  | .submitting => "Submitting"
  | .waiting => "Waiting"
  | .running => "Running"
  | .restarting => "Restarting"
  | .finished => "Finished"
  | .failed => "Failed"
  | .submitFailed => "SubmitFailed"
  | .canceled => "Canceled"

def JobStatus.form : Form JobStatus := .oneOf all jsonName

def ScheduleKind.jsonName : ScheduleKind → String
  | .cron => "Cron"
  | .backfill => "Backfill"

def ScheduleKind.form : Form ScheduleKind := .oneOf all jsonName

def Stage.jsonName : Stage → String
  | .queued => "Queued"
  | .submitted => "Submitted"

def Stage.form : Form Stage := .oneOf [.queued, .submitted] jsonName

def Job.layout : Layout Job where
  fields :=
    [.required "id" RowId.form, .required "job_id" .text, .required "owner" Address.form,
      .required "status" JobStatus.form, .required "schedule_kind" ScheduleKind.form,
      .optional "error" .text]
  toRow job := (job.id, job.jobId, job.owner, job.status, job.kind, job.error, ())
  ofRow | (id, jobId, owner, status, kind, error, ()) => ⟨id, jobId, owner, status, kind, error⟩

def CacheRow.layout : Layout CacheRow where
  fields :=
    [.required "id" RowId.form, .required "job_id" .text, .required "owner" Address.form,
      .required "stage" .small, .optional "resource_group" .text]
  toRow row := (row.id, row.jobId, row.owner, row.stage, row.group, ())
  ofRow | (id, jobId, owner, stage, group, ()) => ⟨id, jobId, owner, stage, group⟩

def Liveness.layout : Layout Liveness where
  fields :=
    [.required "alive" .flag, .required "version" (.count (UInt64.size - 1)),
      .optional "last_heartbeat" .instant]
  toRow record := (record.alive, record.version, record.lastHeartbeat, ())
  ofRow | (alive, version, lastHeartbeat, ()) => ⟨alive, version, lastHeartbeat⟩

end Handover
