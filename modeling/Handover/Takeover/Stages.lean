import Handover.Share.Distribution
import Handover.Takeover.Progress

/-!
Contract: the two stages of a takeover, one round at a time.

Owns: the liveness check that opens a stage, the page of jobs, the page of cache
rows, and what becomes of rows that cannot be read. A round ends in the next
progress or breaks off with the fault of the call that was refused.

A round that finds no further row looks once more whether the node still holds
work; if so, the node's record is reset, so that the next check of the heartbeats
finds it again.
-/

set_option autoImplicit false

namespace Handover.Takeover

open Time (Instant)

/-- The text stored with a job that could not be submitted. -/
def failureText (moment : Instant) (jobId detail : String) : String :=
  moment.lineText ++ " job " ++ jobId ++ " submit failed: " ++ detail

/-- Drops what the cache holds for a job and marks the job as failed to submit.
A blank job id names no job. -/
def recordFailure (jobId detail : String) : Attempt Unit :=
  if Text.isBlank jobId then return ()
  else do
    let _ ← Attempt.ask (.deleteJob jobId)
    let moment ← Attempt.of (Script.act .readClock)
    Attempt.ask (.markJob jobId .submitFailed (failureText moment jobId detail))

/-- The alive nodes other than `dead`. -/
def destinations (dead : Address) : Attempt (List Address) := do
  let alive ← Attempt.ask .aliveNodes
  return alive.filter fun node => node != dead

/-- The shares for a demand; a weigher that refuses has none. -/
def sharesFor (demand : Demand) : Script (Option Shares) := do
  match ← Script.ask (.weigh demand) with
  | .ok shares => return shares
  | .error _ => return none

/-- Makes one call for each entry and adds up the counts; a refusal counts nothing. -/
def addUp {ι : Type} (request : Address → List ι → Script (Except Fault Nat)) :
    List (Address × List ι) → Script Nat
  | [] => return 0
  | (dest, items) :: rest => do
      let count ← request dest items
      let later ← addUp request rest
      return (match count with | .ok moved => moved | .error _ => 0) + later

def moveJobs (plan : Distribution RowId) : Script Nat :=
  addUp (fun dest ids => Script.ask (.reassignJobs dest ids)) plan.assignments

def moveRows (plan : Distribution String) : Script Nat :=
  addUp (fun dest jobIds => Script.ask (.reassignCache dest jobIds)) plan.assignments

/-- The ids of the jobs of one schedule kind. -/
def idsOfKind (kind : ScheduleKind) (page : List Job) : List RowId :=
  (page.filter fun job => job.kind == kind).map Job.id

/-- Moves the jobs of one schedule kind, by weight where there are weights. -/
def moveKind (kind : ScheduleKind) (page : List Job) (alive : List Address) : Script Nat :=
  let ids := idsOfKind kind page
  if ids.isEmpty then return 0
  else do
    let shares ← sharesFor (.ofKind kind ids.length)
    moveJobs (distribute ids shares alive)

def readable (page : List CacheRow) : List Submission :=
  page.filterMap fun row => row.read.toOption

/-- The groups of the queued submissions: first those without a group, then the
named ones in order. -/
def queuedGroups (submissions : List Submission) : List (Option String) :=
  let groups := (submissions.filter fun one => one.stage == .queued).map Submission.group
  (if groups.contains none then [none] else []) ++
    (Table.ofList (groups.filterMap id)).rows.map some

/-- The job ids of the queued submissions of one group. -/
def queuedIn (group : Option String) (submissions : List Submission) : List String :=
  (submissions.filter fun one => one.stage == .queued && one.group == group).map Submission.jobId

/-- The job ids of the submissions that were handed over already. -/
def submittedIds (submissions : List Submission) : List String :=
  (submissions.filter fun one => one.stage == .submitted).map Submission.jobId

/-- Moves the queued submissions of one group after the other. -/
def moveGroups (submissions : List Submission) (alive : List Address) :
    List (Option String) → Script Nat
  | [] => return 0
  | group :: rest => do
      let jobIds := queuedIn group submissions
      let shares ← sharesFor (.ofGroup group jobIds.length)
      let moved ← moveRows (distribute jobIds shares alive)
      let later ← moveGroups submissions alive rest
      return moved + later

/-- Moves the submissions that were handed over already, always evenly. -/
def moveSubmitted (submissions : List Submission) (alive : List Address) : Script Nat :=
  let jobIds := submittedIds submissions
  if jobIds.isEmpty then return 0 else moveRows (distribute jobIds none alive)

/-- What is recorded about a row that cannot be read. -/
def flawDetail (row : CacheRow) (flaw : RowFlaw) : String :=
  "This task stores information exception and cannot be converted. " ++ (row.fault flaw).message

/-- Deals with a row that cannot be read: without a job id the row is dropped,
else its job is marked as failed. -/
def dealWith (row : CacheRow) (flaw : RowFlaw) : Attempt Unit :=
  if row.namesNoJob then do
    let _ ← Attempt.ask (.deleteRow row.id)
  else recordFailure row.jobId (flawDetail row flaw)

/-- Deals with the unreadable rows of a page and counts those it succeeded with. -/
def dealWithFlaws : List CacheRow → Script Nat
  | [] => return 0
  | row :: rest =>
      match row.read with
      | .ok _ => dealWithFlaws rest
      | .error flaw => do
          let dealt ← (dealWith row flaw).run
          let later ← dealWithFlaws rest
          return (match dealt with | .ok _ => 1 | .error _ => 0) + later

section Rounds

variable (pageSize : Nat) (node : Address)

def readsAlive : Attempt Bool := Attempt.ask (.isAlive node)

/-- Marks the node as in need of recovery. -/
def resetNode : Attempt Unit := Attempt.ask (.reset node .neverAlive true)

def openJobs : Attempt Progress := do
  let alive ← readsAlive node
  return if alive then .opened { skippedAlive := true } else .jobPage 0 {}

def jobRound (after : RowId) (tally : Tally) : Attempt Progress := do
  let page ← Attempt.ask (.pageJobs after node pageSize)
  match page.getLast? with
  | none => do
      let remaining ← Attempt.ask (.pageJobs 0 node 1)
      if remaining.isEmpty then return .opened tally
      else do
        resetNode node
        return .opened { tally with leftover := true }
  | some last => do
      let alive ← destinations node
      let cron ← Attempt.of (moveKind .cron page alive)
      let backfill ← Attempt.of (moveKind .backfill page alive)
      return .jobPage last.id { tally with reassigned := tally.reassigned + cron + backfill }

def openCache (jobs : Tally) : Attempt Progress := do
  let alive ← readsAlive node
  return if alive then .closing jobs { skippedAlive := true } else .cachePage jobs 0 {}

def cacheRound (jobs : Tally) (after : RowId) (tally : Tally) : Attempt Progress := do
  let page ← Attempt.ask (.pageCache after node none none pageSize)
  match page.getLast? with
  | none => do
      let remaining ← Attempt.ask (.pageCache 0 node none none 1)
      if remaining.isEmpty then return .closing jobs tally
      else do
        resetNode node
        return .closing jobs { tally with leftover := true }
  | some last => do
      let dealt ← Attempt.of (dealWithFlaws page)
      let alive ← destinations node
      let submissions := readable page
      let queued ← Attempt.of (moveGroups submissions alive (queuedGroups submissions))
      let submitted ← Attempt.of (moveSubmitted submissions alive)
      return .cachePage jobs last.id
        { tally with
          reassigned := tally.reassigned + queued + submitted
          failed := tally.failed + dealt }

end Rounds

end Handover.Takeover
