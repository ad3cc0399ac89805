import Handover.Fault

/-!
Contract: submissions waiting in the cache, and the store that holds them.

Owns: cache rows as they are stored, the submissions that can be read from them,
why a row may be unreadable, the cache store and its operations.

A row is stored without a check. What is wrong with it shows when it is read.
-/

set_option autoImplicit false

namespace Handover

inductive Stage where
  /-- Waits in the cache and contends for its resource group. -/
  | queued
  /-- Was handed to the compute engine. -/
  | submitted
deriving DecidableEq, Repr, Inhabited

namespace Stage

def code : Stage → Int
  | .queued => 1
  | .submitted => 2

def ofCode? (code : Int) : Option Stage :=
  if code = 1 then some .queued else if code = 2 then some .submitted else none

theorem ofCode?_code (stage : Stage) : ofCode? stage.code = some stage := by
  cases stage <;> decide

theorem ofCode?_eq_some_iff {code : Int} {stage : Stage} :
    ofCode? code = some stage ↔ code = stage.code := by
  constructor
  · intro read
    unfold ofCode? at read
    split at read
    · cases read
      assumption
    · split at read
      · cases read
        assumption
      · cases read
  · rintro rfl
    exact ofCode?_code stage

end Stage

structure CacheRow where
  id : RowId
  jobId : String
  owner : Address
  stage : Int
  group : Option String
deriving DecidableEq, Repr, Inhabited

instance : Keyed CacheRow RowId := ⟨CacheRow.id⟩

structure Submission where
  id : RowId
  jobId : String
  owner : Address
  stage : Stage
  group : Option String
deriving DecidableEq, Repr, Inhabited

/-- What makes a row unreadable. A missing job id is found first. -/
inductive RowFlaw where
  | emptyJobId
  | unknownStage (code : Int)
deriving DecidableEq, Repr

def RowFlaw.reason : RowFlaw → String
  | .emptyJobId => "empty job id"
  | .unknownStage code => "unknown stage code " ++ toString code

namespace CacheRow

/-- Whether the row names a job at all. -/
def namesNoJob (row : CacheRow) : Bool := Text.isBlank row.jobId

def read (row : CacheRow) : Except RowFlaw Submission :=
  if row.namesNoJob then .error .emptyJobId
  else match Stage.ofCode? row.stage with
    | none => .error (.unknownStage row.stage)
    | some stage => .ok ⟨row.id, row.jobId, row.owner, stage, row.group⟩

def fault (row : CacheRow) (flaw : RowFlaw) : Fault := .invalidRecord row.id flaw.reason

end CacheRow

/-- The submission cache: rows by id. -/
abbrev Cache := Table CacheRow

namespace Cache

/-- The first row with this job id. Job ids may repeat. -/
def findJob? (cache : Cache) (jobId : String) : Option CacheRow :=
  cache.rows.find? fun row => row.jobId == jobId

def ownedBy (cache : Cache) (owner : Address) : List CacheRow :=
  cache.rows.filter fun row => row.owner == owner

/-- At most `limit` rows of `owner` from the id that follows `after` on,
ascending; a stage and a group narrow the choice when given. -/
def page (cache : Cache) (after : RowId) (owner : Address) (stage : Option Stage)
    (group : Option String) (limit : Nat) : List CacheRow :=
  (cache.rows.filter fun row =>
    decide (after.following ≤ row.id) && row.owner == owner &&
      stage.all (fun wanted => row.stage == wanted.code) &&
      group.all (fun wanted => row.group == some wanted)).take limit

/-- All rows with one of these job ids go to `dest`. Also tells how many there were. -/
def reassign (cache : Cache) (dest : Address) (jobIds : List String) : Cache × Nat :=
  (cache.update
      (fun row => if jobIds.contains row.jobId then { row with owner := dest } else row)
      (fun row => by split <;> rfl),
    cache.rows.countP fun row => jobIds.contains row.jobId)

/-- Removes all rows with this job id. Also tells whether there was one. -/
def deleteJob (cache : Cache) (jobId : String) : Cache × Bool :=
  (cache.filter fun row => row.jobId != jobId, cache.rows.any fun row => row.jobId == jobId)

/-- Removes the row with this id. Also tells whether there was one. -/
def deleteRow (cache : Cache) (id : RowId) : Cache × Bool :=
  (cache.erase id, (cache.find? id).isSome)

end Cache

end Handover
