import Handover.Proofs.Marks
import Handover.Proofs.Recording

/-!
Contract: the failure of a submission recorded again and again.

A caller who is told of a fault repeats the attempt, without knowing how far it got. An
attempt deletes all rows of the job and marks the first job with its id, and it may have
stopped before either of them, any number of times.

Owns: attempts in a row; the three states in which they can have left the stores; that once
one of them succeeds the stores hold what a single success would have left, but for the
moment in the stored text; and that rows of other jobs are never touched.

Both writes say what is to be and not what is to change, so each of them made again is as if
made once, and a mark made again only replaces the moment.
-/

set_option autoImplicit false

namespace Handover

open Time (Instant)

/-! ## A mark made again -/

section Mark

variable {jobs : Jobs} {jobId : String}

/-- A mark changes neither the names of the jobs nor their order. -/
theorem Jobs.map_findJob?_mark (status : JobStatus) (error wanted : String) :
    ((jobs.mark jobId status error).findJob? wanted).map Job.id = (jobs.findJob? wanted).map Job.id := by
  have named : ∀ change : Job → Job, (∀ job, (change job).jobId = job.jobId) →
      (∀ job, (change job).id = job.id) →
      ((jobs.rows.map change).find? fun job => job.jobId == wanted).map Job.id =
        (jobs.findJob? wanted).map Job.id := by
    intro change sameName sameId
    simp [findJob?, List.find?_map, Function.comp_def, sameName, sameId]
  exact named _ (fun job => by split <;> rfl) fun job => by split <;> rfl

/-- Of two marks for one job id the later counts. -/
theorem Jobs.mark_mark (first second : JobStatus) (earlier later : String) :
    (jobs.mark jobId first earlier).mark jobId second later = jobs.mark jobId second later := by
  have sameFirst : ((jobs.mark jobId first earlier).findJob? jobId).map Job.id =
      (jobs.findJob? jobId).map Job.id := map_findJob?_mark first earlier jobId
  apply Table.ext_rows
  rw [mark, Table.rows_update, sameFirst]
  simp only [mark, Table.rows_update, List.map_map]
  refine List.map_congr_left fun job _ => ?_
  simp only [Function.comp_apply]
  split <;> simp

/-- Jobs with another id are as they were. -/
theorem Jobs.filter_mark (status : JobStatus) (error : String) :
    (jobs.mark jobId status error).filter (fun job => job.jobId != jobId) =
      jobs.filter fun job => job.jobId != jobId := by
  apply Table.ext_rows
  simp only [mark, Table.rows_filter, Table.rows_update, List.filter_map]
  have names : ((fun job : Job => job.jobId != jobId) ∘ fun job =>
      if (jobs.findJob? jobId).map Job.id = some job.id then
        { job with status := status, error := some error } else job) = fun job => job.jobId != jobId := by
    funext job
    simp only [Function.comp_apply]
    split <;> rfl
  rw [names]
  refine (List.map_congr_left fun job among => ?_).trans (List.map_id' _)
  obtain ⟨inside, other⟩ := List.mem_filter.1 among
  rw [if_neg]
  intro marked
  have found := (Jobs.map_findJob?_eq_some_iff inside).1 marked
  exact absurd (Jobs.findJob?_jobId found).2 (by simpa using other)

end Mark

namespace Takeover

open Coordinator (TaskId)

/-! ## Worlds that differ in the moment of a failure -/

/-- Either the same job, or a failure recorded with it at two moments. -/
def FailedAlike (jobId detail : String) (left right : Job) : Prop :=
  left = right ∨ left.jobId = jobId ∧ ∃ earlier later,
    left.error = some (failureText earlier jobId detail) ∧
      right = { left with error := some (failureText later jobId detail) }

/-- All is the same but for the moment at which the failure of the job was recorded. -/
structure SameButMoment (jobId detail : String) (left right : World) : Prop where
  jobs : List.Forall₂ (FailedAlike jobId detail) left.jobs.rows right.jobs.rows
  rest : { right with jobs := left.jobs } = left

/-- Nothing but the rows of the job has changed, in either store. -/
structure Spared (jobId : String) (before after : World) : Prop where
  jobs : after.jobs.filter (fun job => job.jobId != jobId) =
    before.jobs.filter fun job => job.jobId != jobId
  cache : after.cache.filter (fun row => row.jobId != jobId) =
    before.cache.filter fun row => row.jobId != jobId
  rest : { after with jobs := before.jobs, cache := before.cache } = before

section Worlds

variable {jobId detail : String} {world : World}

theorem recorded_sameButMoment (world : World) (jobId detail : String) (earlier later : Instant) :
    SameButMoment jobId detail (recorded world jobId detail earlier)
      (recorded world jobId detail later) where
  jobs := by
    simp only [recorded, Jobs.mark, Table.rows_update]
    rw [List.forall₂_map_left_iff, List.forall₂_map_right_iff, List.forall₂_same]
    intro job inside
    split
    case isTrue marked =>
      have found := (Jobs.map_findJob?_eq_some_iff inside).1 marked
      exact .inr ⟨(Jobs.findJob?_jobId found).2, earlier, later, rfl, rfl⟩
    case isFalse => exact .inl rfl
  rest := rfl

theorem recorded_recorded (world : World) (jobId detail : String) (earlier later : Instant) :
    recorded (recorded world jobId detail earlier) jobId detail later =
      recorded world jobId detail later := by
  simp only [recorded, Jobs.mark_mark, deleteJob_deleteJob]

end Worlds

/-! ## Attempts in a row -/

/-- Attempts to record a failure, one after the other: what the collaborators hold before the
first, how each of them ended, and what they hold after the last. -/
inductive Attempts (jobId detail : String) : World → List (Except Fault Unit) → World → Prop
  | none {world : World} : Attempts jobId detail world [] world
  | next {id : TaskId} {chances : Chances} {session last : Session} {result : Except Fault Unit}
      {results : List (Except Fault Unit)} {after : World}
      (played : (recordFailure jobId detail).run.play id chances session = some (result, last))
      (later : Attempts jobId detail last.world results after) :
      Attempts jobId detail session.world (result :: results) after

/-- How far attempts have got that began in `start`. -/
inductive Partway (jobId detail : String) (start : World) : World → Prop
  | untouched : Partway jobId detail start start
  /-- The rows of the job are gone, and no job is marked. -/
  | deleted : Partway jobId detail start
      { start with cache := (start.cache.deleteJob jobId).1 }
  | recorded (moment : Instant) :
      Partway jobId detail start (Takeover.recorded start jobId detail moment)

section Runs

variable {jobId detail : String} {start world after : World} {results : List (Except Fault Unit)}

/-- Wherever attempts have got, rows of other jobs are as they were. -/
theorem Partway.spared (partway : Partway jobId detail start world) : Spared jobId start world := by
  have others : (start.cache.deleteJob jobId).1.filter (fun row => row.jobId != jobId) =
      start.cache.filter fun row => row.jobId != jobId := by
    apply Table.ext_rows
    simp [Cache.deleteJob, List.filter_filter]
  cases partway with
  | untouched => exact ⟨rfl, rfl, rfl⟩
  | deleted => exact ⟨rfl, others, rfl⟩
  | recorded moment => exact ⟨Jobs.filter_mark _ _, others, rfl⟩

/-- A mark after a deletion is all that counts, wherever attempts have got before. -/
theorem Partway.recorded_eq (partway : Partway jobId detail start world) (moment : Instant) :
    Takeover.recorded world jobId detail moment = Takeover.recorded start jobId detail moment := by
  cases partway with
  | untouched => rfl
  | deleted => exact recorded_of_deleted start jobId detail moment
  | recorded earlier => exact recorded_recorded start jobId detail earlier moment

/-- A deletion does not undo what is recorded. -/
theorem deleted_recorded (start : World) (moment : Instant) :
    { recorded start jobId detail moment with
      cache := ((recorded start jobId detail moment).cache.deleteJob jobId).1 } =
      recorded start jobId detail moment := by
  simp only [recorded, deleteJob_deleteJob]

theorem Partway.delete (partway : Partway jobId detail start world) :
    Partway jobId detail start { world with cache := (world.cache.deleteJob jobId).1 } := by
  cases partway with
  | untouched => exact .deleted
  | deleted =>
      simp only [deleteJob_deleteJob]
      exact .deleted
  | recorded moment =>
      rw [deleted_recorded]
      exact .recorded moment

section Attempt

variable {id : TaskId} {chances : Chances} {session last : Session} {result : Except Fault Unit}
  (named : Text.isBlank jobId = false)
  (played : (recordFailure jobId detail).run.play id chances session = some (result, last))

include named played

/-- What one attempt leaves: after a fault just what was there, or that without the rows of the
job; after a success the failure is recorded. -/
theorem attempt_leaves :
    (result ≠ .ok () ∧ (last.world = session.world ∨
      last.world = { session.world with cache := (session.world.cache.deleteJob jobId).1 })) ∨
    ∃ moment, last.world = recorded session.world jobId detail moment := by
  obtain ⟨made, continues, records⟩ := (recordFailure_leads jobId detail session).of_play played
  cases records with
  | ignored nameless => exact absurd (named.symm.trans nameless) nofun
  | kept => exact .inl ⟨nofun, .inl continues.world⟩
  | unmarked => exact .inl ⟨nofun, .inr continues.world⟩
  | recorded _ moment => exact .inr ⟨moment, continues.world⟩

theorem Partway.attempt (partway : Partway jobId detail start session.world) :
    Partway jobId detail start last.world := by
  rcases attempt_leaves named played with ⟨_, same | deleted⟩ | ⟨moment, recorded⟩
  · rwa [same]
  · rw [deleted]
    exact partway.delete
  · rw [recorded, partway.recorded_eq]
    exact .recorded moment

theorem Partway.success (partway : Partway jobId detail start session.world) (ended : result = .ok ()) :
    ∃ moment, last.world = Takeover.recorded start jobId detail moment := by
  rcases attempt_leaves named played with ⟨fault, _⟩ | ⟨moment, recorded⟩
  · exact absurd ended fault
  · exact ⟨moment, recorded.trans (partway.recorded_eq moment)⟩

/-- Once the failure is recorded, no attempt changes more than the moment. -/
theorem recorded_attempt {earlier : Instant}
    (before : session.world = recorded start jobId detail earlier) :
    ∃ moment, last.world = recorded start jobId detail moment := by
  rcases attempt_leaves named played with ⟨_, same | deleted⟩ | ⟨moment, again⟩
  · exact ⟨earlier, same.trans before⟩
  · rw [before, deleted_recorded] at deleted
    exact ⟨earlier, deleted⟩
  · rw [before, recorded_recorded] at again
    exact ⟨moment, again⟩

end Attempt

/-- Attempts in a row go on from where the ones before them have got. -/
theorem Attempts.partway (named : Text.isBlank jobId = false)
    (attempts : Attempts jobId detail world results after)
    (before : Partway jobId detail start world) : Partway jobId detail start after := by
  induction attempts with
  | none => exact before
  | next played _ inductionHypothesis => exact inductionHypothesis (before.attempt named played)

/-- What is recorded stays recorded, whatever becomes of further attempts. -/
theorem Attempts.stays_recorded (named : Text.isBlank jobId = false)
    (attempts : Attempts jobId detail world results after) {earlier : Instant}
    (before : world = recorded start jobId detail earlier) :
    ∃ moment, after = recorded start jobId detail moment := by
  induction attempts generalizing earlier with
  | none => exact ⟨earlier, before⟩
  | next played _ inductionHypothesis =>
      obtain ⟨moment, recorded⟩ := recorded_attempt named played before
      exact inductionHypothesis recorded

/-- After a success the failure is recorded as it would have been from the start. -/
theorem Attempts.recorded (named : Text.isBlank jobId = false)
    (attempts : Attempts jobId detail world results after)
    (before : Partway jobId detail start world) (succeeded : .ok () ∈ results) :
    ∃ moment, after = Takeover.recorded start jobId detail moment := by
  induction attempts with
  | none => exact absurd succeeded List.not_mem_nil
  | next played later inductionHypothesis =>
      rcases List.mem_cons.1 succeeded with ended | among
      · obtain ⟨moment, recorded⟩ := before.success named played ended.symm
        exact later.stays_recorded named recorded
      · exact inductionHypothesis (before.attempt named played) among

end Runs

/-- However often an attempt to record a failure was stopped before a success, the stores hold
what a single success from the start on leaves, but for the moment in the stored text; there is
such a success where no call is refused. Further attempts, also ones that end in a fault, change
nothing but that moment. Rows of other jobs are never touched, be there a success or not. -/
theorem recording_converges {jobId : String} (named : Text.isBlank jobId = false) {detail : String}
    {start after : World} {results : List (Except Fault Unit)}
    (attempts : Attempts jobId detail start results after) :
    Spared jobId start after ∧
      (.ok () ∈ results →
        (∀ (id : TaskId) (chances : Chances) (session : Session), session.world = start →
          ∃ result last, (recordFailure jobId detail).run.play id chances session = some (result, last) ∧
            ((∀ turn, (chances turn).refused (.deleteJob jobId) = none ∧
                ∀ status error, (chances turn).refused (.markJob jobId status error) = none) →
              result = .ok ()) ∧
            (result = .ok () → SameButMoment jobId detail after last.world)) ∧
        ∀ more last, Attempts jobId detail after more last → SameButMoment jobId detail after last) := by
  refine ⟨(attempts.partway named .untouched).spared, fun succeeded => ?_⟩
  obtain ⟨moment, rfl⟩ := attempts.recorded named .untouched succeeded
  constructor
  · intro id chances session there
    obtain ⟨result, last, played, unrefused, ends⟩ := recordFailure_ends id chances named detail session
    refine ⟨result, last, played, unrefused, fun ended => ?_⟩
    obtain ⟨other, left⟩ := ends ended
    rw [left, there]
    exact recorded_sameButMoment start jobId detail moment other
  · intro more last further
    obtain ⟨other, rfl⟩ := further.stays_recorded named rfl
    exact recorded_sameButMoment start jobId detail moment other

/-- Two jobs and two rows of one job id, and another job with its row. -/
private def doubled : World :=
  { World.initial with
    jobs := .ofList [⟨1, "j", ⟨"a:1"⟩, .running, .cron, none⟩, ⟨2, "j", ⟨"b:1"⟩, .running, .cron, none⟩,
      ⟨3, "k", ⟨"a:1"⟩, .running, .cron, none⟩]
    cache := .ofList [⟨1, "j", ⟨"a:1"⟩, 7, none⟩, ⟨2, "j", ⟨"b:1"⟩, 0, none⟩, ⟨3, "k", ⟨"a:1"⟩, 0, none⟩] }

/-- The calls with these names are refused. -/
private def refusing (names : List String) : Chances := fun _ =>
  { weigher := .none
    refused := fun request => if names.contains request.name then some "down" else none
    wall := ⟨0, 0⟩
    draw := 0 }

/-- The mark is refused at first, then the deletion, and the third attempt succeeds. -/
theorem recording_converges_after_faults :
    ∃ after, Attempts "j" "m" doubled [.error (.store "down"), .error (.store "down"), .ok ()] after ∧
      Spared "j" doubled after ∧
      (∀ more last, Attempts "j" "m" after more last → SameButMoment "j" "m" after last) ∧
      after.jobs.find? 1 =
        some ⟨1, "j", ⟨"a:1"⟩, .submitFailed, .cron, some (failureText ⟨0, 0⟩ "j" "m")⟩ ∧
      after.jobs.find? 2 = doubled.jobs.find? 2 ∧
      after.cache.rows = [⟨3, "k", ⟨"a:1"⟩, 0, none⟩] := by
  let dropped : World := { doubled with cache := (doubled.cache.deleteJob "j").1 }
  let session (world : World) : Session := .opening (.initial default world)
  have unmarked : (recordFailure "j" "m").run.play 0 (refusing ["jobs.mark"]) (session doubled) =
      some (.error (.store "down"), _) := rfl
  have undeleted : (recordFailure "j" "m").run.play 0 (refusing ["cache.delete"]) (session dropped) =
      some (.error (.store "down"), _) := rfl
  have success : (recordFailure "j" "m").run.play 0 (refusing []) (session dropped) =
      some (.ok (), _) := rfl
  have third : Attempts "j" "m" dropped [.ok ()] _ := .next success .none
  have second : Attempts "j" "m" dropped [.error (.store "down"), .ok ()] _ := .next undeleted third
  have attempts : Attempts "j" "m" doubled [.error (.store "down"), .error (.store "down"), .ok ()] _ :=
    .next unmarked second
  obtain ⟨spared, converges⟩ := recording_converges (by decide) attempts
  refine ⟨_, attempts, spared, (converges (by simp)).2, ?_, ?_, ?_⟩
  · rfl
  · decide
  · decide

end Takeover

end Handover
