import Handover.Proofs.Counts
import Mathlib.Data.List.Induction

/-!
Contract: what becomes of the jobs under calls that mark them.

Owns: the last mark of a job id among calls, and the jobs after calls that move
none of them.

A mark goes to the first row with its job id. No call changes an id or the order
of the rows, so the first row is the same one before and after.
-/

set_option autoImplicit false

namespace Handover

/-- The status and the text of the last mark with a job id. -/
def lastMark (made : List Made) (jobId : String) : Option (JobStatus × String) :=
  made.foldr (fun one later => later.or (match one with
    | (.markJob marked status error, none) => if marked = jobId then some (status, error) else none
    | _ => none)) none

theorem lastMark_append (first second : List Made) (jobId : String) :
    lastMark (first ++ second) jobId = (lastMark second jobId).or (lastMark first jobId) := by
  induction first with
  | nil => simp [lastMark]
  | cons one rest inductionHypothesis =>
      unfold lastMark at inductionHypothesis ⊢
      rw [List.cons_append, List.foldr_cons, List.foldr_cons, inductionHypothesis, Option.or_assoc]

theorem mem_of_lastMark {made : List Made} {jobId : String} {status : JobStatus} {error : String}
    (marked : lastMark made jobId = some (status, error)) :
    (.markJob jobId status error, none) ∈ made := by
  induction made with
  | nil => cases marked
  | cons one rest inductionHypothesis =>
      rcases Option.or_eq_some_iff.1 marked with later | ⟨_, now⟩
      · exact List.mem_cons_of_mem _ (inductionHypothesis later)
      · split at now
        case h_1 =>
          split at now
          case isTrue same =>
            cases now
            exact same ▸ List.mem_cons_self
          case isFalse => cases now
        case h_2 => cases now

theorem exists_lastMark {made : List Made} {jobId : String} (marked : jobId ∈ markedNames made) :
    ∃ status error, lastMark made jobId = some (status, error) := by
  induction made with
  | nil => cases marked
  | cons one rest inductionHypothesis =>
      rw [← List.singleton_append] at marked ⊢
      rw [lastMark_append]
      rw [markedNames, List.filterMap_append, List.mem_append] at marked
      rcases marked with now | later
      · cases last : lastMark rest jobId with
        | some mark => exact ⟨mark.1, mark.2, rfl⟩
        | none =>
            obtain ⟨status, error, member⟩ := mem_markedNames.1 now
            rw [← List.mem_singleton.1 member]
            exact ⟨status, error, by simp [lastMark]⟩
      · obtain ⟨status, error, last⟩ := inductionHypothesis later
        exact ⟨status, error, by rw [last]; rfl⟩

/-- A job where calls marked it. -/
def Job.markedBy (jobs : Jobs) (made : List Made) (job : Job) : Job :=
  if jobs.findJob? job.jobId = some job then
    match lastMark made job.jobId with
    | some (status, error) => { job with status := status, error := some error }
    | none => job
  else job

section MarkedBy

variable {jobs : Jobs} {made : List Made} {job : Job}

theorem Job.markedBy_id : (job.markedBy jobs made).id = job.id := by
  unfold Job.markedBy
  split
  · split <;> rfl
  · rfl

theorem Job.markedBy_owner : (job.markedBy jobs made).owner = job.owner := by
  unfold Job.markedBy
  split
  · split <;> rfl
  · rfl

theorem Job.markedBy_jobId : (job.markedBy jobs made).jobId = job.jobId := by
  unfold Job.markedBy
  split
  · split <;> rfl
  · rfl

/-- A job that calls changed was the first with its job id, and was marked. -/
theorem Job.markedBy_cases (jobs : Jobs) (made : List Made) (job : Job) :
    job.markedBy jobs made = job ∨ jobs.findJob? job.jobId = some job ∧ ∃ status error,
      (.markJob job.jobId status error, none) ∈ made ∧
        job.markedBy jobs made = { job with status := status, error := some error } := by
  unfold Job.markedBy
  split
  case isTrue first =>
    split
    case h_1 status error marked =>
      exact .inr ⟨first, status, error, mem_of_lastMark marked, rfl⟩
    case h_2 => exact .inl rfl
  case isFalse => exact .inl rfl

theorem Jobs.findJob?_jobId {jobId : String} (found : jobs.findJob? jobId = some job) :
    job ∈ jobs ∧ job.jobId = jobId :=
  ⟨List.mem_of_find?_eq_some found, by simpa using List.find?_some found⟩

/-- The first job with a marked job id takes the last mark. -/
theorem Job.markedBy_of_first {jobId : String} {status : JobStatus} {error : String}
    (first : jobs.findJob? jobId = some job) (marked : lastMark made jobId = some (status, error)) :
    job.markedBy jobs made = { job with status := status, error := some error } := by
  obtain ⟨_, rfl⟩ := Jobs.findJob?_jobId first
  rw [Job.markedBy, if_pos first, marked]

/-- The first job with a job id is found by its row id. -/
theorem Jobs.map_findJob?_eq_some_iff {jobId : String} (inside : job ∈ jobs) :
    (jobs.findJob? jobId).map Job.id = some job.id ↔ jobs.findJob? jobId = some job := by
  constructor
  · intro same
    obtain ⟨other, found, sameId⟩ := Option.map_eq_some_iff.1 same
    have otherIn := (Jobs.findJob?_jobId found).1
    rw [found, Table.eq_of_key_eq otherIn inside sameId]
  · intro found
    rw [found]
    rfl

theorem Job.markedBy_mark (jobId : String) (status : JobStatus) (error : String) :
    job.markedBy jobs (made ++ [(.markJob jobId status error, none)]) =
      if jobs.findJob? jobId = some job then { job with status := status, error := some error }
      else job.markedBy jobs made := by
  have told : ∀ wanted, lastMark [(.markJob jobId status error, none)] wanted =
      if jobId = wanted then some (status, error) else none := fun _ => rfl
  by_cases found : jobs.findJob? jobId = some job
  · obtain ⟨_, rfl⟩ := Jobs.findJob?_jobId found
    simp only [Job.markedBy, lastMark_append, told, found, if_true, Option.some_or]
  · have other : jobs.findJob? job.jobId = some job → jobId ≠ job.jobId :=
      fun isFirst same => found (same ▸ isFirst)
    simp only [Job.markedBy, lastMark_append, told, found, if_false]
    split
    case isTrue isFirst => rw [if_neg (other isFirst), Option.none_or]
    case isFalse => rfl

end MarkedBy

/-- What a further call does to jobs that calls before have marked. -/
private theorem afterMade_marked {world before : World} {made : List Made} {one : Made}
    (marked : world.jobs.rows = before.jobs.rows.map (Job.markedBy before.jobs made))
    (unmoved : Mover.jobs.moves [one] = []) :
    (world.afterMade one).jobs.rows =
      before.jobs.rows.map (Job.markedBy before.jobs (made ++ [one])) := by
  have silent : (∀ jobId, lastMark [one] jobId = none) →
      world.jobs.rows = before.jobs.rows.map (Job.markedBy before.jobs (made ++ [one])) := by
    intro nothing
    rw [marked]
    refine List.map_congr_left fun job _ => ?_
    simp [Job.markedBy, lastMark_append, nothing]
  obtain ⟨request, refused⟩ := one
  cases refused with
  | some text => exact silent fun jobId => by cases request <;> rfl
  | none =>
      cases request
      case reassignJobs dest ids => cases unmoved
      case markJob jobId status error =>
        have first : (world.jobs.findJob? jobId).map Job.id =
            (before.jobs.findJob? jobId).map Job.id := by
          unfold Jobs.findJob?
          rw [marked, List.find?_map, Option.map_map]
          simp only [Function.comp_def, Job.markedBy_jobId, Job.markedBy_id]
        change world.jobs.rows.map _ = _
        rw [first, marked, List.map_map]
        refine List.map_congr_left fun job inside => ?_
        rw [Job.markedBy_mark]
        simp only [Function.comp_apply, Job.markedBy_id, Jobs.map_findJob?_eq_some_iff inside]
        split
        case isTrue found =>
          rcases Job.markedBy_cases before.jobs made job with same | ⟨_, _, _, _, same⟩
          · rw [same]
          · rw [same]
        case isFalse => rfl
      all_goals exact silent fun _ => rfl

theorem World.replay_jobs_marked {made : List Made} (unmoved : Mover.jobs.moves made = [])
    (world : World) :
    (world.replay made).jobs.rows = world.jobs.rows.map (Job.markedBy world.jobs made) := by
  induction made using List.reverseRecOn with
  | nil =>
      refine (List.map_id' _).symm.trans (List.map_congr_left fun job _ => ?_)
      simp [Job.markedBy, lastMark]
  | append_singleton made one inductionHypothesis =>
      rw [Mover.moves_append, List.append_eq_nil_iff] at unmoved
      rw [World.replay_append]
      exact afterMade_marked (inductionHypothesis unmoved.1) unmoved.2

end Handover
