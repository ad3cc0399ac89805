import Handover.Proofs.JobStage
import Handover.Proofs.Landmarks

/-!
Contract: what the job stage of a takeover does to the jobs.

Owns: the account of a job stage in terms of the jobs before and after it, for a
stage that gets an answer to every question it asks. Moves may be refused, and so
may the weigher, on any page and in any pattern.
-/

set_option autoImplicit false

namespace Handover.Takeover

open Coordinator (TaskId)

/-- What became of the jobs of `node`, told from the jobs before and after. -/
structure JobsReclaimed (before after : World) (node : Address) (tally : Tally) : Prop where
  ids : after.jobs.rows.map Job.id = before.jobs.rows.map Job.id
  /-- A job that was not both unfinished and the node's is as it was. -/
  kept : ∀ job ∈ before.jobs, ¬ job.HeldBy node → job ∈ after.jobs
  /-- Any other is as it was but for its owner. -/
  handed : ∀ job ∈ before.jobs, job.HeldBy node → ∃ owner, { job with owner := owner } ∈ after.jobs ∧
    (owner = node ∨ before.members.isAlive owner = true ∧ owner ≠ node)
  counted : tally.reassigned = before.jobs.rows.countP fun job =>
    decide (job.HeldBy node ∧ ∃ now ∈ after.jobs.rows, now.id = job.id ∧ now.owner ≠ node)
  looked : tally.leftover = true ↔ ∃ job ∈ after.jobs, job.HeldBy node
  reset : tally.leftover = true → after.members.record? node = some .neverAlive

section Settled

variable {world : World} {node : Address} {tally : Tally} {made : List Made}

private theorem JobsSettled.moved_iff
    (calls : ∀ one ∈ made, JobCall node (world.members.others node) one.1)
    (settled : JobsSettled world node tally made) {job : Job} (inside : job ∈ world.jobs) :
    job.id ∈ movedNames (Mover.jobs.moves made) ↔
      job.HeldBy node ∧ ∃ now ∈ (world.replay made).jobs.rows, now.id = job.id ∧ now.owner ≠ node := by
  constructor
  · intro moved
    obtain ⟨other, otherIn, same, held⟩ := settled.held job.id moved
    rw [Table.eq_of_key_eq otherIn inside same] at held
    refine ⟨held, job.movedBy made,
      (World.mem_replay_jobs (JobCall.unmarked calls)).2 ⟨job, inside, rfl⟩, rfl, ?_⟩
    cases moves : newOwner (Mover.jobs.moves made) job.id with
    | none => exact absurd moved (newOwner_eq_none_iff.1 moves)
    | some dest =>
        simpa [Job.movedBy, moves] using (Membership.mem_others.1 (JobCall.newOwner_among calls moves)).2
  · rintro ⟨held, now, nowIn, same, left⟩
    by_contra notMoved
    obtain ⟨before, beforeIn, rfl⟩ := (World.mem_replay_jobs (JobCall.unmarked calls)).1 nowIn
    obtain rfl : before = job := Table.eq_of_key_eq beforeIn inside same
    rw [Job.movedBy_of_not_moved notMoved] at left
    exact left held.1

theorem JobsSettled.reclaimed
    (calls : ∀ one ∈ made, JobCall node (world.members.others node) one.1)
    (settled : JobsSettled world node tally made) :
    JobsReclaimed world (world.replay made) node tally := by
  have unmarked := JobCall.unmarked calls
  constructor
  case ids =>
    rw [World.replay_jobs unmarked, List.map_map]
    rfl
  case kept =>
    intro job inside notHeld
    refine (World.mem_replay_jobs unmarked).2 ⟨job, inside, Job.movedBy_of_not_moved fun moved => ?_⟩
    exact notHeld ((settled.moved_iff calls inside).1 moved).1
  case handed =>
    intro job inside held
    refine ⟨_, (World.mem_replay_jobs unmarked).2 ⟨job, inside, rfl⟩, ?_⟩
    cases moves : newOwner (Mover.jobs.moves made) job.id with
    | none => exact .inl (by simpa using held.1)
    | some dest => exact .inr (Membership.mem_others.1 (JobCall.newOwner_among calls moves))
  case counted =>
    rw [settled.counted, ← countP_contains_eq_length Job.id
      world.jobs.nodup_rows settled.distinct]
    · refine List.countP_congr fun job inside => ?_
      simpa using settled.moved_iff calls inside
    · intro wanted member
      obtain ⟨job, inside, same, _⟩ := settled.held wanted member
      exact ⟨job, inside, same, fun other otherIn sameOther =>
        Table.eq_of_key_eq otherIn inside (sameOther.trans same.symm)⟩
  case looked => exact settled.looked
  case reset => exact settled.reset

/-- Where there is someone to go to and no move is refused, no job stays. -/
theorem JobsSettled.none_held
    (calls : ∀ one ∈ made, JobCall node (world.members.others node) one.1)
    (settled : JobsSettled world node tally made) (someone : world.members.others node ≠ [])
    (accepted : Mover.jobs.Accepted made) : ∀ job ∈ (world.replay made).jobs, ¬ job.HeldBy node := by
  intro job inside held
  obtain ⟨before, beforeIn, rfl⟩ := (World.mem_replay_jobs (JobCall.unmarked calls)).1 inside
  have notMoved : before.id ∉ movedNames (Mover.jobs.moves made) := by
    intro moved
    obtain ⟨_, now, nowIn, same, left⟩ := (settled.moved_iff calls beforeIn).1 moved
    have sameNow := Table.eq_of_key_eq nowIn inside same
    exact left (sameNow ▸ held.1)
  rw [Job.movedBy_of_not_moved notMoved] at held
  exact notMoved (settled.all someone accepted before beforeIn held)

end Settled

/-- The job stage conserves the jobs and accounts for them, whichever moves are
refused; and where none is refused and there is someone to go to, no job stays. -/
theorem jobs_reclaimed (id : TaskId) (chances : Chances) (settings : Settings) (node : Address)
    (session : Session) (dead : session.world.members.isAlive node = false)
    (positive : 0 < settings.pageSize) (inRange : ∀ job ∈ session.world.jobs, job.id.Resumable)
    (answered : Answered chances) :
    ∃ tally after, Reaches id chances settings node .opening session (.opened tally) after ∧
      JobsReclaimed session.world after.world node tally ∧
      ((∃ other, session.world.members.isAlive other = true ∧ other ≠ node) →
        (∀ turn dest ids, (chances turn).refused (.reassignJobs dest ids) = none) →
          ∀ job ∈ after.world.jobs, ¬ job.HeldBy node) := by
  obtain ⟨_, made, after, reaches, continues, tally, rfl, stage⟩ :=
    jobStage_arrives id chances settings dead positive inRange
  refine ⟨tally, after, reaches, ?_⟩
  cases stage with
  | broke broke _ => exact absurd broke (answered.not_broke continues)
  | settled unbroken calls settled =>
      rw [continues.world]
      refine ⟨settled.reclaimed calls, ?_⟩
      rintro ⟨other, alive, apart⟩ unrefused
      have someone : session.world.members.others node ≠ [] :=
        List.ne_nil_of_mem (Membership.mem_others.2 ⟨alive, apart⟩)
      exact settled.none_held calls someone fun dest ids text =>
        continues.accepted (fun turn => unrefused turn dest ids) text

/-- Jobs of a dead node, of both kinds, with one of them finished; a job of another node; and two
nodes that are alive. -/
private def manyJobs : World :=
  { World.initial with
    members := .ofList [(⟨"b:1"⟩, .heardAt ⟨0, 0⟩ 1), (⟨"c:1"⟩, .heardAt ⟨0, 0⟩ 1)]
    jobs := .ofList [⟨1, "i", ⟨"a:1"⟩, .running, .cron, none⟩, ⟨2, "j", ⟨"a:1"⟩, .waiting, .cron, none⟩,
      ⟨3, "k", ⟨"b:1"⟩, .running, .cron, none⟩, ⟨4, "l", ⟨"a:1"⟩, .running, .backfill, none⟩,
      ⟨5, "m", ⟨"a:1"⟩, .finished, .cron, none⟩, ⟨6, "n", ⟨"a:1"⟩, .running, .cron, none⟩,
      ⟨7, "o", ⟨"a:1"⟩, .submitting, .backfill, none⟩, ⟨8, "p", ⟨"a:1"⟩, .running, .cron, none⟩] }

private def pagesOfThree : Settings := { (default : Settings) with pageSize := 3 }

private def moveRefused : Chances := fun _ =>
  ⟨.none, fun request => if request = .reassignJobs ⟨"c:1"⟩ [2] then some "busy" else none, ⟨0, 0⟩, 0⟩

/-- On two pages of jobs a move is refused, and its job alone stays. Where none is, no job stays. -/
theorem jobs_reclaimed_from_pages :
    (∃ after, Reaches 0 moveRefused pagesOfThree ⟨"a:1"⟩ .opening
        (.opening (.initial pagesOfThree manyJobs)) (.opened { reassigned := 5, leftover := true }) after ∧
      JobsReclaimed manyJobs after.world ⟨"a:1"⟩ { reassigned := 5, leftover := true } ∧
      after.world.jobs.rows.map Job.owner =
        [⟨"b:1"⟩, ⟨"a:1"⟩, ⟨"b:1"⟩, ⟨"b:1"⟩, ⟨"a:1"⟩, ⟨"b:1"⟩, ⟨"b:1"⟩, ⟨"c:1"⟩]) ∧
    ∃ after, Reaches 0 .calm pagesOfThree ⟨"a:1"⟩ .opening
        (.opening (.initial pagesOfThree manyJobs)) (.opened { reassigned := 6 }) after ∧
      ∀ job ∈ after.world.jobs, ¬ job.HeldBy ⟨"a:1"⟩ := by
  have inRange : ∀ job ∈ manyJobs.jobs.rows, job.id.Resumable := by decide
  have answered : Answered moveRefused := by
    intro turn request decided
    refine if_neg ?_
    rintro rfl
    cases decided
  constructor
  · obtain ⟨after, reaches, owners⟩ : ∃ after, Reaches 0 moveRefused pagesOfThree ⟨"a:1"⟩ .opening
          (.opening (.initial pagesOfThree manyJobs)) (.opened { reassigned := 5, leftover := true }) after ∧
        after.world.jobs.rows.map Job.owner =
          [⟨"b:1"⟩, ⟨"a:1"⟩, ⟨"b:1"⟩, ⟨"b:1"⟩, ⟨"a:1"⟩, ⟨"b:1"⟩, ⟨"b:1"⟩, ⟨"c:1"⟩] :=
      ⟨_, ⟨4, rfl⟩, rfl⟩
    obtain ⟨tally, final, reachesFinal, reclaimed, _⟩ :=
      jobs_reclaimed 0 moveRefused pagesOfThree ⟨"a:1"⟩ (.opening (.initial pagesOfThree manyJobs))
        (by decide) (by decide) inRange answered
    obtain ⟨rfl, rfl⟩ := reaches.opened_unique reachesFinal
    exact ⟨final, reaches, reclaimed, owners⟩
  · obtain ⟨after, reaches⟩ : ∃ after, Reaches 0 .calm pagesOfThree ⟨"a:1"⟩ .opening
        (.opening (.initial pagesOfThree manyJobs)) (.opened { reassigned := 6 }) after := ⟨_, ⟨4, rfl⟩⟩
    obtain ⟨tally, final, reachesFinal, _, nothingStays⟩ :=
      jobs_reclaimed 0 .calm pagesOfThree ⟨"a:1"⟩ (.opening (.initial pagesOfThree manyJobs))
        (by decide) (by decide) inRange fun _ _ _ => rfl
    obtain ⟨rfl, rfl⟩ := reaches.opened_unique reachesFinal
    exact ⟨final, reaches, nothingStays ⟨⟨"b:1"⟩, by decide, by decide⟩ fun _ _ _ => rfl⟩

end Handover.Takeover
