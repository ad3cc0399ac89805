import Handover.Proofs.JobsReclaimed
import Handover.Proofs.Leftover
import Handover.Proofs.RowsReclaimed

/-!
Contract: a takeover in which nothing is refused, with someone to go to.

Owns: that it comes to its end, and that nothing of the node's work is left then. Whoever
weighs may give any shares.
-/

set_option autoImplicit false

namespace Handover.Takeover

open Coordinator (TaskId)

/-- Nothing of the work of the node is there any more. -/
structure Cleared (world : World) (node : Address) : Prop where
  jobs : ∀ job ∈ world.jobs, ¬ job.HeldBy node
  rows : ∀ row ∈ world.cache, row.owner ≠ node

section Stages

variable {chances : Chances} {world : World} {node : Address} {tally : Tally} {made : List Made}
  {before after : Session}

theorem JobStage.none_held (stage : JobStage before.world node tally made)
    (continues : Continues chances before after made)
    (unrefused : ∀ turn request, (chances turn).refused request = none)
    (someone : before.world.members.others node ≠ []) :
    tally.leftover = false ∧ ∀ job ∈ after.world.jobs, ¬ job.HeldBy node := by
  rw [continues.world]
  cases stage with
  | broke broke _ =>
      have answered : Answered chances := fun turn request _ => unrefused turn request
      exact absurd broke (answered.not_broke continues)
  | settled unbroken calls settled =>
      have none := settled.none_held calls someone fun dest ids text =>
        continues.accepted (fun turn => unrefused turn _) text
      refine ⟨?_, none⟩
      rw [← Bool.not_eq_true, settled.looked]
      rintro ⟨job, inside, held⟩
      exact none job inside held

theorem CacheStage.none_owned (stage : CacheStage before.world node tally made)
    (continues : Continues chances before after made)
    (unrefused : ∀ turn request, (chances turn).refused request = none)
    (someone : before.world.members.others node ≠ []) :
    tally.leftover = false ∧ ∀ row ∈ after.world.cache, row.owner ≠ node := by
  have accepted : ∀ request text, (request, some text) ∉ made := fun request =>
    continues.accepted fun turn => unrefused turn request
  rw [continues.world]
  cases stage with
  | broke broke _ =>
      have answered : Answered chances := fun turn request _ => unrefused turn request
      exact absurd broke (answered.not_broke continues)
  | settled unbroken settled =>
      have none : ∀ row ∈ (before.world.replay made).cache, row.owner ≠ node := by
        intro row member owned
        refine settled.taken.hindered member owned ⟨⟨fun id => accepted _, fun jobId => accepted _⟩, ?_⟩
        exact fun _ => ⟨someone, fun dest jobIds => accepted _⟩
      refine ⟨?_, none⟩
      rw [← Bool.not_eq_true, settled.looked]
      rintro ⟨row, inside, owned⟩
      exact none row inside owned

end Stages

/-- Both stages come to their end, whichever calls are refused. -/
theorem reaches_closing (id : TaskId) (chances : Chances) (settings : Settings) {node : Address}
    {session : Session} (dead : session.world.members.isAlive node = false)
    (positive : 0 < settings.pageSize) (jobsInRange : ∀ job ∈ session.world.jobs, job.id.Resumable)
    (rowsInRange : ∀ row ∈ session.world.cache, row.id.Resumable) :
    ∃ jobs jobCalls middle cache cacheCalls last,
      Reaches id chances settings node .opening session (.closing jobs cache) last ∧
      Continues chances session middle jobCalls ∧ JobStage session.world node jobs jobCalls ∧
      Continues chances middle last cacheCalls ∧ CacheStage middle.world node cache cacheCalls ∧
      middle.world.members.isAlive node = false ∧
      middle.world.members.others node = session.world.members.others node := by
  obtain ⟨_, jobCalls, middle, toMiddle, jobsContinue, jobs, rfl, jobStage⟩ :=
    jobStage_arrives id chances settings dead positive jobsInRange
  have sameCache : middle.world.cache = session.world.cache := by
    rw [jobsContinue.world, JobCall.replay_cache jobStage.calls]
  obtain ⟨deadStill, sameNodes⟩ := JobCall.replay_members jobStage.calls dead
  rw [← jobsContinue.world] at deadStill sameNodes
  obtain ⟨_, cacheCalls, last, toLast, cacheContinues, cache, rfl, cacheStage⟩ :=
    cacheStage_arrives id chances settings jobs deadStill positive (sameCache ▸ rowsInRange)
  exact ⟨jobs, jobCalls, middle, cache, cacheCalls, last, toMiddle.trans toLast, jobsContinue, jobStage,
    cacheContinues, cacheStage, deadStill, sameNodes⟩

theorem Cleared.of_stages {chances : Chances} {session middle last : Session} {node : Address}
    {jobs cache : Tally} {jobCalls cacheCalls : List Made}
    (jobsContinue : Continues chances session middle jobCalls)
    (jobStage : JobStage session.world node jobs jobCalls)
    (cacheContinues : Continues chances middle last cacheCalls)
    (cacheStage : CacheStage middle.world node cache cacheCalls)
    (sameNodes : middle.world.members.others node = session.world.members.others node)
    (unrefused : ∀ turn request, (chances turn).refused request = none)
    (someone : session.world.members.others node ≠ []) : Cleared last.world node where
  jobs := by
    intro job member held
    rw [cacheContinues.world] at member
    exact (jobStage.none_held jobsContinue unrefused someone).2 job
      (CacheCall.mem_of_held cacheStage.calls member held) held
  rows := (cacheStage.none_owned cacheContinues unrefused (sameNodes ▸ someone)).2

theorem reaches_cleared (id : TaskId) (chances : Chances) (settings : Settings) (node : Address)
    (session : Session) (dead : session.world.members.isAlive node = false)
    (positive : 0 < settings.pageSize) (jobsInRange : ∀ job ∈ session.world.jobs, job.id.Resumable)
    (rowsInRange : ∀ row ∈ session.world.cache, row.id.Resumable)
    (unrefused : ∀ turn request, (chances turn).refused request = none)
    (someone : session.world.members.others node ≠ []) :
    ∃ report after, Reaches id chances settings node .opening session (.finished report) after ∧
      Cleared after.world node := by
  obtain ⟨jobs, _, middle, cache, _, last, reaches, jobsContinue, jobStage, cacheContinues, cacheStage, _,
    sameNodes⟩ := reaches_closing id chances settings dead positive jobsInRange rowsInRange
  have jobsDone := (jobStage.none_held jobsContinue unrefused someone).1
  have rowsDone := (cacheStage.none_owned cacheContinues unrefused (sameNodes ▸ someone)).1
  obtain ⟨report, after, _, closing, _⟩ := close_play id chances settings node jobStage.told.1
    cacheStage.told.1 fun left => by simp [jobsDone, rowsDone] at left
  obtain ⟨_, broadcastCalls, _, replayed, called⟩ := close_keeps closing
  obtain ⟨sameJobs, sameRows⟩ := broadcasts_keeps called last.world
  have cleared : Cleared last.world node :=
    .of_stages jobsContinue jobStage cacheContinues cacheStage sameNodes unrefused someone
  refine ⟨report, after, reaches.trans (.of_play closing), ?_, ?_⟩
  · rw [replayed, sameJobs]
    exact cleared.jobs
  · rw [replayed, sameRows]
    exact cleared.rows

end Handover.Takeover
