import Handover.Proofs.CacheStage
import Handover.Proofs.Closing
import Handover.Proofs.JobStage
import Handover.Proofs.Marks

/-!
Contract: what a takeover tells of the work that it leaves behind.

Owns: the exact condition under which a report says that work is left and the
budget of retries is not cleared, whichever calls are refused.

A stage looks once more at the store before it ends, and tells what it saw. A stage
that is broken off does not come to that look. It counts as one that left nothing,
so work that it left goes untold and the budget is cleared.
-/

set_option autoImplicit false

namespace Handover.Takeover

open Coordinator (TaskId State Task)

/-- A job that is unfinished after the cache stage was never marked by it. -/
theorem CacheCall.mem_of_held {world : World} {node owner : Address} {nodes : List Address}
    {rows : CacheRow → Prop} {made : List Made}
    (calls : ∀ one ∈ made, CacheCall node nodes rows one.1) {job : Job}
    (member : job ∈ (world.replay made).jobs) (held : job.HeldBy owner) : job ∈ world.jobs := by
  rw [Table.mem_def, World.replay_jobs_marked (CacheCall.no_jobs calls), List.mem_map] at member
  obtain ⟨before, inside, rfl⟩ := member
  rcases Job.markedBy_cases world.jobs made before with
    same | ⟨_, status, error, call, changed⟩
  · rw [same]
    exact inside
  · obtain ⟨_, _, _, _, _, _, _, rfl, _⟩ := CacheCall.marks calls call
    rw [changed] at held
    cases held.2

/-! ## The budget of retries -/

section Budget

variable {state settled : State} {node : Address}

theorem Settles.cleared_of_done (settles : Settles node state false settled) :
    settled.retries = state.retries.erase node ∧ settled.tasks = state.tasks := by
  cases settles
  exact ⟨rfl, rfl⟩

theorem Settles.kept_on_standby (settles : Settles node state true settled)
    (standby : state.group = none) : settled.retries = state.retries := by
  cases settles
  rw [State.scheduleRetry_of_standby standby]

/-- While the coordinator is active the count grows, and a retry is scheduled within
the budget. -/
theorem Settles.counted_while_active (settles : Settles node state true settled)
    {group : Coordinator.Group} (active : state.group = some group) :
    settled.retriesOf node = state.retriesOf node + 1 ∧
      (state.retriesOf node < state.settings.retryLimit →
        ∃ due, Task.fresh (.retry group.activation node due) [] ∈ settled.tasks) := by
  have counted : ∀ count,
      (((state.retries.insert (node, count)).find? node).map Prod.snd).getD 0 = count := by
    intro count
    rw [Table.find?_insert, if_pos (by rfl)]
    rfl
  cases settles with
  | counted draw =>
      by_cases exceeded : state.retriesOf node + 1 > state.settings.retryLimit
      · rw [State.scheduleRetry_of_exceeded active exceeded]
        exact ⟨counted _, fun within => absurd exceeded (Nat.not_lt.2 within)⟩
      · rw [State.scheduleRetry_of_within active exceeded]
        exact ⟨counted _, fun _ => ⟨_, List.mem_append_right _ List.mem_cons_self⟩⟩

end Budget

/-! ## The report -/

/-- What is told of the work that is left, and what becomes of the budget. The job
stage ends in `middle`. -/
structure LeftoverTold (before middle after : Session) (node : Address) (report : Report)
    (jobCalls cacheCalls : List Made) : Prop where
  /-- Work that is left is told, unless the stage that left it was broken off. -/
  told : report.leftover = true ↔
    ((∃ job ∈ middle.world.jobs, job.HeldBy node) ∧ ¬ Broke jobCalls) ∨
      ((∃ row ∈ after.world.cache, row.owner = node) ∧ ¬ Broke cacheCalls)
  /-- A job that is left in the end was left by the job stage. -/
  jobsLeft : ∀ job ∈ after.world.jobs, job.HeldBy node → job ∈ middle.world.jobs
  cleared : report.leftover = false →
    after.state.retries = before.state.retries.erase node ∧ after.state.tasks = before.state.tasks
  kept : report.leftover = true → before.state.group = none →
    after.state.retries = before.state.retries
  counted : report.leftover = true → ∀ group, before.state.group = some group →
    after.state.retriesOf node = before.state.retriesOf node + 1 ∧
      (before.state.retriesOf node < before.state.settings.retryLimit →
        ∃ due, Task.fresh (.retry group.activation node due) [] ∈ after.state.tasks)

theorem JobStage.told {world : World} {node : Address} {tally : Tally} {made : List Made}
    (stage : JobStage world node tally made) : tally.skippedAlive = false ∧
      (tally.leftover = true ↔
        (∃ job ∈ (world.replay made).jobs, job.HeldBy node) ∧ ¬ Broke made) := by
  cases stage with
  | broke broke _ => exact ⟨rfl, by simp [broke]⟩
  | settled unbroken _ settled => exact ⟨settled.notSkipped, by simp [unbroken, settled.looked]⟩

theorem CacheStage.told {world : World} {node : Address} {tally : Tally} {made : List Made}
    (stage : CacheStage world node tally made) : tally.skippedAlive = false ∧
      (tally.leftover = true ↔
        (∃ row ∈ (world.replay made).cache, row.owner = node) ∧ ¬ Broke made) := by
  cases stage with
  | broke broke _ => exact ⟨rfl, by simp [broke]⟩
  | settled unbroken settled => exact ⟨settled.notSkipped, by simp [unbroken, settled.looked]⟩

/-- A last round that follows both stages tells what they left. -/
theorem LeftoverTold.of_stages {id : TaskId} {chances : Chances} {settings : Settings}
    {node : Address} {session middle last after : Session} {jobs cache : Tally}
    {jobCalls cacheCalls : List Made} {report : Report}
    (jobStage : JobStage session.world node jobs jobCalls)
    (jobsContinue : Continues chances session middle jobCalls)
    (cacheStage : CacheStage middle.world node cache cacheCalls)
    (cacheContinues : Continues chances middle last cacheCalls)
    (closing : (close settings node jobs cache).play id chances last =
      some (.finished report, after)) :
    LeftoverTold session middle after node report jobCalls cacheCalls := by
  obtain ⟨jobsNotSkipped, jobsTold⟩ := jobStage.told
  obtain ⟨cacheNotSkipped, cacheTold⟩ := cacheStage.told
  obtain ⟨_, _, settled, played, left, settles, retries, tasks⟩ :=
    close_play id chances settings node
      jobsNotSkipped cacheNotSkipped (close_still jobsNotSkipped cacheNotSkipped closing)
  cases closing.symm.trans played
  obtain ⟨_, broadcastCalls, _, replayed, called⟩ := close_keeps closing
  obtain ⟨sameJobs, sameRows⟩ := broadcasts_keeps called last.world
  have continues := jobsContinue.trans cacheContinues
  rw [← left] at settles
  constructor
  case told =>
    rw [left, Bool.or_eq_true, jobsTold, cacheTold, ← jobsContinue.world, ← cacheContinues.world,
      replayed, sameRows]
  case jobsLeft =>
    intro job member held
    rw [replayed, sameJobs, cacheContinues.world] at member
    exact CacheCall.mem_of_held cacheStage.calls member held
  case cleared =>
    intro nothing
    rw [nothing] at settles
    rw [retries, tasks, settles.cleared_of_done.1, settles.cleared_of_done.2, continues.retries,
      continues.tasks]
    exact ⟨rfl, rfl⟩
  case kept =>
    intro something standby
    rw [something] at settles
    rw [retries, settles.kept_on_standby (continues.group.trans standby), continues.retries]
  case counted =>
    intro something group active
    rw [something] at settles
    have sameCount : last.state.retriesOf node = session.state.retriesOf node := by
      rw [State.retriesOf, continues.retries]
      rfl
    have afterCount : after.state.retriesOf node = settled.retriesOf node := by
      rw [State.retriesOf, retries]
      rfl
    have counted := settles.counted_while_active (continues.group.trans active)
    rwa [sameCount, continues.settings, ← afterCount, ← tasks] at counted

/-- Both stages come to their end whichever calls are refused. The takeover is finished
after them unless someone changes the mode, and then it tells of work left behind, except
for work that was left by a stage that was broken off. It clears the budget of retries just
when it tells of none. -/
theorem leftover_told (id : TaskId) (chances : Chances) (settings : Settings) (node : Address)
    (session : Session) (dead : session.world.members.isAlive node = false)
    (positive : 0 < settings.pageSize)
    (jobsInRange : ∀ job ∈ session.world.jobs, job.id.Resumable)
    (rowsInRange : ∀ row ∈ session.world.cache, row.id.Resumable) :
    ∃ jobs jobCalls middle cache cacheCalls last,
      Reaches id chances settings node .opening session (.opened jobs) middle ∧
      middle.calls = session.calls ++ jobCalls ∧
      Reaches id chances settings node (.opened jobs) middle (.closing jobs cache) last ∧
      last.calls = middle.calls ++ cacheCalls ∧
      (session.state.changing = none → ∃ report after,
        Reaches id chances settings node (.closing jobs cache) last (.finished report) after) ∧
      ∀ report after,
        Reaches id chances settings node (.closing jobs cache) last (.finished report) after →
          LeftoverTold session middle after node report jobCalls cacheCalls := by
  obtain ⟨_, jobCalls, middle, toMiddle, jobsContinue, jobs, rfl, jobStage⟩ :=
    jobStage_arrives id chances settings dead positive jobsInRange
  have sameCache : middle.world.cache = session.world.cache := by
    rw [jobsContinue.world, JobCall.replay_cache jobStage.calls]
  have deadStill : middle.world.members.isAlive node = false := by
    rw [jobsContinue.world]
    exact (JobCall.replay_members jobStage.calls dead).1
  obtain ⟨_, cacheCalls, last, toLast, cacheContinues, cache, rfl, cacheStage⟩ :=
    cacheStage_arrives id chances settings jobs deadStill positive
      (sameCache ▸ rowsInRange)
  refine ⟨jobs, jobCalls, middle, cache, cacheCalls, last, toMiddle, jobsContinue.calls, toLast,
    cacheContinues.calls, fun still => ?finishes, fun report after reaches => ?tells⟩
  case finishes =>
    obtain ⟨report, after, _, closing, _⟩ := close_play id chances settings node
      jobStage.told.1 cacheStage.told.1
      (fun _ => (jobsContinue.trans cacheContinues).changing.trans still)
    exact ⟨report, after, .of_play closing⟩
  case tells =>
    exact .of_stages jobStage jobsContinue cacheStage cacheContinues reaches.of_closing

/-- An active coordinator that has retried a dead node twice, and the node's one job. -/
private def stranded : State :=
  { State.initial default
      { World.initial with jobs := .ofList [⟨1, "j", ⟨"a:1"⟩, .running, .cron, none⟩] } with
    retries := .ofList [(⟨"a:1"⟩, 2)]
    group := some ⟨0, 0, 1⟩ }

private theorem stranded_inRange : ∀ job ∈ stranded.world.jobs, job.id.Resumable := by
  intro job member
  rw [List.mem_singleton.1 member]
  decide

/-- Nobody takes the job over; that is told, and the node is tried a third time. -/
theorem leftover_told_of_stranded :
    ∃ jobs jobCalls middle cache cacheCalls last report after,
      Reaches 0 .calm default ⟨"a:1"⟩ .opening (.opening stranded) (.opened jobs) middle ∧
      middle.calls = [] ++ jobCalls ∧
      Reaches 0 .calm default ⟨"a:1"⟩ (.opened jobs) middle (.closing jobs cache) last ∧
      last.calls = middle.calls ++ cacheCalls ∧
      Reaches 0 .calm default ⟨"a:1"⟩ (.closing jobs cache) last (.finished report) after ∧
      LeftoverTold (.opening stranded) middle after ⟨"a:1"⟩ report jobCalls cacheCalls := by
  obtain ⟨jobs, jobCalls, middle, cache, cacheCalls, last, opened, calledFirst, closed, calledThen,
      finishes, tells⟩ :=
    leftover_told 0 .calm default ⟨"a:1"⟩ (.opening stranded) (by decide) (by decide)
      stranded_inRange (fun _ member => absurd member List.not_mem_nil)
  obtain ⟨report, after, finished⟩ := finishes rfl
  exact ⟨jobs, jobCalls, middle, cache, cacheCalls, last, report, after, opened, calledFirst, closed,
    calledThen, finished, tells report after finished⟩

/-- Every question whether a node is alive is refused, and nothing else. -/
private def unanswered : Chances := fun _ =>
  { weigher := .none
    refused := fun
      | .isAlive _ => some "down"
      | _ => none
    wall := ⟨0, 0⟩
    draw := 0 }

/-- Both stages break off at their first call: the job stays, and the report says that
nothing was left and the budget is cleared. -/
theorem work_left_untold :
    ∃ report after,
      Reaches 0 unanswered default ⟨"a:1"⟩ .opening (.opening stranded) (.finished report) after ∧
      (∃ job ∈ after.world.jobs, job.HeldBy ⟨"a:1"⟩) ∧ report.leftover = false ∧
      stranded.retriesOf ⟨"a:1"⟩ = 2 ∧ after.state.retriesOf ⟨"a:1"⟩ = 0 :=
  ⟨_, _, ⟨3, rfl⟩, ⟨_, List.mem_singleton.2 rfl, by decide⟩, rfl, rfl, rfl⟩

end Handover.Takeover
