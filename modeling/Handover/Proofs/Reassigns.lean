import Handover.Proofs.Grounds
import Handover.Proofs.Marks
import Handover.Proofs.Pages
import Handover.Proofs.Writes

/-!
Contract: whose jobs a takeover moves.

Owns: what the events of a run write to a job, other than moves; that a takeover moves only
jobs that its node held when their page was listed, each once; and the exact condition under
which a move takes a job that the node does not hold: somebody else wrote that job after its
page was listed.
-/

set_option autoImplicit false

namespace Handover

/-! ## Job rows -/

namespace Jobs

variable {jobs : Jobs} {row : RowId} {job : Job}

theorem id_of_find? (found : jobs.find? row = some job) : job.id = row :=
  (Table.find?_eq_some_iff.1 found).2

theorem find?_reassign (dest : Address) (ids : List RowId) : (jobs.reassign dest ids).1.find? row =
    (jobs.find? row).map fun job => if ids.contains row then { job with owner := dest } else job := by
  rw [reassign, Table.find?_update]
  cases found : jobs.find? row with
  | none => rfl
  | some job =>
      obtain rfl := id_of_find? found
      rfl

/-- A mark writes the first job with the job id. -/
theorem find?_mark (jobId : String) (status : JobStatus) (error : String) :
    (jobs.mark jobId status error).find? row = ((jobs.findJob? jobId).bind fun job =>
      if job.id = row then some { job with status := status, error := some error } else none).or
        (jobs.find? row) := by
  rw [mark, Table.find?_update]
  cases found : jobs.find? row with
  | none =>
      have absent := Table.find?_eq_none_iff.1 found
      cases first : jobs.findJob? jobId with
      | none => rfl
      | some other =>
          have apart : other.id ≠ row := absent other (Jobs.findJob?_jobId first).1
          simp [apart]
  | some job =>
      obtain ⟨inside, -⟩ := Table.find?_eq_some_iff.1 found
      obtain rfl := id_of_find? found
      simp only [Option.map_some, Jobs.map_findJob?_eq_some_iff inside]
      cases first : jobs.findJob? jobId with
      | none => rfl
      | some other =>
          have same : other.id = job.id ↔ other = job :=
            ⟨Table.eq_of_key_eq (Jobs.findJob?_jobId first).1 inside, congrArg Job.id⟩
          by_cases self : other = job
          · simp [self]
          · simp [same, self]

end Jobs

namespace Coordinator

open Takeover (Handing movedBy)

namespace State

/-! ## What is written to a job -/

/-- The job that an event writes with the row id, other than by a move. -/
def rewrites (row : RowId) (state : State) : Event → Option Job
  | .answer id _ none =>
      match state.request? id with
      | some (.markJob jobId status error) => (state.world.jobs.findJob? jobId).bind fun job =>
          if job.id = row then some { job with status := status, error := some error } else none
      | _ => none
  | .write (.job job) _ => if job.id = row then some job else none
  | _ => none

/-- The event moves the job with the row id. -/
def Moves (row : RowId) (state : State) (event : Event) : Prop :=
  ∃ id shares dest ids, event = .answer id shares none ∧ state.request? id = some (.reassignJobs dest ids) ∧ row ∈ ids

variable {start state next : State} {event : Event} {events : List Event} {row : RowId}

/-- An event that does not move a job leaves it as it writes it, or as it was. -/
theorem step_job? (stays : ¬ state.Moves row event) (stepped : state.step event = some next) :
    next.world.jobs.find? row = (state.rewrites row event).or (state.world.jobs.find? row) := by
  rw [step_world stepped]
  cases event with
  | write entry wall =>
      cases entry
      case job job =>
        rw [rewrites]
        refine (Table.find?_insert job state.world.jobs row).trans ?_
        change (if job.id = row then _ else _) = _
        split <;> rfl
      all_goals rfl
  | answer id shares refused =>
      rw [worldNext]
      cases calls : state.request? id with
      | none => cases refused <;> simp [rewrites, calls]
      | some request =>
          cases refused with
          | some detail => cases request <;> rfl
          | none =>
              cases request
              case markJob jobId status error =>
                rw [rewrites, calls]
                exact Jobs.find?_mark jobId status error
              case reassignJobs dest ids =>
                have apart : row ∉ ids := fun member => stays ⟨id, shares, dest, ids, rfl, calls, member⟩
                have same : (state.world.jobs.reassign dest ids).1.find? row = _ :=
                  Jobs.find?_reassign dest ids
                simp only [List.contains_iff_mem, apart, if_false, Option.map_id'] at same
                rw [rewrites, calls]
                exact same
              all_goals
                rw [rewrites, calls]
                rfl
  | effect id wall draw =>
      rw [worldNext]
      cases own : state.deed? (.effect id wall draw) with
      | none => rfl
      | some deed =>
          obtain ⟨_, deed⟩ := deed
          cases deed <;> rfl
  | _ => rfl

/-- A job that no event of a run moves is as it was written last, or as it was. -/
theorem run_job? (stays : start.Along (fun state event => ¬ state.Moves row event) events)
    (run : start.run events = some state) : state.world.jobs.find? row =
      (start.latest (rewrites row) events).or (start.world.jobs.find? row) := by
  have law : ∀ state event next, ¬ State.Moves row state event → state.step event = some next →
      next.world.jobs.find? row = (state.rewrites row event).or (state.world.jobs.find? row) :=
    fun _ _ _ stays stepped => step_job? stays stepped
  exact run_latest law stays run

/-! ## Moves -/

/-- Carried out now, the move changes the owner of a job that the node does not hold. No shares
matter for it. -/
def Misdirects (state : State) (node dest : Address) (ids : List RowId) : Prop :=
  ∃ row job moved, state.world.jobs.find? row = some job ∧
    (state.world.reply (.answering none) (.reassignJobs dest ids) none).2.jobs.find? row = some moved ∧
    moved.owner ≠ job.owner ∧ ¬ job.HeldBy node

theorem misdirects_iff {node dest : Address} {ids : List RowId} : state.Misdirects node dest ids ↔
    ∃ row ∈ ids, ∃ job, state.world.jobs.find? row = some job ∧ job.owner ≠ dest ∧ ¬ job.HeldBy node := by
  have moves : ∀ row, (state.world.reply (.answering none) (.reassignJobs dest ids) none).2.jobs.find? row =
      (state.world.jobs.find? row).map fun job => if row ∈ ids then { job with owner := dest } else job := by
    intro row
    have moved : (state.world.jobs.reassign dest ids).1.find? row = _ := Jobs.find?_reassign dest ids
    simp only [List.contains_iff_mem] at moved
    exact moved
  constructor
  · rintro ⟨row, job, moved, found, same, changed, notHeld⟩
    rw [moves, found, Option.map_some] at same
    obtain rfl := Option.some.inj same
    by_cases member : row ∈ ids
    · rw [if_pos member] at changed
      exact ⟨row, member, job, found, changed.symm, notHeld⟩
    · rw [if_neg member] at changed
      exact absurd rfl changed
  · rintro ⟨row, member, job, found, foreign, notHeld⟩
    refine ⟨row, job, { job with owner := dest }, found, ?_, foreign.symm, notHeld⟩
    rw [moves, found, Option.map_some, if_pos member]

end State

/-- Jobs of the node that the task with the number is about to move, and the page on which they
were listed: that call was answered just before `between`. -/
structure BatchOf (start : State) (events : List Event) (id : TaskId) (duty : Duty) (pageSize : Nat)
    (node : Address) (ids : List RowId) (listed : State) (between : List Event) : Prop where
  takesOver : duty.node? = some node
  split : ∃ before shares middle after, events = before ++ .answer id shares none :: between ∧
    start.run before = some middle ∧ middle.request? id = some (.pageJobs after node pageSize) ∧
    middle.step (.answer id shares none) = some listed ∧
    ids.Subperm ((middle.world.jobs.page after JobStatus.unfinished node pageSize).map Job.id)
  sameTakeover : listed.Along (fun state _ => state.IsAt id node) between
  /-- Since then the takeover made only the calls by which it moves the jobs of the page. -/
  samePage : ∀ one ∈ listed.heard id between, Handing one.request
  nodup : ids.Nodup
  /-- The node held the jobs when they were listed. -/
  held : ∀ row ∈ ids, ∃ job, listed.world.jobs.find? row = some job ∧ job.HeldBy node

namespace State

variable {settings : Settings} {world : World} {before between events : List Event}
  {listed state : State} {id : TaskId} {task : Task} {node dest : Address} {row : RowId}

/-- Nobody but the takeover in progress moves jobs. -/
theorem mover_of_moves (sound : state.Sound fun _ => True) (held : state.Held) (isAt : state.IsAt id node)
    {other : TaskId} {ids : List RowId} (calls : state.request? other = some (.reassignJobs dest ids)) :
    other = id := by
  obtain ⟨mover, found, calls⟩ := request?_eq_some_iff.1 calls
  obtain ⟨its, takesOver⟩ := Option.isSome_iff_exists.1 ((sound.tasks found).mayCall calls)
  obtain ⟨rest, work⟩ := Task.work_of_call? calls
  have there : state.IsAt other its := isAt_iff.2 ⟨mover, found, (Task.at?_of_work work).trans takesOver⟩
  exact Option.some.inj ((there.holder sound held).symm.trans (isAt.holder sound held))

/-- A job that the takeover has not moved since a page was not moved at all. -/
theorem along_not_moves (ran : (initial settings world).run before = some listed)
    (run : listed.run between = some state)
    (stays : listed.Along (fun state _ => state.IsAt id node) between)
    (own : row ∉ (listed.heard id between).flatMap movedBy) :
    listed.Along (fun state event => ¬ state.Moves row event) between := by
  refine along_of_split ?_
  rintro first event last middle rfl ranFirst ⟨other, shares, dest, ids, rfl, calls, member⟩
  obtain ⟨soundFirst, heldFirst⟩ := initial_held settings world
  obtain ⟨sound, held⟩ := run_held soundFirst heldFirst ran
  obtain ⟨sound, held⟩ := run_held sound held ranFirst
  have isAt : middle.IsAt id node := ((along_append.1 stays).2 middle ranFirst).1
  obtain rfl := mover_of_moves sound held isAt calls
  refine own (List.mem_flatMap.2 ⟨⟨.reassignJobs dest ids,
    (middle.world.reply (.answering shares) (.reassignJobs dest ids) none).1⟩, ?_, member⟩)
  rw [heard_append ranFirst, heard, hears, if_pos rfl, calls]
  simp

/-- Every move that a takeover is about to make goes back to the page that it listed last, on
which the node held all of these jobs. It changes the owner of a job that the node does not
hold just if somebody else wrote such a job since then. -/
theorem reassign_grounded (run : (initial settings world).run events = some state)
    (found : state.task? id = some task) {ids : List RowId} {started : Bool}
    (moves : task.call? = some (.reassignJobs dest ids, started)) : ∃ node listed between,
      BatchOf (initial settings world) events id task.duty settings.pageSize node ids listed
        between ∧
      (state.Misdirects node dest ids ↔ ∃ row ∈ ids, ∃ job,
        listed.latest (rewrites row) between = some job ∧ job.owner ≠ dest ∧ ¬ job.HeldBy node) := by
  obtain ⟨-, sound⟩ := run_sound (along_of_forall fun _ _ => heeds_any) run
  obtain ⟨node, takesOver⟩ := Option.isSome_iff_exists.1 ((sound.tasks found).mayCall moves)
  obtain ⟨begun, during, since, page, moved, ⟨after, newer, older, heard, handing, rfl⟩, room⟩ :=
    run_grounds run found takesOver moves
  obtain ⟨before, shares, refused, between, middle, listed, rfl, ran, stepped, ranBetween, calls, replied,
    rfl, stays⟩ := since.of_heard run heard
  obtain ⟨rfl, rfl⟩ : refused = none ∧
      page = middle.world.jobs.page after JobStatus.unfinished node settings.pageSize := by
    cases refused with
    | none => exact ⟨rfl, Except.ok.inj replied⟩
    | some detail => cases replied
  have same : listed.world.jobs = middle.world.jobs := by
    rw [step_world stepped, worldNext, calls]
    rfl
  have ranListed : (initial settings world).run (before ++ [.answer id shares none]) = some listed := by
    rw [run_snoc, ran]
    exact stepped
  have distinct : (ids ++ (listed.heard id between).flatMap movedBy).Nodup := by
    obtain ⟨part, perm, sublist⟩ := room
    exact perm.nodup_iff.1 ((Jobs.nodup_page_ids _).sublist sublist)
  have batch : ids.Subperm ((middle.world.jobs.page after JobStatus.unfinished node
      settings.pageSize).map Job.id) := (List.sublist_append_left ids _).subperm.trans room
  have held : ∀ row ∈ ids, ∃ job, listed.world.jobs.find? row = some job ∧ job.HeldBy node := by
    intro row member
    obtain ⟨job, onPage, rfl⟩ := List.mem_map.1 (batch.subset member)
    obtain ⟨inside, -, isHeld⟩ := Jobs.mem_page onPage
    exact ⟨job, same ▸ Table.find?_eq_some_iff.2 ⟨inside, rfl⟩, isHeld⟩
  -- What the takeover moved since the page is not to be moved now, so these jobs were not moved.
  have now : ∀ row ∈ ids, state.world.jobs.find? row =
      (listed.latest (rewrites row) between).or (listed.world.jobs.find? row) := by
    intro row member
    refine run_job? (along_not_moves ranListed ranBetween stays fun moved => ?_) ranBetween
    exact (List.disjoint_of_nodup_append distinct) member moved
  refine ⟨node, listed, between, ⟨takesOver, ⟨before, shares, middle, after, rfl, ran, calls, stepped, batch⟩,
    stays, handing, (List.nodup_append.1 distinct).1, held⟩, misdirects_iff.trans ?_⟩
  refine exists_congr fun row => and_congr_right fun member => ?_
  obtain ⟨job, before, isHeld⟩ := held row member
  rw [now row member, before]
  cases listed.latest (rewrites row) between with
  | none => simp [isHeld]
  | some written => simp

/-- A node that is alive, and a job of another that is not. -/
private def orphaned : World :=
  { World.initial with
    members := .ofList [(⟨"b"⟩, .heardAt ⟨1, 0⟩ 1)]
    jobs := .ofList [⟨1, "j", ⟨"a"⟩, .running, .cron, none⟩] }

/-- A takeover of the other up to where it asks for weights. -/
private def weighing : List Event :=
  [.arrive [.takeOver ⟨"a"⟩], .proceed 0, .start 0, .answer 0 none none, .proceed 0, .start 0, .answer 0 none none,
    .start 0, .answer 0 none none, .start 0]

theorem reassign_grounded_of_orphaned : ∃ state task node listed between,
    (initial default orphaned).run (weighing ++ [.answer 0 none none, .start 0]) = some state ∧
      state.task? 0 = some task ∧ task.call? = some (.reassignJobs ⟨"b"⟩ [1], true) ∧
      BatchOf (initial default orphaned) (weighing ++ [.answer 0 none none, .start 0]) 0 task.duty
        (default : Settings).pageSize node [1] listed between ∧
      (state.Misdirects node ⟨"b"⟩ [1] ↔ ∃ row ∈ [1], ∃ job,
        listed.latest (rewrites row) between = some job ∧ job.owner ≠ ⟨"b"⟩ ∧ ¬ job.HeldBy node) := by
  obtain ⟨state, task, run, found, moves⟩ : ∃ state task,
      (initial default orphaned).run (weighing ++ [.answer 0 none none, .start 0]) = some state ∧
        state.task? 0 = some task ∧ task.call? = some (.reassignJobs ⟨"b"⟩ [1], true) :=
    ⟨_, _, rfl, rfl, rfl⟩
  obtain ⟨node, listed, between, batch, misdirects⟩ := reassign_grounded run found moves
  exact ⟨state, task, node, listed, between, run, found, moves, batch, misdirects⟩

/-- While the weights are asked for, the job gets another owner, which is alive too. The move
takes it from there. -/
theorem job_of_other_moved : ∃ state task next,
    (initial default orphaned).run (weighing ++
      [.write (.job ⟨1, "j", ⟨"c"⟩, .running, .cron, none⟩) ⟨5, 0⟩, .answer 0 none none, .start 0]) =
        some state ∧
      state.task? 0 = some task ∧ task.duty = .takeOver ⟨"a"⟩ ∧
      task.call? = some (.reassignJobs ⟨"b"⟩ [1], true) ∧
      state.world.jobs.find? 1 = some ⟨1, "j", ⟨"c"⟩, .running, .cron, none⟩ ∧
      state.step (.answer 0 none none) = some next ∧
      next.world.jobs.find? 1 = some ⟨1, "j", ⟨"b"⟩, .running, .cron, none⟩ :=
  ⟨_, _, _, rfl, rfl, rfl, rfl, rfl, rfl, rfl⟩

end State

end Coordinator

end Handover
