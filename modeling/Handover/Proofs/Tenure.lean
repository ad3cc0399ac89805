import Handover.Proofs.Reassigns

/-!
Contract: a job stays with its node while the node is not found dead.

Owns: what the coordinator may make of a job row; that no row comes or goes; that jobs are
moved only in a takeover of their owner, after a check in it that found the owner dead.

The law is about runs in which nobody else writes to the job store. What a takeover has read
may be outdated by the time it moves a job, but nobody moves jobs except the takeover itself,
and a recorded failure does not change the owner.
-/

set_option autoImplicit false

namespace Handover

open Takeover (RecordsFailure movedBy)

/-! ## Rows -/

/-- What the coordinator may make of a job: it may give it another owner and record a failure. -/
structure Job.Onward (before after : Job) : Prop where
  id : after.id = before.id
  jobId : after.jobId = before.jobId
  kind : after.kind = before.kind
  status : after.status = before.status ∧ after.error = before.error ∨
    ∃ error, after.error = some error ∧ RecordsFailure before.jobId after.status error

namespace Job.Onward

variable {first second third : Job}

theorem refl (job : Job) : job.Onward job := ⟨rfl, rfl, rfl, .inl ⟨rfl, rfl⟩⟩

theorem trans (early : first.Onward second) (late : second.Onward third) : first.Onward third where
  id := late.id.trans early.id
  jobId := late.jobId.trans early.jobId
  kind := late.kind.trans early.kind
  status := by
    rcases late.status with ⟨status, error⟩ | ⟨error, told, records⟩
    · rw [status, error]
      exact early.status
    · exact .inr ⟨error, told, early.jobId ▸ records⟩

end Job.Onward

/-- The rows of the one store go on in the other, one by one, and no row comes or goes. -/
def Jobs.Onward (before after : Jobs) : Prop := List.Forall₂ Job.Onward before.rows after.rows

namespace Jobs

variable {jobs : Jobs}

theorem Onward.refl (jobs : Jobs) : jobs.Onward jobs := List.forall₂_same.2 fun job _ => .refl job

theorem Onward.trans {first second third : Jobs} (early : first.Onward second) (late : second.Onward third) :
    first.Onward third := by
  unfold Onward at early late ⊢
  generalize first.rows = rows at early
  generalize second.rows = middle at early late
  generalize third.rows = last at late ⊢
  induction early generalizing last with
  | nil => exact late
  | cons one _ inductionHypothesis =>
      cases late with
      | cons other rest => exact .cons (one.trans other) (inductionHypothesis _ rest)

/-- A job goes on in the row with its id. -/
theorem Onward.find? {before after : Jobs} (onward : before.Onward after) {row : RowId} {job : Job}
    (found : before.find? row = some job) : ∃ later, after.find? row = some later ∧ job.Onward later := by
  obtain ⟨inside, rfl⟩ := Table.find?_eq_some_iff.1 found
  have among : ∀ {rows others : List Job}, List.Forall₂ Job.Onward rows others → job ∈ rows →
      ∃ later ∈ others, job.Onward later := by
    intro rows others each member
    induction each with
    | nil => cases member
    | cons one _ inductionHypothesis =>
        rcases List.mem_cons.1 member with rfl | member
        · exact ⟨_, List.mem_cons_self, one⟩
        · obtain ⟨later, among, goesOn⟩ := inductionHypothesis member
          exact ⟨later, List.mem_cons_of_mem _ among, goesOn⟩
  obtain ⟨later, there, goesOn⟩ := among onward inside
  exact ⟨later, Table.find?_eq_some_iff.2 ⟨there, goesOn.id⟩, goesOn⟩

theorem onward_reassign (dest : Address) (ids : List RowId) : jobs.Onward (jobs.reassign dest ids).1 := by
  refine List.forall₂_map_right_iff.2 (List.forall₂_same.2 fun job _ => ?_)
  split
  · exact ⟨rfl, rfl, rfl, .inl ⟨rfl, rfl⟩⟩
  · exact .refl job

theorem onward_mark {jobId : String} {status : JobStatus} {error : String}
    (records : RecordsFailure jobId status error) : jobs.Onward (jobs.mark jobId status error) := by
  refine List.forall₂_map_right_iff.2 (List.forall₂_same.2 fun job inside => ?_)
  split
  case isTrue first =>
    obtain ⟨_, rfl⟩ := findJob?_jobId ((map_findJob?_eq_some_iff inside).1 first)
    exact ⟨rfl, rfl, rfl, .inr ⟨error, rfl, records⟩⟩
  case isFalse => exact .refl job

end Jobs

/-! ## Takeovers -/

namespace Takeover

variable {node : Address} {heard : List Heard} {progress : Progress}

/-- Jobs are moved only after a check that found the node dead. -/
def MovesDead (node : Address) (heard : List Heard) : Call → Prop
  | .reassignJobs _ _ => ⟨.isAlive node, .ok false⟩ ∈ heard
  | _ => True

/-- A takeover lists jobs only after such a check. -/
def ListsDead (node : Address) (heard : List Heard) : Progress → Prop
  | .jobPage _ _ => ⟨.isAlive node, .ok false⟩ ∈ heard
  | _ => True

theorem round_movesDead {settings : Settings} (unfinished : ∀ report, progress ≠ .finished report)
    (lists : ListsDead node heard progress) :
    (round settings node progress).Recalls (MovesDead node) (ListsDead node) heard := by
  by_cases opens : progress = .opening
  · subst opens
    refine orElse_recalls (.attemptAsk trivial (fun _ => trivial) fun alive => ?_)
    cases alive with
    | true => exact trivial
    | false => exact List.mem_cons_self
  · have still : ∀ heard (request : Call) reply, ListsDead node heard progress → progress.Asks node request →
        ListsDead node (⟨request, reply⟩ :: heard) progress := by
      intro heard request reply lists _
      cases progress
      case jobPage => exact List.mem_cons_of_mem _ lists
      all_goals exact trivial
    refine (round_holds unfinished ?_ still lists).mono ?_
    · intro heard request lists asks
      cases request
      case reassignJobs dest ids =>
        cases progress
        case jobPage => exact lists
        all_goals cases asks
      all_goals exact trivial
    · rintro heard next ⟨turns, lists⟩
      cases turns
      case jobsPaged => exact lists
      case jobsDead => exact absurd rfl opens
      all_goals exact trivial

end Takeover

namespace Coordinator.State

section Step

variable {state next : State} {event : Event} {row : RowId}

/-- Nobody but the coordinator writes to a job. -/
def Unwritten (event : Event) : Prop := ∀ job wall, event ≠ .write (.job job) wall

theorem step_onward (sound : state.Sound fun _ => True) (unwritten : Unwritten event)
    (stepped : state.step event = some next) : state.world.jobs.Onward next.world.jobs := by
  rw [step_world stepped]
  cases event with
  | write entry wall =>
      cases entry
      case job job => exact absurd rfl (unwritten job wall)
      all_goals exact .refl _
  | answer id shares refused =>
      rw [worldNext]
      cases calls : state.request? id with
      | none => exact .refl _
      | some request =>
          cases refused with
          | some detail => cases request <;> exact .refl _
          | none =>
              cases request
              case reassignJobs dest ids => exact Jobs.onward_reassign dest ids
              case markJob jobId status error =>
                obtain ⟨task, found, calls⟩ := request?_eq_some_iff.1 calls
                exact Jobs.onward_mark ((sound.tasks found).mayCall calls)
              all_goals exact .refl _
  | effect id wall draw =>
      rw [worldNext]
      cases own : state.deed? (.effect id wall draw) with
      | none => exact .refl _
      | some deed =>
          obtain ⟨_, deed⟩ := deed
          cases deed <;> exact .refl _
  | _ => exact .refl _

/-- Only a move changes the owner of a job. -/
theorem step_owner (unwritten : Unwritten event) (stays : ¬ state.Moves row event)
    (stepped : state.step event = some next) :
    (next.world.jobs.find? row).map Job.owner = (state.world.jobs.find? row).map Job.owner := by
  rw [step_job? stays stepped]
  cases writes : state.rewrites row event with
  | none => rfl
  | some written =>
      unfold rewrites at writes
      split at writes
      case h_1 =>
        split at writes
        case h_1 jobId status error _ =>
          obtain ⟨job, first, same⟩ := Option.bind_eq_some_iff.1 writes
          split at same
          case isTrue isRow =>
            cases same
            have found : state.world.jobs.find? row = some job :=
              Table.find?_eq_some_iff.2 ⟨(Jobs.findJob?_jobId first).1, isRow⟩
            rw [found]
            rfl
          case isFalse => cases same
        case h_2 => cases writes
      case h_2 job wall => exact absurd rfl (unwritten job wall)
      case h_3 => cases writes

end Step

section Run

variable {settings : Settings} {world : World} {before events : List Event}
  {start state : State} {id : TaskId} {task : Task} {node dest : Address} {row : RowId} {job : Job}

/-- The node reads as dead with the event. -/
def readsDead (node : Address) (state : State) : Event → Bool
  | .answer id _ none => state.request? id == some (.isAlive node) && !state.world.members.isAlive node
  | _ => false

theorem run_onward (sound : start.Sound fun _ => True) (unwritten : ∀ event ∈ events, Unwritten event)
    (run : start.run events = some state) : start.world.jobs.Onward state.world.jobs := by
  refine (run_induction (motive := fun _ state => state.Sound (fun _ => True) ∧
    start.world.jobs.Onward state.world.jobs) ⟨sound, .refl _⟩ ?_ (along_of_mem unwritten) run).2
  rintro _ event state next - - unwritten stepped ⟨sound, onward⟩
  exact ⟨(State.happens stepped).sound heeds_any sound, onward.trans (step_onward sound unwritten stepped)⟩

theorem run_owner (unwritten : ∀ event ∈ events, Unwritten event)
    (stays : start.Along (fun state event => ¬ state.Moves row event) events)
    (run : start.run events = some state) :
    (state.world.jobs.find? row).map Job.owner = (start.world.jobs.find? row).map Job.owner := by
  refine run_induction (motive := fun _ state => (state.world.jobs.find? row).map Job.owner = _) rfl ?_
    (stays.and (along_of_mem unwritten)) run
  rintro _ event state next - - ⟨stays, unwritten⟩ stepped same
  exact (step_owner unwritten stays stepped).trans same

/-- Who moves a job takes over the work of its owner, which it found dead. -/
theorem owner_of_move (unwritten : ∀ event ∈ events, Unwritten event)
    (run : (initial settings world).run events = some state) {ids : List RowId}
    (calls : state.request? id = some (.reassignJobs dest ids)) (member : row ∈ ids) :
    ∃ node, (state.world.jobs.find? row).map Job.owner = some node ∧
      ¬ (initial settings world).Along (fun state event => state.readsDead node event = false) events := by
  obtain ⟨-, sound⟩ := run_sound (along_of_forall fun _ _ => heeds_any) run
  obtain ⟨task, found, moves⟩ := request?_eq_some_iff.1 calls
  obtain ⟨node, takesOver⟩ := Option.isSome_iff_exists.1 ((sound.tasks found).mayCall moves)
  refine ⟨node, ?_, fun never => ?_⟩
  · obtain ⟨begun, during, since, page, _, ⟨after, newer, older, heard, -, rfl⟩, room⟩ :=
      run_grounds run found takesOver moves
    obtain ⟨before, shares, refused, between, middle, listed, rfl, ran, stepped, ranBetween, asked, replied,
      rfl, stays⟩ := since.of_heard run heard
    obtain ⟨part, perm, sublist⟩ := room
    obtain rfl : page = middle.world.jobs.page after JobStatus.unfinished node settings.pageSize := by
      cases refused with
      | none => exact Except.ok.inj replied
      | some detail => cases replied
    have ranListed : (initial settings world).run (before ++ [.answer id shares refused]) = some listed := by
      rw [run_snoc, ran]
      exact stepped
    have onPage : row ∈ (middle.world.jobs.page after JobStatus.unfinished node settings.pageSize).map Job.id :=
      sublist.subset (perm.symm.subset (List.mem_append_left _ member))
    obtain ⟨job, listedJob, rfl⟩ := List.mem_map.1 onPage
    obtain ⟨inside, -, isHeld⟩ := Jobs.mem_page listedJob
    have same : listed.world.jobs = middle.world.jobs := by
      rw [step_world stepped, worldNext, asked]
      cases refused <;> rfl
    have apart : job.id ∉ (listed.heard id between).flatMap movedBy :=
      List.disjoint_of_nodup_append (perm.nodup_iff.1 ((Jobs.nodup_page_ids _).sublist sublist)) member
    have known : middle.world.jobs.find? job.id = some job := Table.find?_eq_some_iff.2 ⟨inside, rfl⟩
    rw [run_owner (fun event among => unwritten event (by simp [among]))
      (along_not_moves ranListed ranBetween stays apart) ranBetween, same, known]
    exact congrArg some isHeld.1
  · obtain ⟨begun, during, began, checked⟩ := run_permits (trivial : Takeover.ListsDead node [] .opening)
      (fun _ _ => Takeover.round_movesDead) run found takesOver moves
    obtain ⟨newer, older, heard⟩ := List.append_of_mem (checked : _ ∈ _)
    obtain ⟨before, _, refused, between, middle, next, rfl, ran, -, -, asked, replied, -, -⟩ :=
      began.of_heard run heard
    have alive := ((along_append.1 never).2 middle ran).1
    cases refused with
    | some detail => cases replied
    | none =>
        have dead : middle.world.members.isAlive node = false := (Except.ok.inj replied).symm
        simp [readsDead, asked, dead] at alive

/-! ## The law -/

/-- On every run in which nobody else writes to the job store, every row stays, with its id, its
job id and its schedule kind, and its status changes only to that of a submission that failed,
together with the text that says so. The owner of a job stays while no check finds it dead. -/
theorem run_keeps_jobs (settings : Settings) (world : World)
    (unwritten : ∀ event ∈ before ++ events, Unwritten event)
    (ran : (initial settings world).run before = some start) (run : start.run events = some state) :
    start.world.jobs.Onward state.world.jobs ∧
      ∀ {row job}, start.world.jobs.find? row = some job →
        (initial settings world).Along (fun state event => state.readsDead job.owner event = false)
          (before ++ events) →
        ∃ later, state.world.jobs.find? row = some later ∧ job.Onward later ∧ later.owner = job.owner := by
  obtain ⟨-, sound⟩ := run_sound (along_of_forall fun _ _ => heeds_any) ran
  have onward : start.world.jobs.Onward state.world.jobs :=
    run_onward sound (fun event among => unwritten event (List.mem_append_right _ among)) run
  refine ⟨onward, fun {row job} found alive => ?_⟩
  obtain ⟨later, there, goesOn⟩ := onward.find? found
  refine ⟨later, there, goesOn, ?_⟩
  obtain ⟨aliveBefore, aliveSince⟩ := along_append.1 alive
  have kept : (state.world.jobs.find? row).map Job.owner = some job.owner := by
    refine run_induction (motive := fun events state => (∀ event ∈ events, Unwritten event) →
      (state.world.jobs.find? row).map Job.owner = some job.owner) (fun _ => by rw [found]; rfl) ?_
      (aliveSince start ran) run fun event among => unwritten event (List.mem_append_right _ among)
    intro events event state next alive run _ stepped kept unwrittenSince
    have earlier := kept fun event among => unwrittenSince event (List.mem_append_left _ among)
    by_cases moves : state.Moves row event
    · obtain ⟨id, shares, dest, ids, rfl, calls, member⟩ := moves
      have whole : (initial settings world).run (before ++ events) = some state := by
        rw [run_append, ran]
        exact run
      have unwrittenSoFar : ∀ event ∈ before ++ events, Unwritten event := fun event among =>
        (List.mem_append.1 among).elim (fun early => unwritten event (List.mem_append_left _ early))
          fun late => unwrittenSince event (List.mem_append_left _ late)
      obtain ⟨node, own, foundDead⟩ := owner_of_move unwrittenSoFar whole calls member
      cases own.symm.trans earlier
      refine absurd (along_append.2 ⟨aliveBefore, fun middle ranMiddle => ?_⟩) foundDead
      cases ran.symm.trans ranMiddle
      exact alive
    · exact (step_owner (unwrittenSince event (by simp)) moves stepped).trans earlier
  rw [there] at kept
  exact Option.some.inj kept

/-! An alive node is reported, and a dead one is taken over, whose job goes to the alive one. A
submission of a job of the alive node fails. -/

private def tended : World :=
  { World.initial with
    members := .ofList [(⟨"b"⟩, .heardAt ⟨1, 0⟩ 1)]
    jobs := .ofList [⟨1, "j", ⟨"a"⟩, .running, .cron, none⟩, ⟨2, "k", ⟨"b"⟩, .running, .cron, none⟩] }

private def tending : List Event :=
  [.arrive [.takeOver ⟨"b"⟩, .takeOver ⟨"a"⟩], .arrive [.recordFailure "k" "no slot"], .proceed 0, .start 0,
    .answer 0 none none, .proceed 0, .start 0, .answer 0 none none, .proceed 0, .effect 0 ⟨1, 0⟩ 0, .start 0,
    .answer 0 none none, .start 0, .answer 0 none none, .proceed 0]

private def tendingOn : List Event :=
  [.proceed 0, .start 0, .answer 0 none none, .proceed 0, .start 0, .answer 0 none none, .start 0, .answer 0 none none,
    .start 0, .answer 0 none none, .proceed 1, .start 1, .answer 1 none none, .effect 1 ⟨1, 0⟩ 0, .start 1,
    .answer 1 none none, .start 0, .answer 0 none none]

set_option maxRecDepth 4000 in
theorem run_keeps_jobs_of_tended : ∃ start state later,
    (initial default tended).run tending = some start ∧ start.run tendingOn = some state ∧
      (∀ event ∈ tending ++ tendingOn, Unwritten event) ∧
      (initial default tended).Along (fun state event => state.readsDead ⟨"b"⟩ event = false)
        (tending ++ tendingOn) ∧
      (state.world.jobs.find? 1).map Job.owner = some ⟨"b"⟩ ∧ start.world.jobs.Onward state.world.jobs ∧
      state.world.jobs.find? 2 = some later ∧ later.status = .submitFailed ∧ later.owner = ⟨"b"⟩ := by
  have unwritten : ∀ event ∈ tending ++ tendingOn, Unwritten event := by
    simp [tending, tendingOn, Unwritten]
  have alive : (initial default tended).Along (fun state event => state.readsDead ⟨"b"⟩ event = false)
      (tending ++ tendingOn) := along_of_tally (by decide +kernel)
  have law : ∀ start state, (initial default tended).run tending = some start →
      start.run tendingOn = some state → _ := fun _ _ => run_keeps_jobs default tended unwritten
  obtain ⟨onward, keeps⟩ := law _ _ rfl rfl
  obtain ⟨later, found, _, owner⟩ := @keeps 2 _ rfl alive
  obtain rfl : _ = later := Option.some.inj found
  exact ⟨_, _, _, rfl, rfl, unwritten, alive, rfl, onward, rfl, rfl, owner⟩

end Run

end Coordinator.State

end Handover
