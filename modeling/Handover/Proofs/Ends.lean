import Handover.Proofs.Alternation
import Handover.Proofs.Pages
import Mathlib.Data.Nat.Find

/-!
Contract: a takeover that goes on moving comes to its end.

Owns: a rank of progresses that goes down from round to round while listings tell only
rows after the one they start from, and one that goes down while they tell no rows; runs that
go on for ever, and what makes for one; and the law that a takeover whose task moves again and
again is finished where such a rank goes down, whatever the other tasks and other actors do and
whichever calls are refused.

The largest row id follows itself, so a listing that starts after it tells its row again.
Nothing else keeps a listing from telling only rows after the one it starts from.
-/

set_option autoImplicit false

namespace Handover

/-- A listing tells only rows after the one it starts from. -/
def Call.Onward : (request : Call) → request.Reply → Prop
  | .pageJobs after _ _, .ok page => ∀ job ∈ page, after < job.id
  | .pageCache after _ _ _ _, .ok page => ∀ row ∈ page, after < row.id
  | _, _ => True

/-- A listing that starts after the largest row id tells a row that has it. -/
def Call.Relists : (request : Call) → request.Reply → Prop
  | .pageJobs after _ _, .ok page => after = .last ∧ ∃ job ∈ page, job.id = .last
  | .pageCache after _ _ _ _, .ok page => after = .last ∧ ∃ row ∈ page, row.id = .last
  | _, _ => False

namespace Takeover

/-- How far a takeover is from its end at most. -/
def Progress.rank : Progress → Nat
  | .opening => 2 * UInt64.size + 5
  | .jobPage after _ => UInt64.size - after.val + UInt64.size + 4
  | .opened _ => UInt64.size + 3
  | .cachePage _ after _ => UInt64.size - after.val + 2
  | .closing _ _ => 1
  | .finished _ => 0

/-- How many rounds a takeover is from its end at most, if it lists no rows. -/
def Progress.rounds : Progress → Nat
  | .opening => 5
  | .jobPage _ _ => 4
  | .opened _ => 3
  | .cachePage _ _ _ => 2
  | .closing _ _ => 1
  | .finished _ => 0

end Takeover

namespace Coordinator

open Takeover (Progress Turns)

/-! ## A move of a takeover -/

section Goes

variable {settings : Settings} {allowed : Act → Prop} {task later : Task} {act : Act} {started : Bool}

theorem Task.Goes.of_call {request : Call} {next : request.Reply → Script Outcome}
    (goes : task.Goes settings act later) (notAbandon : act ≠ .abandon)
    (work : task.work = some ⟨.call request next, started⟩) :
    (started = false ∧ later = { task with work := some ⟨.call request next, true⟩ }) ∨
      ∃ reply, act = .reply request reply ∧ later = task.begin (next reply) := by
  cases goes
  case started same =>
    cases same.symm.trans work
    exact .inl ⟨rfl, rfl⟩
  case replied same reply =>
    cases same.symm.trans work
    exact .inr ⟨reply, rfl, rfl⟩
  case abandoned => exact absurd rfl notAbandon
  all_goals simp_all

theorem Errand.eq_takeOver {errand : Errand} {node : Address} (duty : errand.duty.node? = some node) :
    errand = .takeOver node := by
  cases errand <;> cases duty
  rfl

/-- A takeover at the end of a round goes on with the next one, or is finished. -/
theorem Task.Goes.of_round {node : Address} {progress : Progress} (goes : task.Goes settings act later)
    (notAbandon : act ≠ .abandon) (here : task.at? = some node)
    (work : task.work = some ⟨.done (.progress progress), started⟩) :
    (∃ report outside, act = .finish report outside ∧ progress = .finished report) ∨
      (∀ report, progress ≠ .finished report) ∧ later = task.begin (roundOf settings node progress) := by
  have duty : task.duty.node? = some node := (Task.at?_of_work work).symm.trans here
  cases goes
  case errandEnded same errands ends =>
    cases same.symm.trans work
    rw [Task.duty_of_errands errands] at duty
    cases ends with
    | lead leader => cases duty
    | takeOver other report => exact .inl ⟨report, true, rfl, rfl⟩
    | other _ notProgress => exact absurd rfl (notProgress node progress (Errand.eq_takeOver duty))
  case errandRound same errands unfinished =>
    cases same.symm.trans work
    rw [Task.duty_of_errands errands] at duty
    cases duty
    exact .inr ⟨unfinished, rfl⟩
  case workerRound same errands role unfinished =>
    cases same.symm.trans work
    rw [Task.duty_of_none errands, role] at duty
    cases duty
    exact .inr ⟨unfinished, rfl⟩
  case workerFinished same errands role =>
    cases same.symm.trans work
    exact .inl ⟨_, false, rfl, rfl⟩
  case workerAstray same errands role notProgress =>
    cases same.symm.trans work
    exact absurd rfl (notProgress progress)
  case rested same errands idle once =>
    rw [Task.duty_of_none errands] at duty
    cases role : task.role
    case worker activation holds place =>
      cases place with
      | none => rw [role] at duty; cases duty
      | some place => exact absurd role (idle activation holds place)
    all_goals
      rw [role] at duty
      cases duty
  case pushed same errands role =>
    rw [Task.duty_of_none errands, role] at duty
    cases duty
  case abandoned => exact absurd rfl notAbandon
  all_goals simp_all

end Goes

namespace State

/-- The task with the number is at a takeover and has the work under way. -/
def Doing (state : State) (id : TaskId) (node : Address) (work : Work) : Prop :=
  ∃ task, state.task? id = some task ∧ task.at? = some node ∧ task.work = some work

end State

section Doing

open State

variable {state next : State} {event : Event} {allowed : Act → Prop} {id : TaskId} {node : Address}
  {work : Work}

theorem Happens.doing (happens : Happens state event next) (sound : state.Sound allowed)
    (away : event.mover ≠ some id) (doing : state.Doing id node work) : next.Doing id node work := by
  obtain ⟨task, found, here, busy⟩ := doing
  obtain ⟨later, still, there, same⟩ := happens.still_at sound found here away
  exact ⟨later, still, there, same.trans busy⟩

/-- What the next move of a takeover makes of its work, on the replies that are reckoned with. -/
inductive Moves (replies : (request : Call) → request.Reply → Prop) (settings : Settings) (node : Address) :
    Work → Work → Prop
  | started {request : Call} {next : request.Reply → Script Outcome} :
      Moves replies settings node ⟨.call request next, false⟩ ⟨.call request next, true⟩
  | replied {request : Call} {next : request.Reply → Script Outcome} {started : Bool}
      (reply : request.Reply) (told : replies request reply) :
      Moves replies settings node ⟨.call request next, started⟩ (.on (next reply))
  | acted {deed : Effect} {next : deed.Result → Script Outcome} {started : Bool} (result : deed.Result) :
      Moves replies settings node ⟨.effect deed next, started⟩ (.on (next result))
  | round {progress : Progress} {started : Bool} (unfinished : ∀ report, progress ≠ .finished report) :
      Moves replies settings node ⟨.done (.progress progress), started⟩ (.on (roundOf settings node progress))

/-- The task is told only what is reckoned with. -/
def State.Tells (replies : (request : Call) → request.Reply → Prop) (id : TaskId) (state : State)
    (event : Event) : Prop :=
  ∀ request shares refused, event = .answer id shares refused → state.request? id = some request →
    replies request (state.world.reply (.answering shares) request refused).1

/-- With the event the task is told of the row with the largest id by a listing that starts after
this id. -/
def State.Relisted (id : TaskId) (state : State) (event : Event) : Prop :=
  ∃ request shares refused, event = .answer id shares refused ∧ state.request? id = some request ∧
    request.Relists (state.world.reply (.answering shares) request refused).1

theorem Happens.moves {replies : (request : Call) → request.Reply → Prop}
    (happens : Happens state event next) (sound : state.Sound allowed)
    (heeds : state.Heeds (· ≠ .abandon) event) (tells : state.Tells replies id event)
    (mine : event.mover = some id) (doing : state.Doing id node work) :
    (∃ report, report.node = node ∧ next.log = .finished id report :: state.log) ∨
      ∃ later, next.Doing id node later ∧ Moves replies state.settings node work later := by
  obtain ⟨task, found, here, busy⟩ := doing
  cases happens with
  | @moved _ mover before later act shared there goes takes =>
      obtain rfl : mover = id := Option.some.inj (takes.mover.symm.trans mine)
      cases there.symm.trans found
      have may := heeds _ _ _ _ _ found goes takes
      obtain ⟨_, still⟩ := takes.there found
      have now : (shared.setTask mover later).task? mover = some later := task?_setTask_of_found still
      have stays : ∀ script, (task.begin script).at? = some node :=
        fun _ => (Task.at?_of_work busy).symm.trans here
      obtain ⟨script, started⟩ := work
      cases script with
      | call request rest =>
          rcases goes.of_call may busy with ⟨rfl, rfl⟩ | ⟨reply, rfl, rfl⟩
          · exact .inr ⟨_, ⟨_, now, (Task.at?_of_work busy).symm.trans here, rfl⟩, .started⟩
          · cases takes with
            | reply _ shares refused =>
                have calls := request?_eq_some_iff.2 ⟨task, found, goes.call?⟩
                exact .inr ⟨_, ⟨_, now, stays _, rfl⟩, .replied _ (tells request shares refused rfl calls)⟩
      | effect deed rest =>
          obtain ⟨result, rfl, rfl⟩ := goes.of_effect may busy
          exact .inr ⟨_, ⟨_, now, stays _, rfl⟩, .acted result⟩
      | done outcome =>
          have duty : task.duty.node? = some node := (Task.at?_of_work busy).symm.trans here
          obtain ⟨progress, rfl, isOf⟩ := (sound.tasks found).progresses duty busy
          rcases goes.of_round may here busy with ⟨report, outside, rfl, rfl⟩ | ⟨unfinished, rfl⟩
          · exact .inl ⟨report, isOf report rfl, takes.log⟩
          · exact .inr ⟨_, ⟨_, now, stays _, rfl⟩, .round unfinished⟩
  | spawned apart _ => cases apart.symm.trans mine
  | told apart _ _ => cases apart.symm.trans mine
  | passed => cases mine
  | written => cases mine

end Doing

/-! ## For ever -/

/-- A run that goes on for ever. -/
structure Unending (course : Nat → State) (events : Nat → Event) : Prop where
  steps : ∀ time, (course time).step (events time) = some (course (time + 1))

section Unending

open State

variable {course : Nat → State} {events : Nat → Event} {allowed : Act → Prop} {id : TaskId}
  {node : Address} {work : Work}

/-- A takeover stays where it is until its task moves. -/
theorem Unending.doing (unending : Unending course events) (sound : ∀ time, (course time).Sound allowed)
    {start time : Nat} (doing : (course start).Doing id node work) (after : start ≤ time)
    (away : ∀ between, start ≤ between → between < time → (events between).mover ≠ some id) :
    (course time).Doing id node work := by
  induction time, after using Nat.le_induction with
  | base => exact doing
  | succ time after inductionHypothesis =>
      have before := inductionHypothesis fun between from_ until_ =>
        away between from_ (Nat.lt_succ_of_lt until_)
      exact (State.happens (unending.steps time)).doing (sound time) (away time after (Nat.lt_succ_self time))
        before

/-- The first move of a task from some time on. -/
theorem exists_first_move (again : ∀ time, ∃ later, time ≤ later ∧ (events later).mover = some id)
    (start : Nat) : ∃ time, start ≤ time ∧ (events time).mover = some id ∧
      ∀ between, start ≤ between → between < time → (events between).mover ≠ some id := by
  classical
  have exists_ := again start
  obtain ⟨after, moves⟩ := Nat.find_spec exists_
  exact ⟨Nat.find exists_, after, moves, fun between from_ until_ moves =>
    Nat.find_min exists_ until_ ⟨from_, moves⟩⟩

/-- No one is given up on, and the task moves again and again, on the replies that are reckoned with. -/
structure Unhindered (replies : (request : Call) → request.Reply → Prop) (course : Nat → State)
    (events : Nat → Event) (settings : Settings) (id : TaskId) : Prop extends Unending course events where
  settings : ∀ time, (course time).settings = settings
  sound : ∀ time, (course time).Sound (· ≠ .abandon)
  heeds : ∀ time, (course time).Heeds (· ≠ .abandon) (events time)
  tells : ∀ time, (course time).Tells replies id (events time)
  again : ∀ time, ∃ later, time ≤ later ∧ (events later).mover = some id

/-- Whatever a round comes to on the replies that are reckoned with ranks lower, and nothing ranks
higher than `top`. -/
structure Falls (replies : (request : Call) → request.Reply → Prop) (settings : Settings)
    (rank : Progress → Nat) (top : Nat) : Prop where
  bound : ∀ progress, rank progress < top
  turns : ∀ {node progress next},
    Turns ⟨fun _ => True, fun _ => True, replies⟩ settings.pageSize node progress next →
      rank next < rank progress

theorem Falls.round {replies : (request : Call) → request.Reply → Prop} {settings : Settings}
    {rank : Progress → Nat} {top : Nat} (falls : Falls replies settings rank top) {progress : Progress}
    (unfinished : ∀ report, progress ≠ .finished report) :
    (roundOf settings node progress).Keeps ⟨fun _ => True, fun _ => True, replies⟩ fun outcome =>
      ∃ next, outcome = .progress next ∧ rank next < rank progress := by
  refine .bind (Takeover.round_keeps (fun _ _ => trivial) trivial (fun _ _ _ => ⟨trivial, trivial⟩)
    unfinished) ?_
  exact fun next turns => .done ⟨next, rfl, falls.turns turns⟩

namespace Unhindered

variable {settings : Settings} {replies : (request : Call) → request.Reply → Prop} {rank : Progress → Nat}
  {top : Nat}

/-- The takeover of the node is finished at some time. -/
def Ends (course : Nat → State) (id : TaskId) (node : Address) : Prop :=
  ∃ time report, report.node = node ∧ .finished id report ∈ (course time).log

theorem next (unhindered : Unhindered replies course events settings id) {start : Nat}
    (doing : (course start).Doing id node work) : Ends course id node ∨
      ∃ time later, (course time).Doing id node later ∧ Moves replies settings node work later := by
  obtain ⟨time, after, moves, away⟩ := exists_first_move unhindered.again start
  have still := unhindered.doing unhindered.sound doing after away
  have happens := State.happens (unhindered.steps time)
  rcases happens.moves (unhindered.sound time) (unhindered.heeds time) (unhindered.tells time) moves
    still with ⟨report, isOf, log⟩ | ⟨later, now, moved⟩
  · exact .inl ⟨time + 1, report, isOf, by rw [log]; exact List.mem_cons_self⟩
  · exact .inr ⟨time + 1, later, now, unhindered.settings time ▸ moved⟩

/-- A script ends, and if it ends with a progress of a lower rank each time, so does the
takeover. The induction is on the rank, and within a round on the script. -/
theorem ends_of_keeps (unhindered : Unhindered replies course events settings id)
    (falls : Falls replies settings rank top) (level : Nat) :
    ∀ (script : Script Outcome) (start : Nat) (started : Bool),
      script.Keeps ⟨fun _ => True, fun _ => True, replies⟩ (fun outcome =>
        ∃ progress, outcome = .progress progress ∧ rank progress < level) →
      (course start).Doing id node ⟨script, started⟩ → Ends course id node := by
  induction level using Nat.strongRecOn with
  | ind level lower =>
      intro script
      induction script with
      | done outcome =>
          rintro start started ⟨progress, rfl, small⟩ doing
          rcases unhindered.next doing with ends | ⟨time, later, now, moved⟩
          · exact ends
          · cases moved with
            | round unfinished =>
                exact lower _ small _ _ _ (falls.round unfinished) now
      | call request rest inductionHypothesis =>
          intro start started keeps doing
          have answered : ∀ time, (course time).Doing id node ⟨.call request rest, true⟩ →
              Ends course id node := by
            intro time doing
            rcases unhindered.next doing with ends | ⟨time, later, now, moved⟩
            · exact ends
            · cases moved with
              | replied reply told => exact inductionHypothesis reply _ _ (keeps.2 reply told) now
          cases started with
          | true => exact answered start doing
          | false =>
              rcases unhindered.next doing with ends | ⟨time, later, now, moved⟩
              · exact ends
              · cases moved with
                | started => exact answered _ now
                | replied reply told => exact inductionHypothesis reply _ _ (keeps.2 reply told) now
      | effect deed rest inductionHypothesis =>
          intro start started keeps doing
          rcases unhindered.next doing with ends | ⟨time, later, now, moved⟩
          · exact ends
          · cases moved with
            | acted result => exact inductionHypothesis result _ _ (keeps.2 result) now

/-- A takeover that moves again and again is finished at some time, if its rounds rank lower. -/
theorem ends (unhindered : Unhindered replies course events settings id)
    (falls : Falls replies settings rank top) {start : Nat} (isAt : (course start).IsAt id node) :
    Ends course id node := by
  obtain ⟨task, found, here⟩ := State.isAt_iff.1 isAt
  obtain ⟨duty, script, started, busy⟩ := Task.work_of_at? here
  have underway := ((unhindered.sound start).tasks found).underway _ _ busy
  have keeps := underway.progresses duty
  refine unhindered.ends_of_keeps falls top script start started ?_ ⟨task, found, here, busy⟩
  refine (keeps.mono ?_).widen (fun _ _ => trivial) (fun _ _ => trivial) fun _ _ _ => trivial
  rintro _ ⟨progress, rfl, _⟩
  exact ⟨progress, rfl, falls.bound progress⟩

end Unhindered

end Unending

end Coordinator

end Handover
