import Handover.Proofs.Effects
import Handover.Proofs.Holder

/-!
Contract: no report is lost, repeated or put before another one.

Owns: the law that what was taken from the queue and what is still in it are what was
queued, in that order; and the law that the count of pending reports is the length of the
queue and one more for each task that is halfway.

A task is halfway from when it has counted a report until it has queued it, or, where the
queue is closed, until it has counted it off again; and from when it has taken one until it
has counted it off.
-/

set_option autoImplicit false

namespace Handover

open Coordinator (Outcome)

-- To compare scripts that submit a report, Lean would trim a text that it does not know.
attribute [local irreducible] Intake.accepts

/-! ## Scripts that are halfway -/

/-- 1 for a script that comes next to queueing a report or to counting one off. -/
def Script.halfway {α : Type} : Script α → Nat
  | .effect (.enqueue _) _ => 1
  | .effect .discountReport _ => 1
  | _ => 0

/-- 1 for an effect whose result leaves a report counted and yet not in the queue. -/
def Effect.leaves : (deed : Effect) → deed.Result → Nat
  | .countReport, _ => 1
  | .enqueue _, false => 1
  | _, _ => 0

/-- Wherever the script goes on it is halfway just if it has counted a report that is not
in the queue. -/
def Script.Tidy {α : Type} : Script α → Prop
  | .done _ => True
  | .call _ next => ∀ reply, (next reply).Tidy ∧ (next reply).halfway = 0
  | .effect deed next => ∀ result, (next result).Tidy ∧
      (next result).halfway = deed.leaves result

/-- A tidy script that is not halfway. -/
def Script.Clean {α : Type} (script : Script α) : Prop := script.Tidy ∧ script.halfway = 0

/-- Counts a report, queues it, or counts it off. -/
def Effect.isOfReport : Effect → Bool
  | .countReport => true
  | .enqueue _ => true
  | .discountReport => true
  | _ => false

namespace Script

variable {α β : Type}

/-- A script that leaves the reports alone is never halfway. -/
theorem Keeps.clean {terms : Terms} {goal : α → Prop} {script : Script α}
    (keeps : script.Keeps terms goal) (any : ∀ request reply, terms.replies request reply)
    (apart : ∀ deed, terms.deeds deed → deed.isOfReport = false) : script.Clean := by
  induction script with
  | done value => exact ⟨trivial, rfl⟩
  | call request next inductionHypothesis =>
      exact ⟨fun reply => inductionHypothesis reply (keeps.2 reply (any _ _)), rfl⟩
  | effect deed next inductionHypothesis =>
      have own := apart deed keeps.1
      have leaves : ∀ result, deed.leaves result = 0 := fun result => by
        cases deed <;> first | rfl | cases own
      constructor
      · intro result
        rw [leaves result]
        exact inductionHypothesis result (keeps.2 result)
      · cases deed <;> first | rfl | cases own

theorem Tidy.bind {script : Script α} {later : α → Script β} (first : script.Tidy)
    (second : ∀ value, (later value).Clean) :
    (script >>= later).Tidy ∧ (script >>= later).halfway = script.halfway := by
  induction script with
  | done value => exact second value
  | call request next inductionHypothesis =>
      refine ⟨fun reply => ?_, rfl⟩
      obtain ⟨tidy, same⟩ := inductionHypothesis reply (first reply).1
      exact ⟨tidy, same.trans (first reply).2⟩
  | effect deed next inductionHypothesis =>
      refine ⟨fun result => ?_, by cases deed <;> rfl⟩
      obtain ⟨tidy, same⟩ := inductionHypothesis result (first result).1
      exact ⟨tidy, same.trans (first result).2⟩

namespace Clean

theorem done (value : α) : (Script.done value).Clean := ⟨trivial, rfl⟩

theorem bind {script : Script α} {later : α → Script β} (first : script.Clean)
    (second : ∀ value, (later value).Clean) : (script >>= later).Clean :=
  ⟨(first.1.bind second).1, (first.1.bind second).2.trans first.2⟩

theorem ask (request : Call) : (Script.ask request).Clean := ⟨fun _ => ⟨trivial, rfl⟩, rfl⟩

theorem attempt {script : Attempt α} {later : α → Attempt β} (first : script.run.Clean)
    (second : ∀ value, (later value).run.Clean) : (script >>= later).run.Clean := by
  change (script.run >>= ExceptT.bindCont later).Clean
  apply bind first
  intro result
  cases result with
  | ok value => exact second value
  | error fault => exact done _

theorem of {script : Script α} (clean : script.Clean) : (Attempt.of script).run.Clean := by
  change (script >>= fun value => Script.done (Except.ok value)).Clean
  exact clean.bind fun _ => done _

end Clean

end Script

/-- A report is counted off again where the queue did not take it. -/
theorem push_clean (node : Address) : (Intake.push node).Clean := by
  refine ⟨fun _ => ⟨fun taken => ?_, rfl⟩, rfl⟩
  cases taken with
  | true => exact ⟨trivial, rfl⟩
  | false => exact ⟨fun _ => ⟨trivial, rfl⟩, rfl⟩

theorem submit_clean (text : String) : (Intake.submit text).Clean := by
  unfold Intake.submit
  split
  · exact push_clean _
  · exact .done _

theorem sweep_clean (timeoutMillis : Nat) (now : Time.Instant) (listed : List (Address × Liveness)) :
    (Detection.sweep timeoutMillis now listed).run.Clean := by
  induction listed with
  | nil => exact .done _
  | cons entry rest inductionHypothesis =>
      unfold Detection.sweep
      split
      case isFalse => exact inductionHypothesis
      case isTrue =>
        refine .attempt (.ask _) fun applied => ?_
        split
        case isFalse => exact inductionHypothesis
        case isTrue =>
          exact .attempt (.of (submit_clean _)) fun _ => .attempt inductionHypothesis fun _ => .done _

namespace Coordinator

theorem checkScript_clean (timeoutMillis : Nat) (now : Time.Instant) :
    (checkScript timeoutMillis now).Clean := by
  have passes : (Detection.pass timeoutMillis now).run.Clean :=
    .attempt (.ask _) fun listed => sweep_clean timeoutMillis now listed
  exact passes.bind fun _ => .done _

theorem roundOf_clean (settings : Settings) (node : Address) {progress : Takeover.Progress}
    (unfinished : ∀ report, progress ≠ .finished report) : (roundOf settings node progress).Clean := by
  have keeps : (roundOf settings node progress).Keeps
      ⟨fun deed => deed.isOfReport = false, fun _ => True, fun _ _ => True⟩ fun _ => True :=
    roundOf_keeps (fun _ _ => trivial) rfl rfl rfl unfinished
  exact keeps.clean (fun _ _ => trivial) fun _ apart => apart

namespace Duty

/-- Only the script of a report that was taken begins halfway. -/
theorem script_tidy (settings : Settings) (duty : Duty) :
    (duty.script settings).Tidy ∧ (duty.script settings).halfway =
      match duty with
      | .work _ => 1
      | _ => 0 := by
  cases duty with
  | idle => exact Script.Clean.done _
  | report text => exact (submit_clean text).bind fun _ => Script.Clean.done _
  | lead leader => exact (Script.Clean.ask _).bind fun _ => Script.Clean.done _
  | takeOver node => exact roundOf_clean settings node fun _ => nofun
  | recordFailure jobId detail =>
      have keeps : (Takeover.recordFailure jobId detail).run.Keeps
          ⟨fun deed => deed.isOfReport = false, fun _ => True, fun _ _ => True⟩ fun _ => True :=
        Takeover.recordFailure_keeps rfl jobId detail trivial fun _ => trivial
      exact (keeps.clean (fun _ _ => trivial) fun _ apart => apart).bind fun _ => Script.Clean.done _
  | check timeoutMillis now => exact checkScript_clean timeoutMillis now
  | trigger => exact (Script.Clean.ask _).bind fun _ => Script.Clean.done _
  | work node => exact ⟨fun _ => roundOf_clean settings node fun _ => nofun, rfl⟩
  | build => exact ⟨fun now => ⟨fun _ => ⟨trivial, rfl⟩, rfl⟩, rfl⟩
  | push node => exact (push_clean node).bind fun _ => Script.Clean.done _
  | monitor timeoutMillis => exact ⟨fun now => checkScript_clean timeoutMillis now, rfl⟩
  | beat node => exact ⟨fun _ => ⟨trivial, rfl⟩, rfl⟩

theorem Underway.tidy {settings : Settings} {allowed : Act → Prop} {duty : Duty}
    {script : Script Outcome} (underway : duty.Underway settings allowed script) : script.Tidy := by
  induction underway with
  | begun => exact (duty.script_tidy settings).1
  | replied reply _ _ inductionHypothesis => exact (inductionHypothesis reply).1
  | acted result _ _ inductionHypothesis => exact (inductionHypothesis result).1
  | round _ unfinished _ _ => exact (roundOf_clean _ _ unfinished).1

end Duty

/-! ## Tasks that are halfway -/

def Task.halfway (task : Task) : Nat :=
  match task.work with
  | some work => work.script.halfway
  | none => 0

theorem Task.halfway_of_work {task : Task} {script : Script Outcome} {started : Bool}
    (work : task.work = some ⟨script, started⟩) : task.halfway = script.halfway := by
  rw [halfway, work]

theorem Task.halfway_of_idle {task : Task} (idle : task.work = none) : task.halfway = 0 := by
  rw [halfway, idle]

/-- How many of the two halves of a way an act brings a task to. -/
def Act.Weighs (before after : Nat) : Act → Prop
  | .deed .countReport _ => before = 0 ∧ after = 1
  | .deed (.enqueue _) taken => before = 1 ∧ after = if taken then 0 else 1
  | .deed .discountReport _ => before = 1 ∧ after = 0
  | .take _ => before = 0 ∧ after = 1
  | .abandon => True
  | _ => after = before

theorem Task.Goes.halfway {settings : Settings} {allowed : Act → Prop} {task later : Task} {act : Act}
    (goes : task.Goes settings act later) (sound : task.Sound settings allowed) :
    act.Weighs task.halfway later.halfway := by
  have ends : ∀ {outcome started}, task.work = some ⟨.done outcome, started⟩ → task.halfway = 0 :=
    fun work => Task.halfway_of_work work
  cases goes with
  | started work => exact (Task.halfway_of_work work).symm
  | replied work reply =>
      exact (((sound.underway _ _ work).tidy reply).2).trans (Task.halfway_of_work work).symm
  | @acted deed next _ work result =>
      have now : (task.begin (next result)).halfway = _ := ((sound.underway _ _ work).tidy result).2
      have before := Task.halfway_of_work work
      cases deed
      case countReport => exact ⟨before, now⟩
      case enqueue => cases result <;> exact ⟨before, now⟩
      case discountReport => exact ⟨before, now⟩
      all_goals exact now.trans before.symm
  | @errandBegun _ _ _ script running idle errands begins =>
      have before := Task.halfway_of_idle idle
      have now : (task.begin script).halfway = _ :=
        begins.script ▸ (Duty.script_tidy settings _).2
      cases begins <;> exact now.trans before.symm
  | @roleBegun role _ script running idle errands begins =>
      have before := Task.halfway_of_idle idle
      have now : ({ task with role := role }.begin script).halfway = _ :=
        begins.script ▸ (Duty.script_tidy settings _).2
      generalize task.role = former at begins
      cases begins
      case take => exact ⟨before, now⟩
      all_goals exact now.trans before.symm
  | errandRound running work errands unfinished =>
      exact (roundOf_clean _ _ unfinished).2.trans (ends work).symm
  | workerRound running work errands role unfinished =>
      exact (roundOf_clean _ _ unfinished).2.trans (ends work).symm
  | errandEnded running work errands ends' => cases ends' <;> exact (ends work).symm
  | leadSkipped running idle errands => exact (Task.halfway_of_idle idle).symm
  | drained workers running idle errands =>
      exact (Task.halfway_of_idle idle).trans (Task.halfway_of_idle idle).symm
  | awaited running idle errands =>
      exact (Task.halfway_of_idle idle).trans (Task.halfway_of_idle idle).symm
  | awaitedAll running idle errands => exact (Task.halfway_of_idle idle).symm
  | workerFinished running work errands role => exact (ends work).symm
  | workerAstray running work errands role _ => exact (ends work).symm
  | rested running work errands _ _ => exact (ends work).symm
  | pushed running work errands role => exact (ends work).symm
  | looked running idle errands role =>
      exact (Task.halfway_of_idle idle).trans (Task.halfway_of_idle idle).symm
  | left running idle errands role =>
      exact (Task.halfway_of_idle idle).trans (Task.halfway_of_idle idle).symm
  | acquired running idle errands role =>
      exact (Task.halfway_of_idle idle).trans (Task.halfway_of_idle idle).symm
  | passed later running idle errands role =>
      exact (Task.halfway_of_idle idle).trans (Task.halfway_of_idle idle).symm
  | closed running idle errands free => exact (Task.halfway_of_idle idle).symm
  | released running idle errands role => exact (Task.halfway_of_idle idle).symm
  | abandoned role => trivial

/-- Only duties that report, push or work are ever halfway. -/
theorem Task.Sound.not_halfway_of_checks {settings : Settings} {allowed : Act → Prop} {task : Task}
    (sound : task.Sound settings allowed) (checks : task.role.Checks) : task.halfway = 0 := by
  obtain ⟨activation, due, role⟩ := checks
  have duty : task.duty = .build := by
    rw [Task.duty_of_none (sound.unasked (by rw [role]; rfl)), role]
    rfl
  cases work : task.work with
  | none => exact Task.halfway_of_idle work
  | some busy =>
      obtain ⟨script, started⟩ := busy
      rw [Task.halfway_of_work work]
      cases script
      case effect deed next =>
        have may : task.duty.May deed := sound.may (by rw [Task.effect?, work])
        rw [duty] at may
        cases deed
        case enqueue => cases may
        case discountReport => obtain ⟨_, impossible | impossible⟩ := may <;> cases impossible
        all_goals rfl
      all_goals rfl

namespace State

/-- The count of pending reports is the length of the queue, and one more for each task
that is halfway. -/
def Counted (state : State) : Prop := state.pending = state.queue.length + state.total Task.halfway

end State

/-- An act keeps the count. What is counted off was counted before. -/
theorem Act.counted {act : Act} {pending before after rest : Nat} {queue : List Address}
    (notAbandon : act ≠ .abandon) (weighs : act.Weighs before after)
    (first : ∀ node, act = .take node → queue ≠ [])
    (counted : pending = queue.length + (rest + before)) :
    act.pending pending = (act.queue queue).length + (rest + after) := by
  cases act
  case deed deed result =>
    cases deed
    case countReport =>
      obtain ⟨rfl, rfl⟩ := weighs
      simp only [Act.pending, Act.queue]
      omega
    case enqueue node =>
      obtain ⟨rfl, rfl⟩ := weighs
      cases result with
      | true =>
          simp only [Act.pending, Act.queue, List.length_append, List.length_singleton, if_pos]
          omega
      | false => exact counted
    case discountReport =>
      obtain ⟨rfl, rfl⟩ := weighs
      simp only [Act.pending, Act.queue]
      omega
    all_goals
      obtain rfl := weighs
      exact counted
  case take node =>
    obtain ⟨rfl, rfl⟩ := weighs
    have there := List.length_pos_iff.2 (first node rfl)
    simp only [Act.pending, Act.queue, List.length_tail]
    omega
  case abandon => exact absurd rfl notAbandon
  all_goals
    obtain rfl := weighs
    exact counted

/-- Fresh tasks are not halfway. -/
theorem Task.halfway_fresh (role : Role) (errands : List Errand) :
    (Task.fresh role errands).halfway = 0 := rfl

open State in
theorem Happens.counted {state next : State} {event : Event} {allowed : Act → Prop}
    (happens : Happens state event next) (sound : state.Sound allowed)
    (heeds : state.Heeds (· ≠ .abandon) event) (counted : state.Counted) : next.Counted := by
  cases happens with
  | spawned _ outside =>
      rw [Counted, total_spawn, Task.halfway_fresh]
      exact counted
  | @told _ id task role _ found told =>
      have same : (state.setTask id { task with role := role }).total Task.halfway =
          state.total Task.halfway := total_setTask_of_eq found rfl
      exact counted.trans (congrArg (state.queue.length + ·) same.symm)
  | @moved _ id task later act shared found goes takes =>
      have light : ∀ group checker, state.group = some group →
          state.task? group.checker = some checker → checker.halfway = checker.close.halfway :=
        fun group checker active known =>
          (sound.tasks known).not_halfway_of_checks (sound.checks active known)
      obtain ⟨raised, fresh, total⟩ := takes.total light
      have none : (raised.map Task.halfway).sum = 0 := by
        refine List.sum_eq_zero fun weight member => ?_
        obtain ⟨one, there, rfl⟩ := List.mem_map.1 member
        obtain ⟨role, rfl, _⟩ := fresh one there
        exact Task.halfway_fresh role []
      have moved : (shared.setTask id later).total Task.halfway + task.halfway =
          shared.total Task.halfway + later.halfway := takes.total_setTask found light
      have there : task.halfway ≤ state.total Task.halfway := le_total found
      have first : ∀ node, act = .take node → state.queue ≠ [] := by
        rintro node rfl
        cases takes
        simp [*]
      have before : state.pending =
          state.queue.length + (state.total Task.halfway - task.halfway + task.halfway) := by
        rw [Nat.sub_add_cancel there]
        exact counted
      have weighed := goes.halfway (sound.tasks found)
      have kept := Act.counted (heeds _ _ _ _ _ found goes takes) weighed first before
      have next : (shared.setTask id later).total Task.halfway =
          state.total Task.halfway - task.halfway + later.halfway := by omega
      have pending : (shared.setTask id later).pending = act.pending state.pending := takes.pending
      have queue : (shared.setTask id later).queue = act.queue state.queue := takes.queue
      rw [Counted, next, pending, queue]
      exact kept
  | passed millis => exact counted
  | written entry wall => exact counted

/-! ## The order of the queue -/

/-- The nodes that were queued, in order, by a log with the latest entry first. -/
def queuedNodes (log : List Occurrence) : List Address :=
  log.reverse.filterMap fun
    | .queued node => some node
    | _ => none

/-- The nodes that were taken from the queue, in order. -/
def takenNodes (log : List Occurrence) : List Address :=
  log.reverse.filterMap fun
    | .taken _ node => some node
    | _ => none

/-- What an act adds to the nodes that were queued, and to those that were taken. -/
theorem Act.nodes (act : Act) (id : TaskId) (log : List Occurrence) :
    queuedNodes (act.notes id ++ log) = queuedNodes log ++ (match act with
      | .deed (.enqueue node) true => [node]
      | _ => []) ∧
    takenNodes (act.notes id ++ log) = takenNodes log ++ (match act with
      | .take node => [node]
      | _ => []) := by
  cases act
  case deed deed result =>
    cases deed
    case enqueue node => cases result <;> simp [Act.notes, queuedNodes, takenNodes]
    all_goals simp [Act.notes, queuedNodes, takenNodes]
  all_goals simp [Act.notes, queuedNodes, takenNodes]

namespace State

/-- What was taken from the queue and what is still in it are what was queued, in order. -/
def InOrder (state : State) : Prop := takenNodes state.log ++ state.queue = queuedNodes state.log

end State

open State in
theorem Happens.inOrder {state next : State} {event : Event} (happens : Happens state event next)
    (inOrder : state.InOrder) : next.InOrder := by
  cases happens with
  | @moved _ id task later act shared found goes takes =>
      have queue : (shared.setTask id later).queue = act.queue state.queue := takes.queue
      have log : (shared.setTask id later).log = act.notes id ++ state.log := takes.log
      obtain ⟨queued, taken⟩ := act.nodes id state.log
      rw [InOrder, queue, log, queued, taken, ← inOrder]
      cases act
      case take node =>
        cases takes with
        | take active first => simp [Act.queue, first]
      case deed deed result =>
        cases deed
        case enqueue node => cases result <;> simp [Act.queue]
        all_goals simp [Act.queue]
      all_goals simp [Act.queue]
  | _ => exact inOrder

end Coordinator

end Handover
