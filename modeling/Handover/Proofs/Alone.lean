import Handover.Proofs.Closing

/-!
Contract: a played script is a run of the coordinator in which only one task moves.

Owns: the runs that carry a script to its end and a takeover from round to round,
event by event, with the same calls, the same effects and the same stores.
-/

set_option autoImplicit false

namespace Handover

namespace Coordinator.State

variable {state next after : State} {id : TaskId}

theorem run_append (first second : List Event) :
    state.run (first ++ second) = (state.run first).bind fun middle => middle.run second := by
  induction first generalizing state with
  | nil => rfl
  | cons event first inductionHypothesis =>
      simp only [List.cons_append, run]
      cases state.step event with
      | none => rfl
      | some next => exact inductionHypothesis

theorem task?_setTask (there : id < state.tasks.length) (task : Task) :
    (state.setTask id task).task? id = some task := by
  simp [setTask, task?, there]

theorem setTask_setTask (state : State) (first second : Task) :
    (state.setTask id first).setTask id second = state.setTask id second := by
  simp [setTask]

theorem scheduleRetry_setTask (there : id < state.tasks.length) (task : Task) (node : Address)
    (draw : Nat) : (state.setTask id task).scheduleRetry node draw =
      (state.scheduleRetry node draw).setTask id task := by
  cases active : state.group with
  | none =>
      have activeSet : (state.setTask id task).group = none := active
      rw [scheduleRetry_of_standby active, scheduleRetry_of_standby activeSet]
  | some group =>
      have activeSet : (state.setTask id task).group = some group := active
      by_cases exceeded : state.retriesOf node + 1 > state.settings.retryLimit
      · have exceededSet : (state.setTask id task).retriesOf node + 1 >
          (state.setTask id task).settings.retryLimit := exceeded
        rw [scheduleRetry_of_exceeded active exceeded,
          scheduleRetry_of_exceeded activeSet exceededSet]
        rfl
      · have withinSet : ¬ (state.setTask id task).retriesOf node + 1 >
          (state.setTask id task).settings.retryLimit := exceeded
        rw [scheduleRetry_of_within active exceeded, scheduleRetry_of_within activeSet withinSet]
        simp only [setTask, spawn, retriesOf, List.set_append_left _ _ there]

/-- What a task has under way plays no part in what an effect does. -/
theorem afterEffect_setTask (there : id < state.tasks.length) (task : Task) (wall : Time.Instant)
    (draw : Nat) (deed : Effect) :
    (state.setTask id task).afterEffect wall draw deed =
      (state.afterEffect wall draw deed).map fun happened =>
        (happened.1, happened.2.setTask id task) := by
  cases deed
  case scheduleRetry node =>
    simp only [afterEffect, scheduleRetry_setTask there]
    change (if state.changing.isSome = true then _ else _) = _
    split <;> rfl
  case enqueue node =>
    change (if state.closed = true then _ else _) = _
    simp only [afterEffect]
    split <;> rfl
  all_goals rfl

/-- An effect takes no task away and leaves the settings as they are. -/
theorem afterEffect_goesOn {wall : Time.Instant} {draw : Nat} {deed : Effect}
    {result : deed.Result} (happened : state.afterEffect wall draw deed = some (result, after)) :
    state.tasks.length ≤ after.tasks.length ∧ after.settings = state.settings := by
  cases deed
  case scheduleRetry node =>
    obtain ⟨_, rfl⟩ := afterEffect_scheduleRetry happened
    obtain ⟨retries, raised, same⟩ := scheduleRetry_eq state node draw
    rw [same]
    exact ⟨by simp, rfl⟩
  case enqueue node =>
    obtain ⟨_, rfl, _⟩ | ⟨_, rfl, _⟩ := afterEffect_enqueue happened <;> exact ⟨Nat.le_refl _, rfl⟩
  all_goals
    cases happened
    exact ⟨Nat.le_refl _, rfl⟩

end Coordinator.State

open Coordinator

variable {id : TaskId} {chances : Chances} {task : Task}

/-- A session that still has the task. -/
structure Session.Carries (session : Session) (id : TaskId) (settings : Settings) : Prop where
  there : id < session.state.tasks.length
  settings : session.state.settings = settings

/-- The task carries a played script to its end when nothing else happens. -/
theorem Script.play_run (task : Task) {settings : Settings} {script : Script Outcome}
    {session after : Session} {outcome : Outcome} (carries : session.Carries id settings)
    (played : script.play id chances session = some (outcome, after)) :
    after.Carries id settings ∧ ∃ events,
      (session.state.setTask id (task.begin script)).run events =
        some (after.state.setTask id (task.begin (.done outcome))) := by
  induction script generalizing session with
  | done value =>
      cases played
      exact ⟨carries, [], rfl⟩
  | call request next inductionHypothesis =>
      have answered : (session.answer id chances request).2.Carries id settings :=
        ⟨carries.there, carries.settings⟩
      obtain ⟨carriesOn, events, run⟩ := inductionHypothesis _ answered played
      let chance := chances session.turn
      refine ⟨carriesOn,
        .start id :: .answer id (chance.shares request) (chance.refused request) :: events, ?_⟩
      have started : (session.state.setTask id (task.begin (.call request next))).step (.start id) =
          some ((session.state.note (.called id request)).setTask id
            { task with work := some ⟨.call request next, true⟩ }) := by
        simp only [State.step, State.task?_setTask carries.there, Option.bind_eq_bind,
          Option.bind_some, Task.begin, Work.on]
        exact congrArg some (State.setTask_setTask (session.state.note (.called id request)) _ _)
      have ended : ((session.state.note (.called id request)).setTask id
          { task with work := some ⟨.call request next, true⟩ }).step
            (.answer id (chance.shares request) (chance.refused request)) =
          some ((session.answer id chances request).2.state.setTask id
            (task.begin (next (session.answer id chances request).1))) := by
        have there : id < (session.state.note (.called id request)).tasks.length := carries.there
        simp only [State.step, State.task?_setTask there, Option.bind_eq_bind, Option.bind_some]
        simp only [World.reply_answering]
        exact congrArg some (State.setTask_setTask (session.answer id chances request).2.state _ _)
      rw [State.run, started, Option.bind_eq_bind, Option.bind_some, State.run, ended]
      exact run
  | effect deed next inductionHypothesis =>
      obtain ⟨⟨result, state⟩, happened, played⟩ := Option.bind_eq_some_iff.1 played
      obtain ⟨more, settings⟩ := State.afterEffect_goesOn happened
      have carriesThen : Session.Carries { session with state := state, turn := session.turn + 1 } id _ :=
        ⟨Nat.lt_of_lt_of_le carries.there more, settings.trans carries.settings⟩
      obtain ⟨carriesOn, events, run⟩ := inductionHypothesis result carriesThen played
      refine ⟨carriesOn,
        .effect id (chances session.turn).wall (chances session.turn).draw :: events, ?_⟩
      have stepped : (session.state.setTask id (task.begin (.effect deed next))).step
          (.effect id (chances session.turn).wall (chances session.turn).draw) =
            some (state.setTask id (task.begin (next result))) := by
        simp only [State.step, State.task?_setTask carries.there, Option.bind_eq_bind,
          Option.bind_some, Task.begin, Work.on, State.afterEffect_setTask carries.there, happened,
          Option.map_some, State.setTask_setTask]
      rw [State.run, stepped]
      exact run

namespace Takeover

/-- A task that takes over the work of the node: a caller with that errand, or a worker
that has the node from the queue. -/
inductive TakesOver (node : Address) (task : Task) : Prop
  | errand {rest : List Errand} (errands : task.errands = .takeOver node :: rest)
      (running : task.ended = false)
  | worker {activation : Nat} {holds : Bool} (role : task.role = .worker activation holds (some node))
      (errands : task.errands = []) (running : task.ended = false)

theorem endErrand_progress (state : State) (node : Address) (task : Task) {next : Progress}
    (unfinished : ∀ report, next ≠ .finished report) :
    state.endErrand id task (.progress next) (.takeOver node) =
      state.setTask id (task.begin (roundOf state.settings node next)) := by
  cases next
  case finished report => exact absurd rfl (unfinished report)
  all_goals rfl

theorem endRole_progress (state : State) {node : Address} {task : Task} {activation : Nat}
    {holds : Bool} (role : task.role = .worker activation holds (some node)) {next : Progress}
    (unfinished : ∀ report, next ≠ .finished report) :
    state.endRole id task (.progress next) =
      state.setTask id (task.begin (roundOf state.settings node next)) := by
  unfold State.endRole
  rw [role]
  cases next
  case finished report => exact absurd rfl (unfinished report)
  all_goals rfl

/-- After a round that is not the last the task begins the next one. -/
theorem TakesOver.proceed {state : State} {node : Address} (takesOver : TakesOver node task)
    (there : id < state.tasks.length) {next : Progress}
    (unfinished : ∀ report, next ≠ .finished report) :
    (state.setTask id (task.begin (.done (.progress next)))).step (.proceed id) =
      some (state.setTask id (task.begin (roundOf state.settings node next))) := by
  simp only [State.step, State.proceed, State.task?_setTask there, Option.bind_eq_bind,
    Option.bind_some]
  cases takesOver with
  | errand errands running =>
      simp only [Task.begin, Work.on, running, errands, Bool.false_eq_true, if_false,
        endErrand_progress _ _ _ unfinished]
      exact congrArg some (State.setTask_setTask _ _ _)
  | worker role errands running =>
      obtain ⟨taskRole, taskErrands, work, results, ended⟩ := task
      obtain rfl : taskRole = .worker _ _ _ := role
      obtain rfl : taskErrands = [] := errands
      obtain rfl : ended = false := running
      exact congrArg some ((endRole_progress _ rfl unfinished).trans (State.setTask_setTask _ _ _))

/-- Rounds that lead from one progress to another are a run in which the task alone moves. -/
theorem Reaches.run {settings : Settings} {node : Address} (takesOver : TakesOver node task)
    {progress later : Progress} {session after : Session}
    (carries : session.Carries id settings)
    (reaches : Reaches id chances settings node progress session later after) :
    after.Carries id settings ∧ ∃ events,
      (session.state.setTask id (task.begin (roundOf settings node progress))).run events =
        some (after.state.setTask id (task.begin (roundOf settings node later))) := by
  obtain ⟨count, played⟩ := reaches
  induction count generalizing progress session with
  | zero =>
      cases played
      exact ⟨carries, [], rfl⟩
  | succ count inductionHypothesis =>
      obtain ⟨⟨next, middle⟩, now, rest⟩ := Option.bind_eq_some_iff.1 played
      have wrapped : (roundOf settings node progress).play id chances session =
          some (.progress next, middle) := by
        unfold roundOf
        rw [Script.play_bind, now]
        rfl
      obtain ⟨carriesOn, events, run⟩ := Script.play_run task carries wrapped
      obtain ⟨carriesLater, more, runLater⟩ := inductionHypothesis carriesOn rest
      refine ⟨carriesLater, ?_⟩
      by_cases unfinished : ∀ report, next ≠ .finished report
      · refine ⟨events ++ .proceed id :: more, ?_⟩
        rw [State.run_append, run, Option.bind_some, State.run,
          takesOver.proceed carriesOn.there unfinished, carriesOn.settings]
        exact runLater
      · -- a finished takeover has nothing more to play
        push Not at unfinished
        obtain ⟨report, rfl⟩ := unfinished
        refine ⟨events ++ more, ?_⟩
        rw [State.run_append, run]
        exact runLater

end Takeover

end Handover
