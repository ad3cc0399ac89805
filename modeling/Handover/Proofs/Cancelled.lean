import Handover.Proofs.Accounts
import Handover.Proofs.Activations

/-!
Contract: a retry that is cancelled before its delay is over never queues its node.

Owns: when every task can only wait, and runs in which time passes only then; that a retry
has something under way only once it is due; that a retry which is not due, and whose
activation is over, does nothing any more.

A cancelled retry is over as soon as it moves, and time does not pass before it has moved.
So it never becomes due, and as activations are numbered anew, no later one revives it.
-/

set_option autoImplicit false

namespace Handover.Coordinator

/-! ## Rest -/

/-- A task makes the event by itself. The end of a call is its collaborator's doing. -/
def Event.isOwn : Event → Bool
  | .start _ => true
  | .effect _ _ _ => true
  | .proceed _ => true
  | .quit _ => true
  | _ => false

def Event.passes : Event → Bool
  | .pass _ => true
  | _ => false

namespace State

variable {state next : State} {event : Event} {events : List Event} {allowed : Act → Prop} {id : TaskId}
  {task : Task} {activation due : Nat} {node : Address}

/-- Every task can only wait. -/
def Resting (state : State) : Prop := ∀ event, event.isOwn = true → state.step event = none

/-- Time passes only when every task can only wait. -/
def Patient (state : State) (event : Event) : Prop := event.passes = true → state.Resting

theorem afterEffect_isNone_iff (wall other : Time.Instant) (draw drawn : Nat) (deed : Effect) :
    state.afterEffect wall draw deed = none ↔ state.afterEffect other drawn deed = none := by
  cases deed
  case scheduleRetry node => cases still : state.changing <;> simp [afterEffect, still]
  all_goals simp [afterEffect]

theorem step_effect_eq_none_iff (wall other : Time.Instant) (draw drawn : Nat) :
    state.step (.effect id wall draw) = none ↔ state.step (.effect id other drawn) = none := by
  cases found : state.task? id with
  | none => simp [step, found]
  | some task =>
      obtain ⟨role, errands, work, results, ended⟩ := task
      cases work with
      | none => simp [step, found]
      | some under =>
          obtain ⟨script, started⟩ := under
          cases script with
          | done => simp [step, found]
          | call => simp [step, found]
          | effect deed rest =>
              have same := state.afterEffect_isNone_iff wall other draw drawn deed
              simp only [step, found, Option.bind_eq_bind, Option.bind_some, Option.bind_eq_none_iff,
                reduceCtorEq, imp_false, ← Option.eq_none_iff_forall_ne_some]
              exact same

/-- Only tasks that are there can move, and when an effect happens does not go by its time. -/
theorem resting_iff : state.Resting ↔ ∀ id < state.tasks.length,
    state.step (.start id) = none ∧ state.step (.effect id default 0) = none ∧
      state.step (.proceed id) = none ∧ state.step (.quit id) = none := by
  constructor
  · intro resting id _
    exact ⟨resting _ rfl, resting _ rfl, resting _ rfl, resting _ rfl⟩
  · intro each event own
    have absent : ∀ id, ¬ id < state.tasks.length → state.task? id = none := fun id behind =>
      List.getElem?_eq_none (Nat.not_lt.1 behind)
    cases event
    case start id =>
      by_cases there : id < state.tasks.length
      · exact (each id there).1
      · simp [step, absent id there]
    case effect id wall draw =>
      by_cases there : id < state.tasks.length
      · exact (step_effect_eq_none_iff default wall 0 draw).1 (each id there).2.1
      · simp [step, absent id there]
    case proceed id =>
      by_cases there : id < state.tasks.length
      · exact (each id there).2.2.1
      · simp [step, proceed, absent id there]
    case quit id =>
      by_cases there : id < state.tasks.length
      · exact (each id there).2.2.2
      · simp [step, quit, absent id there]
    all_goals cases own

instance (state : State) : Decidable state.Resting := decidable_of_iff _ resting_iff.symm

instance (state : State) (event : Event) : Decidable (state.Patient event) :=
  inferInstanceAs (Decidable (_ → _))

end State

/-! ## The clock and the activations go on -/

open State

variable {state next : State} {event : Event} {events : List Event} {allowed : Act → Prop} {id : TaskId}
  {task : Task} {activation due : Nat} {node : Address}

theorem Happens.clock_le (happens : Happens state event next) : state.clock ≤ next.clock := by
  cases happens with
  | moved found goes takes => exact takes.clock.ge
  | passed millis => exact Nat.le_add_right _ _
  | _ => exact le_rfl

/-- Only the passing of time moves the clock. -/
theorem Happens.clock (happens : Happens state event next) (still : event.passes = false) :
    next.clock = state.clock := by
  cases happens with
  | moved found goes takes => exact takes.clock
  | passed millis => cases still
  | _ => rfl

/-- An activation that is over never comes back. -/
theorem Happens.stopped (happens : Happens state event next) (earlier : activation < state.activations)
    (stopped : state.isStopped activation = true) : next.isStopped activation = true := by
  cases happens with
  | @moved _ id before later act shared found goes takes =>
      have same : (shared.setTask id later).isStopped activation = shared.isStopped activation := rfl
      rw [same]
      by_cases isEnd : ∃ leader, act = .changeEnd leader
      · obtain ⟨leader, rfl⟩ := isEnd
        rw [isStopped, takes.changed.1]
        cases leader with
        | true => simpa using earlier.ne'
        | false => rfl
      · rw [isStopped, takes.group fun leader same => isEnd ⟨leader, same⟩]
        exact stopped
  | _ => exact stopped

/-! ## Moves of a retry -/

namespace State

/-- A retry that has nothing under way begins to queue its node when it is due, or is over
because its activation is. -/
theorem step_retry (found : state.task? id = some task) (role : task.role = .retry activation node due)
    (idle : task.work = none) (errands : task.errands = []) (mine : event.mover = some id)
    (stepped : state.step event = some next) :
    task.ended = false ∧ (due ≤ state.clock ∨
      state.isStopped activation = true ∧ next = state.setTask id task.close) := by
  cases event <;> cases mine
  case proceed =>
    simp only [step, proceed, found, idle, errands, Option.bind_eq_bind, Option.bind_some] at stepped
    split at stepped
    case isTrue => cases stepped
    case isFalse running =>
      refine ⟨by simpa using running, .inl ?_⟩
      simp only [beginRole, role] at stepped
      split at stepped
      case isTrue => cases stepped
      case isFalse reached => exact Nat.not_lt.1 reached
  case quit =>
    simp only [step, quit, found, idle, errands, role, Option.bind_eq_bind, Option.bind_some] at stepped
    split at stepped
    case isTrue => cases stepped
    case isFalse running =>
      split at stepped
      case isTrue stopped =>
        refine ⟨by simpa using running, .inr ⟨stopped, ?_⟩⟩
        exact (Option.some.inj stepped).symm
      case isFalse => cases stepped
  case abandon => simp [step, abandon, found, role] at stepped
  all_goals simp [step, found, idle] at stepped

/-- Retries that have something under way are due. -/
def Timed (state : State) : Prop :=
  ∀ id task activation node due, state.task? id = some task →
    task.role = .retry activation node due → task.work.isSome = true → due ≤ state.clock

theorem initial_timed (settings : Settings) (world : World) :
    (initial settings world).Timed := fun _ _ _ _ _ found => absurd found nofun

end State

/-- A retry stays what it is. -/
theorem Role.Becomes.eq_retry {role : Role} (becomes : role.Becomes (.retry activation node due)) :
    role = .retry activation node due := by
  cases becomes
  rfl

theorem Task.Sound.errands_of_retry {settings : Settings} (sound : task.Sound settings allowed)
    (role : task.role = .retry activation node due) : task.errands = [] :=
  sound.unasked (by rw [role]; rfl)

namespace State

theorem Timed.step (timed : state.Timed) (sound : state.Sound allowed)
    (stepped : state.step event = some next) : next.Timed := by
  intro id later activation node due found role busy
  have happens := State.happens stepped
  refine le_trans ?_ happens.clock_le
  rcases happens.of_task? found with ⟨task, act, shared, mine, before, goes, _⟩ | idle |
    ⟨task, before, _, work, _, same⟩
  · have was : task.role = .retry activation node due := (role ▸ goes.becomes).eq_retry
    cases work : task.work with
    | some busy => exact timed _ _ _ _ _ before was (by rw [work]; rfl)
    | none =>
        have errands := (sound.tasks before).errands_of_retry was
        obtain ⟨_, reached | ⟨_, rfl⟩⟩ := step_retry before was work errands mine stepped
        · exact reached
        · rw [task?_setTask_of_found before] at found
          cases found
          cases busy
  · rw [idle] at busy
    cases busy
  · have was : task.role = .retry activation node due := by
      rcases same with same | told
      · exact same.symm.trans role
      · exact (role ▸ told.becomes).eq_retry
    exact timed _ _ _ _ _ before was (work ▸ busy)

/-! ## Cancelled retries -/

/-- The retry is over, or it is not due and its activation is over. -/
def Cancelled (state : State) (id : TaskId) : Prop :=
  ∃ task activation node due, state.task? id = some task ∧ task.role = .retry activation node due ∧
    task.work = none ∧ (task.ended = true ∨ state.clock < due ∧ state.isStopped activation = true)

theorem Cancelled.still (cancelled : state.Cancelled id) (deed : Effect) :
    state.deed? event ≠ some (id, deed) := by
  intro own
  obtain ⟨task, _, _, _, found, _, idle, _⟩ := cancelled
  obtain ⟨_, one, known, next⟩ := of_deed? own
  cases found.symm.trans known
  obtain ⟨_, _, work⟩ := Task.work_of_effect? next
  cases idle.symm.trans work

/-- A task that can only wait is no cancelled retry, unless it is over. -/
theorem Resting.ended_of_stopped (resting : state.Resting) (sound : state.Sound allowed)
    (found : state.task? id = some task) (role : task.role = .retry activation node due)
    (stopped : state.isStopped activation = true) : task.ended = true := by
  have own := sound.tasks found
  have errands := own.errands_of_retry role
  by_contra live
  have running : task.ended = false := by simpa using live
  cases work : task.work with
  | none =>
      have waits := resting (.quit id) rfl
      simp [step, quit, found, running, work, errands, role, stopped] at waits
  | some busy =>
      obtain ⟨script, started⟩ := busy
      have duty : task.duty = .push node := by rw [Task.duty_of_none errands, role]; rfl
      have pushing : Pushing node script := Duty.Underway.pushing (duty ▸ own.underway _ _ work)
      cases pushing with
      | ended =>
          have waits := resting (.proceed id) rfl
          simp [step, proceed, found, running, work, errands] at waits
      | _ =>
          have waits := resting (.effect id default 0) rfl
          cases closed : state.closed <;> simp [step, found, work, afterEffect, closed] at waits

/-- A cancelled retry stays cancelled. -/
theorem Cancelled.step (cancelled : state.Cancelled id) (sound : state.Sound allowed) (staffed : state.Staffed)
    (patient : state.Patient event) (stepped : state.step event = some next) : next.Cancelled id := by
  obtain ⟨task, activation, node, due, found, role, idle, outcome⟩ := cancelled
  have happens := State.happens stepped
  by_cases mine : event.mover = some id
  · -- whatever it does, it is over by that
    obtain ⟨running, moved⟩ := step_retry found role idle ((sound.tasks found).errands_of_retry role) mine stepped
    rcases outcome with ended | ⟨early, _⟩
    · cases running.symm.trans ended
    · rcases moved with reached | ⟨_, rfl⟩
      · exact absurd early (Nat.not_lt.2 reached)
      · exact ⟨task.close, activation, node, due, task?_setTask_of_found found, role, rfl, .inl rfl⟩
  · have apart : ¬ task.role.Checks := by
      rintro ⟨_, _, isChecker⟩
      cases role.symm.trans isChecker
    obtain ⟨after, there, same | told⟩ := happens.still sound found mine apart
    · refine ⟨_, activation, node, due, there, same.trans role, idle, ?_⟩
      rcases outcome with ended | ⟨early, stopped⟩
      · exact .inl ended
      · cases passes : event.passes with
        | true =>
            have ended : task.ended = true := (patient passes).ended_of_stopped sound found role stopped
            exact .inl ended
        | false =>
            refine .inr ⟨?_, happens.stopped (staffed.tasks found (by rw [role]; rfl)) stopped⟩
            rw [happens.clock passes]
            exact early
    · rw [role] at told
      cases told

/-- A cancelled retry never has an effect again, not in later activations either. -/
theorem Cancelled.along (cancelled : state.Cancelled id) (sound : state.Sound fun _ => True)
    (switched : state.Switched) (staffed : state.Staffed) (patient : state.Along Patient events) :
    state.Along (fun state event => ∀ deed, state.deed? event ≠ some (id, deed)) events := by
  induction events generalizing state with
  | nil => trivial
  | cons event rest inductionHypothesis =>
      refine ⟨cancelled.still, fun next stepped => ?_⟩
      have happens := State.happens stepped
      exact inductionHypothesis (cancelled.step sound staffed patient.1 stepped)
        (happens.sound heeds_any sound) (happens.switched sound switched)
        (happens.staffed sound switched staffed) (patient.2 next stepped)

end State

end Handover.Coordinator
