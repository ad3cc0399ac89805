import Handover.Proofs.Acts
import Handover.Proofs.Alone

/-!
Contract: what each act leaves behind in what the tasks share.

Owns: the holder of the queue, the changer of the mode, the queue, the count of pending
reports and the log after an act, each as a function of the act alone; and the list of
tasks after an act, the moving task apart.
-/

set_option autoImplicit false

namespace Handover.Coordinator

variable {state : State} {event : Event} {id other : TaskId} {task later : Task}

namespace State

/-- A change of the mode touches only what belongs to the mode, and the tasks. -/
theorem changeMode_eq (state : State) (leader : Bool) :
    ∃ mode active group draining activations tasks, state.changeMode leader =
      { state with
        mode := mode
        active := active
        group := group
        draining := draining
        activations := activations
        tasks := tasks } := by
  cases leader with
  | true => exact ⟨_, _, _, _, _, _, rfl⟩
  | false =>
      cases active : state.group with
      | none =>
          exact ⟨_, _, _, _, _, _, by simp only [changeMode, deactivate, active]; rfl⟩
      | some group =>
          exact ⟨_, _, _, _, _, _, by simp only [changeMode, deactivate, active]; rfl⟩

/-- An effect touches nothing that belongs to the mode or to whoever holds the queue. -/
theorem afterEffect_eq {wall : Time.Instant} {draw : Nat} {deed : Effect} {result : deed.Result}
    {after : State} (happened : state.afterEffect wall draw deed = some (result, after)) :
    ∃ world queue pending retries tasks log, after =
      { state with
        world := world
        queue := queue
        pending := pending
        retries := retries
        tasks := tasks
        log := log } := by
  cases deed
  case scheduleRetry node =>
    obtain ⟨_, rfl⟩ := afterEffect_scheduleRetry happened
    obtain ⟨retries, raised, same⟩ := scheduleRetry_eq state node draw
    exact ⟨_, _, _, _, _, _, same⟩
  case enqueue node =>
    obtain ⟨_, rfl, _⟩ | ⟨_, rfl, _⟩ := afterEffect_enqueue happened <;> exact ⟨_, _, _, _, _, _, rfl⟩
  all_goals
    cases happened
    exact ⟨_, _, _, _, _, _, rfl⟩

end State

/-! ## What an act makes of each field -/

namespace Act

/-- The holder after an act of the task `id`. -/
def holder (id : TaskId) (before : Option TaskId) : Act → Option TaskId
  | .acquire => some id
  | .begin _ => some id
  | .finish _ outside => if outside then none else before
  | .release => none
  | .abandon => if before = some id then none else before
  | _ => before

/-- Who changes the mode after an act of the task `id`. -/
def changing (id : TaskId) (before : Option TaskId) : Act → Option TaskId
  | .changeBegin _ => some id
  | .changeEnd _ => none
  | .abandon => if before = some id then none else before
  | _ => before

/-- What an act of the task `id` adds to the log, the latest first. -/
def notes (id : TaskId) : Act → List Occurrence
  | .call request => [.called id request]
  | .deed (.enqueue node) true => [.queued node]
  | .take node => [.began id node, .taken id node]
  | .begin node => [.began id node]
  | .finish report _ => [.finished id report]
  | _ => []

def queue (before : List Address) : Act → List Address
  | .deed (.enqueue node) true => before ++ [node]
  | .take _ => before.tail
  | _ => before

def pending (before : Nat) : Act → Nat
  | .deed .countReport _ => before + 1
  | .deed .discountReport _ => before - 1
  | _ => before

def deed? : Act → Option Effect
  | .deed own _ => some own
  | _ => none

end Act

namespace State

section Fields

variable {shared : State} {act : Act} (takes : state.Takes id event act shared)

include takes

theorem Takes.fields : shared.settings = state.settings ∧ shared.closed = state.closed ∧
    shared.holder = act.holder id state.holder ∧ shared.changing = act.changing id state.changing ∧
    shared.log = act.notes id ++ state.log ∧ shared.queue = act.queue state.queue ∧
    shared.pending = act.pending state.pending ∧ shared.clock = state.clock ∧
    ((∀ leader, act ≠ .changeEnd leader) → shared.group = state.group ∧ shared.mode = state.mode ∧
      shared.active = state.active ∧ shared.activations = state.activations) := by
  cases takes with
  | @deed deed _ _ wall draw happened =>
      cases deed
      case scheduleRetry node result =>
        obtain ⟨_, rfl⟩ := afterEffect_scheduleRetry happened
        obtain ⟨retries, raised, same⟩ := scheduleRetry_eq state node draw
        rw [same]
        exact ⟨rfl, rfl, rfl, rfl, rfl, rfl, rfl, rfl, fun _ => ⟨rfl, rfl, rfl, rfl⟩⟩
      case enqueue node taken =>
        obtain ⟨rfl, rfl, _⟩ | ⟨rfl, rfl, _⟩ := afterEffect_enqueue happened
        all_goals exact ⟨rfl, rfl, rfl, rfl, rfl, rfl, rfl, rfl, fun _ => ⟨rfl, rfl, rfl, rfl⟩⟩
      all_goals
        cases happened
        exact ⟨rfl, rfl, rfl, rfl, rfl, rfl, rfl, rfl, fun _ => ⟨rfl, rfl, rfl, rfl⟩⟩
  | changeEnd leader =>
      obtain ⟨_, _, _, _, _, _, same⟩ := changeMode_eq state leader
      rw [same]
      exact ⟨rfl, rfl, rfl, rfl, rfl, rfl, rfl, rfl, fun notEnd => absurd rfl (notEnd leader)⟩
  | take active first =>
      refine ⟨rfl, rfl, rfl, rfl, rfl, ?_, rfl, rfl, fun _ => ⟨rfl, rfl, rfl, rfl⟩⟩
      simp [Act.queue, first, note]
  | _ => exact ⟨rfl, rfl, rfl, rfl, rfl, rfl, rfl, rfl, fun _ => ⟨rfl, rfl, rfl, rfl⟩⟩

theorem Takes.settings : shared.settings = state.settings := takes.fields.1

theorem Takes.closed : shared.closed = state.closed := takes.fields.2.1

theorem Takes.holder : shared.holder = act.holder id state.holder := takes.fields.2.2.1

theorem Takes.changing : shared.changing = act.changing id state.changing := takes.fields.2.2.2.1

theorem Takes.log : shared.log = act.notes id ++ state.log := takes.fields.2.2.2.2.1

theorem Takes.queue : shared.queue = act.queue state.queue := takes.fields.2.2.2.2.2.1

theorem Takes.pending : shared.pending = act.pending state.pending := takes.fields.2.2.2.2.2.2.1

theorem Takes.clock : shared.clock = state.clock := takes.fields.2.2.2.2.2.2.2.1

theorem Takes.group (notEnd : ∀ leader, act ≠ .changeEnd leader) : shared.group = state.group :=
  (takes.fields.2.2.2.2.2.2.2.2 notEnd).1

theorem Takes.mode (notEnd : ∀ leader, act ≠ .changeEnd leader) : shared.mode = state.mode :=
  (takes.fields.2.2.2.2.2.2.2.2 notEnd).2.1

theorem Takes.active (notEnd : ∀ leader, act ≠ .changeEnd leader) : shared.active = state.active :=
  (takes.fields.2.2.2.2.2.2.2.2 notEnd).2.2.1

theorem Takes.activations (notEnd : ∀ leader, act ≠ .changeEnd leader) :
    shared.activations = state.activations := (takes.fields.2.2.2.2.2.2.2.2 notEnd).2.2.2

end Fields

/-- The queue takes a node unless it is closed. -/
theorem Takes.taken {shared : State} {node : Address} {taken : Bool}
    (takes : state.Takes id event (.deed (.enqueue node) taken) shared) : taken = !state.closed := by
  cases takes with
  | deed wall draw happened =>
      obtain ⟨rfl, _, shut⟩ | ⟨rfl, _, opened⟩ := afterEffect_enqueue happened
      · rw [shut, Bool.not_true]
      · rw [opened, Bool.not_false]

/-! ## The list of tasks -/

theorem task?_spawn (found : state.task? id = some task) : (state.spawn later).task? id = some task := by
  obtain ⟨there, _⟩ := List.getElem?_eq_some_iff.1 found
  rw [task?, spawn, List.getElem?_append_left there]
  exact found

/-- A task after one has come up was there before, or is the new one. -/
theorem of_task?_spawn (found : (state.spawn later).task? id = some task) :
    state.task? id = some task ∨ task = later := by
  rw [task?, spawn, List.getElem?_append] at found
  split at found
  case isTrue => exact .inl found
  case isFalse => exact .inr (List.mem_singleton.1 (List.mem_of_getElem? found))

theorem task?_setTask_ne (apart : id ≠ other) : (state.setTask id task).task? other = state.task? other := by
  simp [setTask, task?, apart]

theorem task?_setTask_of_found (found : state.task? id = some task) :
    (state.setTask id later).task? id = some later := by
  obtain ⟨there, _⟩ := List.getElem?_eq_some_iff.1 found
  exact task?_setTask there later

theorem task?_setTask_iff (found : state.task? id = some task) {one : Task} :
    (state.setTask id later).task? other = some one ↔
      id = other ∧ one = later ∨ id ≠ other ∧ state.task? other = some one := by
  by_cases same : id = other
  · subst same
    rw [task?_setTask_of_found found]
    simp [eq_comm]
  · simp [task?_setTask_ne same, same]

/-- What comes up within the coordinator, and with which act. -/
inductive Raised (state : State) : Act → Role → Prop
  | worker : Raised state (.changeEnd true) (.worker state.activations false none)
  | checker : Raised state (.changeEnd true) (.checker state.activations state.clock)
  | retry {group : Group} (active : state.group = some group) (node : Address) (due : Nat) :
      Raised state (.deed (.scheduleRetry node) ()) (.retry group.activation node due)

/-- What an effect does to the list of tasks. -/
theorem afterEffect_tasks {wall : Time.Instant} {draw : Nat} {deed : Effect} {result : deed.Result}
    {after : State} (happened : state.afterEffect wall draw deed = some (result, after)) :
    after.tasks = state.tasks ∨ ∃ node group due, deed = .scheduleRetry node ∧ state.group = some group ∧
      after.tasks = state.tasks ++ [.fresh (.retry group.activation node due) []] := by
  cases deed
  case scheduleRetry node =>
    obtain ⟨_, rfl⟩ := afterEffect_scheduleRetry happened
    cases active : state.group with
    | none => exact .inl (by rw [scheduleRetry_of_standby active])
    | some group =>
        by_cases exceeded : state.retriesOf node + 1 > state.settings.retryLimit
        · exact .inl (by rw [scheduleRetry_of_exceeded active exceeded])
        · exact .inr ⟨node, group, _, rfl, rfl, by rw [scheduleRetry_of_within active exceeded]; rfl⟩
  case enqueue node =>
    obtain ⟨_, rfl, _⟩ | ⟨_, rfl, _⟩ := afterEffect_enqueue happened <;> exact .inl rfl
  all_goals
    cases happened
    exact .inl rfl

/-- What a moving task does to the list of tasks, itself apart. -/
theorem Takes.tasks {act : Act} {shared : State} (takes : state.Takes id event act shared) :
    (∃ raised, shared.tasks = state.tasks ++ raised ∧
      ∀ one ∈ raised, ∃ role, one = .fresh role [] ∧ Raised state act role) ∨
    (act = .changeEnd false ∧ ∃ group, state.group = some group ∧
      shared.tasks = state.tasks.modify group.checker Task.close) := by
  cases takes
  case deed happened =>
    rcases afterEffect_tasks happened with same | ⟨node, group, due, rfl, active, same⟩
    · exact .inl ⟨[], by simp [same], by simp⟩
    · refine .inl ⟨_, same, ?_⟩
      intro one member
      exact ⟨_, List.mem_singleton.1 member, .retry active node due⟩
  case changeEnd leader =>
    cases leader with
    | true =>
        refine .inl ⟨_, rfl, ?_⟩
        intro one member
        rcases List.mem_cons.1 member with rfl | member
        · exact ⟨_, rfl, .worker⟩
        · exact ⟨_, List.mem_singleton.1 member, .checker⟩
    | false =>
        cases active : state.group with
        | none => exact .inl ⟨[], by simp [changeMode, deactivate, active], by simp⟩
        | some group => exact .inr ⟨rfl, group, rfl, by simp [changeMode, deactivate, active]⟩
  all_goals exact .inl ⟨[], (List.append_nil _).symm, by simp⟩

/-- A moving task leaves every other task there. -/
theorem Takes.task? {act : Act} {shared : State} (takes : state.Takes id event act shared)
    (found : state.task? other = some task) : shared.task? other = some task ∨
      act = .changeEnd false ∧ shared.task? other = some task.close ∧
        ∃ group, state.group = some group ∧ group.checker = other := by
  rcases takes.tasks with ⟨raised, same, _⟩ | ⟨isEnd, group, active, same⟩
  · left
    obtain ⟨there, _⟩ := List.getElem?_eq_some_iff.1 found
    rw [State.task?, same, List.getElem?_append_left there]
    exact found
  · by_cases isChecker : group.checker = other
    · right
      refine ⟨isEnd, ?_, group, active, isChecker⟩
      rw [State.task?] at found
      rw [State.task?, same, List.getElem?_modify, found, Option.map_eq_map, Option.map_some,
        if_pos isChecker]
    · left
      rw [State.task?] at found
      rw [State.task?, same, List.getElem?_modify, found, Option.map_eq_map, Option.map_some,
        if_neg isChecker]

/-- A task of the node after a task has moved was there before, or came up, or was cut off. -/
theorem Takes.of_task? {act : Act} {shared : State} (takes : state.Takes id event act shared)
    (found : shared.task? other = some later) : state.task? other = some later ∨
      (state.task? other = none ∧ ∃ role, later = .fresh role [] ∧ Raised state act role) ∨
      ∃ before group, state.task? other = some before ∧ later = before.close ∧
        state.group = some group ∧ group.checker = other := by
  rcases takes.tasks with ⟨raised, same, fresh⟩ | ⟨_, group, active, same⟩
  · rw [State.task?, same] at found
    by_cases there : other < state.tasks.length
    · rw [List.getElem?_append_left there] at found
      exact .inl found
    · have behind := Nat.not_lt.1 there
      rw [List.getElem?_append_right behind] at found
      exact .inr (.inl ⟨List.getElem?_eq_none behind, fresh later (List.mem_of_getElem? found)⟩)
  · rw [State.task?, same, List.getElem?_modify, Option.map_eq_map] at found
    obtain ⟨before, was, changed⟩ := Option.map_eq_some_iff.1 found
    split at changed
    case isTrue isChecker => exact .inr (.inr ⟨before, group, was, changed.symm, active, isChecker⟩)
    case isFalse => exact .inl (changed ▸ was)

theorem Takes.there {act : Act} {shared : State} (takes : state.Takes id event act shared)
    (found : state.task? other = some task) : ∃ one, shared.task? other = some one := by
  rcases takes.task? found with same | ⟨_, closed, _⟩
  · exact ⟨_, same⟩
  · exact ⟨_, closed⟩

end State

/-! ## The queue stays open -/

theorem Happens.closed {next : State} (happens : Happens state event next) : next.closed = state.closed := by
  cases happens with
  | moved _ _ takes => exact takes.closed
  | _ => rfl

/-- Nothing that happens closes the queue, or opens it. -/
theorem State.step_closed {next : State} (stepped : state.step event = some next) :
    next.closed = state.closed := (happens stepped).closed

end Handover.Coordinator
