import Handover.Proofs.Standby

/-!
Contract: how long a retry waits.

The delay doubles from one retry of a node to the next and is cut off at the longest delay. It
doubles twenty times at most, so that the power fits into a machine word whatever the number of the
retry: beyond that it is shorter than the formula without this bound would have it, unless the
longest delay was reached before.

Owns: the delay of each retry in closed form, with what is drawn at random; when the bound on the
doublings is felt; and that each retry of a run was scheduled with such a delay, and queues its node
no earlier.
-/

set_option autoImplicit false

namespace Handover

/-! ## Delays -/

namespace Settings

variable {settings : Settings} {attempt : Nat}

/-- The delay after so many doublings. -/
def doubled (settings : Settings) (doublings : Nat) : Nat :=
  min (settings.retryBaseMillis * 2 ^ doublings) settings.retryMaxMillis

/-- A product that stops at the limit of settings is cut off at the longest delay anyway. -/
theorem backoff_eq (fits : settings.retryMaxMillis ≤ settingLimit) :
    settings.backoff attempt = settings.doubled (min (attempt - 1) 20) := by
  unfold backoff doubled
  rw [min_assoc, min_eq_right fits]
  rfl

/-- What is drawn at random lengthens a delay by any number up to a tenth of it. -/
theorem exists_retryDelay_iff {delay : Nat} : (∃ draw, settings.retryDelay attempt draw = delay) ↔
    settings.backoff attempt ≤ delay ∧ delay ≤ settings.backoff attempt + settings.backoff attempt / 10 := by
  unfold retryDelay jitterLimit
  constructor
  · rintro ⟨draw, rfl⟩
    have drawn : draw % (settings.backoff attempt / 10 + 1) < settings.backoff attempt / 10 + 1 :=
      Nat.mod_lt draw (Nat.succ_pos _)
    omega
  · rintro ⟨least, most⟩
    refine ⟨delay - settings.backoff attempt, ?_⟩
    rw [Nat.mod_eq_of_lt (by omega)]
    omega

/-- The bound on the doublings is not felt in the first retries, nor where it is beyond the longest
delay. -/
theorem doubled_min_eq_iff : settings.doubled (min (attempt - 1) 20) = settings.doubled (attempt - 1) ↔
    attempt ≤ 21 ∨ settings.retryBaseMillis = 0 ∨
      settings.retryMaxMillis ≤ settings.retryBaseMillis * 2 ^ 20 := by
  rcases Nat.lt_or_ge 21 attempt with late | early
  · obtain ⟨more, rfl⟩ : ∃ more, attempt = more + 22 := ⟨attempt - 22, by omega⟩
    rw [show min (more + 22 - 1) 20 = 20 by omega, show more + 22 - 1 = 20 + (more + 1) by omega, doubled,
      doubled, pow_add, ← Nat.mul_assoc]
    have grows : settings.retryBaseMillis * 2 ^ 20 * 2 ≤ settings.retryBaseMillis * 2 ^ 20 * 2 ^ (more + 1) :=
      Nat.mul_le_mul_left _ (Nat.le_self_pow (Nat.succ_ne_zero more) 2)
    have nothing : settings.retryBaseMillis = 0 →
        settings.retryBaseMillis * 2 ^ 20 * 2 ^ (more + 1) = 0 := by
      intro zero
      rw [zero, Nat.zero_mul, Nat.zero_mul]
    generalize settings.retryBaseMillis * 2 ^ 20 * 2 ^ (more + 1) = full at grows nothing
    omega
  · rw [show min (attempt - 1) 20 = attempt - 1 by omega]
    exact iff_of_true rfl (.inl early)

end Settings

namespace Coordinator

open State

/-! ## How a retry comes up -/

/-- As number `attempt` in a row the retry of the node is scheduled, in the state before the event,
with one of the delays that can be drawn for this number. -/
structure State.SchedulesRetry (state : State) (event : Event) (id : TaskId) (activation : Nat)
    (node : Address) (attempt due : Nat) : Prop where
  effect : ∃ mover, state.deed? event = some (mover, .scheduleRetry node)
  fresh : id = state.tasks.length
  active : state.group.map Group.activation = some activation
  counted : attempt = state.retriesOf node + 1
  within : attempt ≤ state.settings.retryLimit
  delay : ∃ draw, due = state.clock + state.settings.retryDelay attempt draw

variable {settings : Settings} {world : World} {start state shared next : State}
  {events : List Event} {event : Event} {act : Act} {id other : TaskId} {task : Task}
  {activation due : Nat} {node : Address}

/-- Where scheduling starts a task, it is the retry with this number. -/
theorem State.schedulesRetry_of_found {draw : Nat} {mover : TaskId} {group : Group}
    (deed : state.deed? event = some (mover, .scheduleRetry node)) (active : state.group = some group)
    (absent : state.task? id = none) (found : (state.scheduleRetry node draw).task? id = some task)
    (role : task.role = .retry activation node due) :
    state.SchedulesRetry event id activation node (state.retriesOf node + 1) due := by
  by_cases exceeded : state.retriesOf node + 1 > state.settings.retryLimit
  · rw [scheduleRetry_of_exceeded active exceeded] at found
    cases absent.symm.trans found
  · rw [scheduleRetry_of_within active exceeded, spawn, task?, List.getElem?_append_right
      (List.getElem?_eq_none_iff.1 absent)] at found
    have first : id - state.tasks.length = 0 := by
      obtain ⟨below, -⟩ := List.getElem?_eq_some_iff.1 found
      exact Nat.lt_one_iff.1 below
    rw [first] at found
    cases found
    cases role
    exact {
      effect := ⟨mover, deed⟩
      fresh := Nat.le_antisymm (Nat.le_of_sub_eq_zero first) (List.getElem?_eq_none_iff.1 absent)
      active := by rw [active]; rfl
      counted := rfl
      within := Nat.not_lt.1 exceeded
      delay := ⟨draw, rfl⟩ }

/-- A retry that comes up is scheduled. -/
theorem State.Takes.schedulesRetry (takes : state.Takes other event act shared)
    (deed : state.deed? event = act.deed?.map (Prod.mk other)) (absent : state.task? id = none)
    (found : shared.task? id = some task) (role : task.role = .retry activation node due)
    (raised : state.Raised act (.retry activation node due)) :
    state.SchedulesRetry event id activation node (state.retriesOf node + 1) due := by
  cases raised with
  | retry active =>
      cases takes with
      | deed wall draw happened =>
          obtain ⟨_, rfl⟩ := afterEffect_scheduleRetry happened
          exact schedulesRetry_of_found deed active absent found role

/-- A retry was there before an event, or the event scheduled it. -/
theorem Happens.schedulesRetry (happens : Happens state event next) (found : next.task? id = some task)
    (role : task.role = .retry activation node due) :
    (∃ before, state.task? id = some before ∧ before.role = .retry activation node due) ∨
      state.SchedulesRetry event id activation node (state.retriesOf node + 1) due := by
  cases happens with
  | spawned apart outside =>
      rcases of_task?_spawn found with before | rfl
      · exact .inl ⟨task, before, role⟩
      · cases outside <;> cases role
  | @told _ other before after apart there told =>
      rcases (task?_setTask_iff there).1 found with ⟨rfl, rfl⟩ | ⟨_, same⟩
      · have same : after = .retry activation node due := role
        exact .inl ⟨before, there, (same ▸ told.becomes).eq_retry⟩
      · exact .inl ⟨task, same, role⟩
  | moved there goes takes =>
      obtain ⟨_, still⟩ := takes.there there
      rcases (task?_setTask_iff still).1 found with ⟨rfl, rfl⟩ | ⟨-, shared⟩
      · exact .inl ⟨_, there, (role ▸ goes.becomes).eq_retry⟩
      · rcases takes.of_task? shared with before | ⟨absent, fresh, rfl, raised⟩ | ⟨before, _, was, rfl, _⟩
        · exact .inl ⟨task, before, role⟩
        · have same : fresh = .retry activation node due := role
          exact .inr (takes.schedulesRetry (takes.deed? there goes) absent shared role (same ▸ raised))
        · exact .inl ⟨before, was, role⟩
  | passed millis => exact .inl ⟨task, found, role⟩
  | written entry wall => exact .inl ⟨task, found, role⟩

/-- Where a retry is to be scheduled it comes up, if the coordinator is active and the budget of the
node is not used up. -/
theorem State.step_schedulesRetry {group : Group} (deed : state.deed? event = some (id, .scheduleRetry node))
    (stepped : state.step event = some next) (active : state.group = some group)
    (within : state.retriesOf node < state.settings.retryLimit) :
    ∃ due, next.task? state.tasks.length = some (.fresh (.retry group.activation node due) []) ∧
      state.SchedulesRetry event state.tasks.length group.activation node (state.retriesOf node + 1) due := by
  obtain ⟨mover, task, found, -⟩ := of_deed? deed
  have absent : state.task? state.tasks.length = none := List.getElem?_eq_none le_rfl
  cases State.happens stepped with
  | spawned apart outside => cases mover.symm.trans apart
  | told apart there told => cases mover.symm.trans apart
  | @moved _ other before later act shared there goes takes =>
      have own := takes.deed? there goes
      rw [deed] at own
      cases takes with
      | deed wall draw happened =>
          cases own
          obtain ⟨_, rfl⟩ := afterEffect_scheduleRetry happened
          have apart : id ≠ state.tasks.length := by
            rintro rfl
            cases absent.symm.trans there
          have comes : (state.scheduleRetry node draw).task? state.tasks.length =
              some (.fresh (.retry group.activation node
                (state.clock + state.settings.retryDelay (state.retriesOf node + 1) draw)) []) := by
            rw [scheduleRetry_of_within active (Nat.not_lt.2 within), spawn, task?]
            exact List.getElem?_concat_length
          exact ⟨_, (task?_setTask_ne apart).trans comes,
            schedulesRetry_of_found deed active absent comes rfl⟩
      | _ => cases own
  | passed millis => cases mover
  | written entry wall => cases mover

/-! ## Runs -/

/-- The run scheduled the retry. -/
def State.Scheduled (start : State) (events : List Event) (id : TaskId) (activation : Nat) (node : Address)
    (attempt due : Nat) (moment : State) : Prop :=
  ∃ before event after, events = before ++ event :: after ∧ start.run before = some moment ∧
    moment.SchedulesRetry event id activation node attempt due

/-- Every retry of a run was scheduled in its course. -/
theorem run_scheduled (settings : Settings) (world : World)
    (run : (initial settings world).run events = some state) :
    state.settings = settings ∧
    ∀ id task activation node due, state.task? id = some task → task.role = .retry activation node due →
      ∃ attempt moment, moment.settings = settings ∧
        (initial settings world).Scheduled events id activation node attempt due moment := by
  refine run_induction (motive := fun events state => state.settings = settings ∧
    ∀ id task activation node due, state.task? id = some task → task.role = .retry activation node due →
      ∃ attempt moment, moment.settings = settings ∧
        (initial settings world).Scheduled events id activation node attempt due moment)
    ⟨rfl, fun id task _ _ _ found => by simp [task?, initial] at found⟩ ?_
    (along_of_forall fun _ _ => trivial) run
  rintro events event middle next - ran - stepped ⟨same, scheduled⟩
  have happens := State.happens stepped
  refine ⟨happens.settings.trans same, fun id task activation node due found role => ?_⟩
  rcases happens.schedulesRetry found role with ⟨former, before, was⟩ | schedules
  · obtain ⟨attempt, moment, kept, before, one, after, rfl, ranBefore, schedules⟩ :=
      scheduled id former activation node due before was
    exact ⟨attempt, moment, kept, before, one, after ++ [event], by simp, ranBefore, schedules⟩
  · exact ⟨_, middle, same, events, event, [], rfl, ran, schedules⟩

/-! ## The law -/

/-- How long the retries wait that a run has scheduled. -/
structure State.BacksOff (start : State) (events : List Event) (state : State) : Prop where
  /-- Where a retry is to be scheduled, the coordinator is active, and the budget of the node is not
  used up, a retry comes up. -/
  schedules : ∀ {event next id node group}, state.deed? event = some (id, .scheduleRetry node) →
    state.step event = some next → state.group = some group →
    state.retriesOf node < start.settings.retryLimit →
      ∃ due, next.task? state.tasks.length = some (.fresh (.retry group.activation node due) []) ∧
        state.SchedulesRetry event state.tasks.length group.activation node (state.retriesOf node + 1) due
  /-- Each retry was scheduled as number `attempt` in a row for its node, and is due after the delay
  for this number and at most a tenth of it more. -/
  due : ∀ {id task activation node due}, state.task? id = some task →
    task.role = .retry activation node due →
      ∃ attempt moment, start.Scheduled events id activation node attempt due moment ∧
        1 ≤ attempt ∧ attempt ≤ start.settings.retryLimit ∧
        moment.clock + start.settings.doubled (min (attempt - 1) 20) ≤ due ∧
        due ≤ moment.clock + start.settings.doubled (min (attempt - 1) 20) +
          start.settings.doubled (min (attempt - 1) 20) / 10
  /-- It does nothing before that. -/
  waits : ∀ {event id deed task activation node due}, state.deed? event = some (id, deed) →
    state.task? id = some task → task.role = .retry activation node due → due ≤ state.clock
  /-- Each of these delays can be drawn, and no other. -/
  drawn : ∀ attempt delay, (∃ draw, start.settings.retryDelay attempt draw = delay) ↔
    start.settings.doubled (min (attempt - 1) 20) ≤ delay ∧
      delay ≤ start.settings.doubled (min (attempt - 1) 20) +
        start.settings.doubled (min (attempt - 1) 20) / 10
  /-- The delay doubles with every retry just where the bound on the doublings is not felt. -/
  doubles : ∀ attempt,
    start.settings.doubled (min (attempt - 1) 20) = start.settings.doubled (attempt - 1) ↔
      attempt ≤ 21 ∨ start.settings.retryBaseMillis = 0 ∨
        start.settings.retryMaxMillis ≤ start.settings.retryBaseMillis * 2 ^ 20

theorem run_backs_off (fits : settings.retryMaxMillis ≤ settingLimit)
    (run : (initial settings world).run events = some state) :
    (initial settings world).BacksOff events state := by
  obtain ⟨same, scheduled⟩ := run_scheduled settings world run
  have timed := ((initial_governed settings world).run run).timed
  have drawn : ∀ attempt delay, (∃ draw, settings.retryDelay attempt draw = delay) ↔
      settings.doubled (min (attempt - 1) 20) ≤ delay ∧
        delay ≤ settings.doubled (min (attempt - 1) 20) + settings.doubled (min (attempt - 1) 20) / 10 := by
    intro attempt delay
    rw [Settings.exists_retryDelay_iff, Settings.backoff_eq fits]
  refine ⟨?schedules, ?due, ?waits, drawn, fun attempt => Settings.doubled_min_eq_iff⟩
  case schedules =>
    intro event next id node group own stepped active within
    exact step_schedulesRetry own stepped active (same ▸ within)
  case due =>
    intro id task activation node due found role
    obtain ⟨attempt, moment, kept, before, event, after, split, ran, schedules⟩ :=
      scheduled _ _ _ _ _ found role
    obtain ⟨draw, rfl⟩ := schedules.delay
    have bounds := (drawn attempt _).1 ⟨draw, rfl⟩
    refine ⟨attempt, moment, ⟨before, event, after, split, ran, schedules⟩, ?_, ?_, ?_, ?_⟩
    · rw [schedules.counted]
      exact Nat.succ_pos _
    · exact kept ▸ schedules.within
    · rw [kept]
      exact Nat.add_le_add_left bounds.1 _
    · rw [kept, Nat.add_assoc]
      exact Nat.add_le_add_left bounds.2 _
  case waits =>
    intro event id deed task activation node due own found role
    obtain ⟨-, one, known, next⟩ := of_deed? own
    cases found.symm.trans known
    obtain ⟨rest, started, work⟩ := Task.work_of_effect? next
    exact timed _ _ _ _ _ found role (by rw [work]; rfl)

/-! A takeover leaves a job that nobody can take, and 77 is drawn for the first retry. -/

private def leftAlone : World :=
  { World.initial with jobs := .ofList [⟨1, "j", ⟨"a"⟩, .running, .cron, none⟩] }

private def carriedOut (id : TaskId) : List Event := [.start id, .answer id none none]

private def leavingJob : List Event :=
  [.arrive [.report "a", .lead true], .proceed 0, .effect 0 ⟨1, 0⟩ 0, .effect 0 ⟨1, 0⟩ 0, .proceed 0,
    .proceed 0] ++ carriedOut 0 ++ [.proceed 0, .proceed 1, .proceed 1, .effect 1 ⟨1, 0⟩ 0] ++
    carriedOut 1 ++ [.proceed 1] ++ carriedOut 1 ++ carriedOut 1 ++ carriedOut 1 ++ [.proceed 1] ++
    carriedOut 1 ++ carriedOut 1 ++ carriedOut 1 ++ [.proceed 1] ++ carriedOut 1 ++ [.proceed 1] ++
    carriedOut 1 ++ carriedOut 1 ++ [.proceed 1, .effect 1 ⟨1, 0⟩ 77]

set_option maxRecDepth 4000 in
theorem run_backs_off_after_first :
    (default : Settings).retryMaxMillis ≤ settingLimit ∧ ∃ state retry,
      (initial default leftAlone).run leavingJob = some state ∧
      state.task? 3 = some retry ∧ retry.role = .retry 0 ⟨"a"⟩ 1077 ∧
      (initial default leftAlone).BacksOff leavingJob state := by
  have fits : (default : Settings).retryMaxMillis ≤ settingLimit := by decide
  have backsOff : ∀ state, (initial default leftAlone).run leavingJob = some state →
      (initial default leftAlone).BacksOff leavingJob state := fun _ run => run_backs_off fits run
  exact ⟨fits, _, _, rfl, rfl, rfl, backsOff _ rfl⟩

/-- Delays from one millisecond up to the largest number. -/
private def unboundedDelay : Settings :=
  { (default : Settings) with retryBaseMillis := 1, retryMaxMillis := settingLimit }

/-- Retry 22 is due at latest after 1153433 milliseconds, whatever is drawn, and not after the 2097152
to which one millisecond doubles in 21 steps. -/
theorem doublings_cut_off : unboundedDelay.retryBaseMillis ≤ unboundedDelay.retryMaxMillis ∧
    ∀ draw, unboundedDelay.retryDelay 22 draw <
      min (unboundedDelay.retryBaseMillis * 2 ^ (22 - 1)) unboundedDelay.retryMaxMillis := by
  refine ⟨by decide, fun draw => ?_⟩
  obtain ⟨-, most⟩ := Settings.exists_retryDelay_iff.1 ⟨draw, rfl⟩
  exact Nat.lt_of_le_of_lt most (by decide)

end Coordinator

end Handover
