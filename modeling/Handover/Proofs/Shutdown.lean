import Handover.Proofs.Tracking

/-!
Contract: when a shutdown returns, every recovery worker has ended.

Owns: which tasks change the leadership or wait in a shutdown; what others can do to the mode
while one task alone does so; the stages of a shutdown; and what is left when it has returned.

A shutdown goes to standby, takes the whole list of workers that drain, and waits for them. No
worker is lost sight of. So a worker that had not ended would be of the present activation, or
on the list, or awaited by another shutdown, and each of these is ruled out at its stage.
-/

set_option autoImplicit false

namespace Handover.Coordinator

/-! ## Who sees to the leadership -/

/-- The task changes the leadership, or waits for workers to end. -/
def Task.presides (task : Task) : Bool :=
  match task.errands with
  | .lead _ :: _ => task.work.isSome
  | .await _ :: _ => true
  | _ => false

theorem Task.presides_of_steers {task : Task} {leader : Bool} (steers : task.steers? = some leader) :
    task.presides = true := by
  obtain ⟨duty, work, busy⟩ := Task.of_steers? steers
  cases errands : task.errands with
  | nil => cases (Task.steers?_of_role errands).symm.trans steers
  | cons errand rest =>
      rw [Task.duty_of_errands errands] at duty
      cases errand with
      | lead own => simp [presides, errands, busy]
      | _ => cases duty

theorem Task.steers?_of_await {task : Task} {workers : List TaskId} {rest : List Errand}
    (errands : task.errands = .await workers :: rest) : task.steers? = none := by
  cases steers : task.steers? with
  | none => rfl
  | some leader => cases (Task.of_steers? steers).1.symm.trans (Task.duty_of_errands errands)

theorem Task.presides_of_awaited {task : Task} (waits : task.awaited ≠ []) : task.presides = true := by
  unfold presides
  split
  case h_1 errands => exact absurd (Task.awaited_of_errands errands (by simp)) waits
  case h_2 => rfl
  case h_3 notLead notAwait =>
    refine absurd ?_ waits
    unfold Task.awaited
    split
    case h_1 workers rest errands => exact absurd errands (notAwait workers rest)
    case h_2 => rfl

/-- The act changes the mode for nobody. -/
def Act.KeepsMode (act : Act) : Prop := ∀ leader, act ≠ .changeEnd leader

namespace State

variable {state next shared : State} {id other : TaskId} {event : Event} {task later : Task} {act : Act}

/-- No task but the one with the number changes the leadership or waits in a shutdown. -/
def Uncontested (state : State) (id : TaskId) : Prop :=
  ∀ other < state.tasks.length, state.look Task.presides false other = true → other = id

instance (state : State) (id : TaskId) : Decidable (state.Uncontested id) :=
  inferInstanceAs (Decidable (∀ other < state.tasks.length,
    state.look Task.presides false other = true → other = id))

theorem Uncontested.eq (uncontested : state.Uncontested id) (found : state.task? other = some task)
    (presides : task.presides = true) : other = id := by
  obtain ⟨there, _⟩ := List.getElem?_eq_some_iff.1 found
  exact uncontested other there ((look_of_found found).trans presides)

/-- Nobody else ends a change of the mode. -/
theorem Uncontested.heeds (uncontested : state.Uncontested id) (away : event.mover ≠ some id) :
    state.Heeds Act.KeepsMode event := by
  rintro other task _ later shared found goes takes leader rfl
  have steers : task.steers? = some leader := goes.steers.1
  obtain rfl := uncontested.eq found (Task.presides_of_steers steers)
  exact away takes.mover

/-- A task that does not change the mode does not end such a change. -/
theorem heeds_of_not_steers (found : state.task? id = some task) (own : event.mover = some id)
    (away : task.steers? = none) : state.Heeds Act.KeepsMode event := by
  rintro other one _ later shared there goes takes leader rfl
  obtain rfl := Option.some.inj (own.symm.trans takes.mover)
  cases found.symm.trans there
  have steers : task.steers? = some leader := goes.steers.1
  cases away.symm.trans steers

/-- Nobody else gives up on a shutdown. -/
theorem Uncontested.waits (uncontested : state.Uncontested id) (kept : event ≠ .abandon id) :
    state.Waits event := by
  cases event with
  | abandon other =>
      intro task found
      by_contra waits
      obtain rfl := uncontested.eq found (Task.presides_of_awaited waits)
      exact kept rfl
  | _ => trivial

end State

section Others

open State

variable {state next : State} {event : Event}

theorem Happens.group (happens : Happens state event next) (heeds : state.Heeds Act.KeepsMode event) :
    next.group = state.group ∧ next.mode = state.mode := by
  cases happens with
  | moved found goes takes =>
      have keeps := heeds _ _ _ _ _ found goes takes
      exact ⟨takes.group keeps, takes.mode keeps⟩
  | _ => exact ⟨rfl, rfl⟩

/-- Only the end of a change of the mode puts a worker on the list of those that drain. -/
theorem Happens.draining_nil (happens : Happens state event next) (heeds : state.Heeds Act.KeepsMode event)
    (none : state.draining = []) : next.draining = [] := by
  cases happens with
  | @moved _ id task later act shared found goes takes =>
      have keeps := heeds _ _ _ _ _ found goes takes
      change shared.draining = []
      rw [takes.draining]
      cases act
      case changeEnd leader => exact absurd rfl (keeps leader)
      all_goals simp [drainingAfter, prune, none]
  | _ => exact none

/-- A task that is no checker moves by itself, or it is told something. -/
theorem Happens.own_or_still {allowed : Act → Prop} {id : TaskId} {task : Task}
    (happens : Happens state event next) (sound : state.Sound allowed) (found : state.task? id = some task)
    (apart : ¬ task.role.Checks) :
    (∃ act later shared, event.mover = some id ∧ task.Goes state.settings act later ∧
      state.Takes id event act shared ∧ next = shared.setTask id later ∧ next.task? id = some later) ∨
    (event.mover ≠ some id ∧ ∃ role, next.task? id = some { task with role := role } ∧
      (role = task.role ∨ task.role.Told role)) := by
  by_cases away : event.mover = some id
  · cases happens with
    | moved there goes takes =>
        obtain rfl := Option.some.inj (takes.mover.symm.trans away)
        cases found.symm.trans there
        obtain ⟨_, still⟩ := takes.there there
        exact .inl ⟨_, _, _, away, goes, takes, rfl, task?_setTask_of_found still⟩
    | spawned none => cases none.symm.trans away
    | told none => cases none.symm.trans away
    | passed => cases away
    | written => cases away
  · exact .inr ⟨away, happens.still sound found away apart⟩

end Others

/-! ## A change of the leadership -/

section Goes

variable {settings : Settings} {task later : Task} {act : Act} {rest : List Errand} {leader : Bool}

/-- How a task goes on whose first errand is a change of the leadership. -/
theorem Task.Goes.of_lead (goes : task.Goes settings act later) (errands : task.errands = .lead leader :: rest) :
    (act = .abandon ∧ task.role = .caller ∧ later = task.close) ∨
      (act.KeepsMode ∧ later.errands = task.errands ∧ later.results = task.results ∧
        later.role = task.role ∧ later.ended = task.ended) ∨
      ((act = .changeEnd leader ∨ act = .changeNone leader) ∧ task.ended = false ∧
        ∃ outcome, later = task.completed outcome) := by
  cases goes
  case abandoned role => exact .inl ⟨rfl, role, rfl⟩
  case started => exact .inr (.inl ⟨nofun, rfl, rfl, rfl, rfl⟩)
  case replied => exact .inr (.inl ⟨nofun, rfl, rfl, rfl, rfl⟩)
  case acted => exact .inr (.inl ⟨nofun, rfl, rfl, rfl, rfl⟩)
  case errandBegun own begins =>
    cases errands.symm.trans own
    cases begins
    exact .inr (.inl ⟨nofun, rfl, rfl, rfl, rfl⟩)
  case errandEnded running _ own ends =>
    cases errands.symm.trans own
    cases ends with
    | lead => exact .inr (.inr ⟨.inl rfl, running, _, rfl⟩)
    | other notLead _ => exact absurd rfl (notLead leader)
  case leadSkipped running _ own =>
    cases errands.symm.trans own
    exact .inr (.inr ⟨.inr rfl, running, .nothing, rfl⟩)
  all_goals simp_all

/-- Once a change of the leadership is done, the mode is as it was asked for. -/
theorem State.Takes.mode_of_lead {state shared : State} {id : TaskId} {event : Event}
    (takes : state.Takes id event act shared) (ends : act = .changeEnd leader ∨ act = .changeNone leader) :
    (shared.mode == .active) = leader := by
  rcases ends with rfl | rfl
  · exact takes.changed.2.1
  · cases takes with
    | changeNone _ still same => exact same.symm

end Goes

/-! ## The stages of a shutdown -/

namespace State

/-- What a shutdown leaves behind: no activation, and no worker that has not ended. -/
structure Drained (state : State) : Prop where
  inactive : state.group = none
  workers : ∀ {worker task}, state.task? worker = some task → task.role.works = true → task.ended = true

/-- How far a shutdown has come that the task was asked for before `rest`, when it had so many
results. -/
inductive Shutting (rest : List Errand) (results : Nat) (state : State) (task : Task) : Prop
  /-- It goes to standby. -/
  | leading (errands : task.errands = .lead false :: .drain :: rest) (count : task.results.length = results)
  /-- It takes the list of workers that drain. -/
  | draining (errands : task.errands = .drain :: rest) (count : task.results.length = results + 1)
      (inactive : state.group = none)
  | awaiting {workers : List TaskId} (errands : task.errands = .await workers :: rest)
      (count : task.results.length = results + 1) (inactive : state.group = none)
      (emptied : state.draining = [])

section Stages

variable {state next shared : State} {id : TaskId} {event : Event} {task later : Task} {act : Act}
  {rest : List Errand} {results : Nat}

theorem Shutting.count_le (shutting : Shutting rest results state task) : task.results.length ≤ results + 1 := by
  cases shutting <;> omega

/-- A shutdown is where it is while others move. -/
theorem Shutting.still (shutting : Shutting rest results state task) (happens : Happens state event next)
    (heeds : state.Heeds Act.KeepsMode event) (errands : later.errands = task.errands)
    (same : later.results = task.results) : Shutting rest results next later := by
  have group := (happens.group heeds).1
  cases shutting with
  | leading own count => exact .leading (errands.trans own) (same ▸ count)
  | draining own count inactive =>
      exact .draining (errands.trans own) (same ▸ count) (group.trans inactive)
  | awaiting own count inactive emptied =>
      exact .awaiting (errands.trans own) (same ▸ count) (group.trans inactive)
        (happens.draining_nil heeds emptied)

/-- How a shutdown goes on: it is given up on, or it comes closer to its end, or it returns,
and then there is no worker left to wait for. -/
theorem Shutting.goes (shutting : Shutting rest results state task) (staffed : state.Staffed)
    (calm : task.Calm) (goes : task.Goes state.settings act later) (takes : state.Takes id event act shared) :
    (act = .abandon ∧ task.role = .caller ∧ later = task.close) ∨
      (Shutting rest results (shared.setTask id later) later ∧ later.role = task.role ∧
        later.ended = task.ended) ∨
      (task.errands = .await [] :: rest ∧ state.group = none ∧ state.draining = [] ∧
        later = task.completed .nothing ∧ later.results.length = results + 2) := by
  cases shutting with
  | leading errands count =>
      rcases goes.of_lead errands with given | ⟨_, same, kept, role, ended⟩ | ⟨ends, _, outcome, rfl⟩
      · exact .inl given
      · exact .inr (.inl ⟨.leading (same.trans errands) (kept ▸ count), role, ended⟩)
      · refine .inr (.inl ⟨.draining ?_ ?_ ?_, rfl, rfl⟩)
        · simp [Task.completed, errands]
        · simp [Task.completed, count]
        · have mode := takes.mode_of_lead ends
          rcases ends with rfl | rfl
          · exact takes.changed.1
          · cases takes
            have inactive : state.group.isSome = false := staffed.mode.symm.trans mode
            have none : state.group = none := by simpa using inactive
            exact none
  | draining errands count inactive =>
      rcases goes.of_drain calm errands with given | ⟨workers, rfl, rfl⟩
      · exact .inl given
      · refine .inr (.inl ⟨.awaiting rfl count ?_ ?_, rfl, rfl⟩)
        · exact (takes.group fun _ same => by cases same).trans inactive
        · exact takes.draining
  | @awaiting workers errands count inactive emptied =>
      rcases goes.of_await calm errands with given | ⟨rfl, _, ⟨rfl, rfl⟩ | ⟨first, others, rfl, rfl⟩⟩
      · exact .inl given
      · exact .inr (.inr ⟨errands, inactive, emptied, rfl, by simp [Task.completed, count]⟩)
      · refine .inr (.inl ⟨.awaiting rfl count ?_ ?_, rfl, rfl⟩)
        · exact (takes.group fun _ same => by cases same).trans inactive
        · exact takes.draining.trans emptied

end Stages

/-! ## Workers that have ended -/

section Ended

variable {state next returned later : State} {id worker : TaskId} {event : Event} {events : List Event}
  {task : Task} {allowed : Act → Prop}

/-- Where one task alone sees to the leadership, on standby, with nobody on the list and nobody
to wait for, no worker is left. -/
theorem Tended.drained (tended : state.Tended) (uncontested : state.Uncontested id)
    (found : state.task? id = some task) (nobody : task.awaited = []) (inactive : state.group = none)
    (emptied : state.draining = []) : state.Drained where
  inactive := inactive
  workers := by
    intro worker one there works
    cases tended.tracked there works with
    | present active _ => cases inactive.symm.trans active
    | draining listed => simp [emptied] at listed
    | awaited known waits =>
        obtain rfl := uncontested.eq known (Task.presides_of_awaited (List.ne_nil_of_mem waits))
        cases found.symm.trans known
        simp [nobody] at waits
    | ended known atRest =>
        cases there.symm.trans known
        exact atRest

/-- Only the end of a change of the mode brings a new worker. -/
theorem Drained.step (drained : state.Drained) (happens : Happens state event next)
    (heeds : state.Heeds Act.KeepsMode event) : next.Drained where
  inactive := (happens.group heeds).1.trans drained.inactive
  workers := by
    intro worker one found works
    cases happens with
    | spawned _ outside =>
        rcases of_task?_spawn found with before | rfl
        · exact drained.workers before works
        · cases (Role.kind_works.outside outside).symm.trans works
    | told _ there told =>
        rcases (task?_setTask_iff there).1 found with ⟨rfl, rfl⟩ | ⟨_, before⟩
        · have rests := drained.workers there ((Role.kind_works.becomes told.becomes).symm.trans works)
          exact rests
        · exact drained.workers before works
    | @moved _ id task later act shared there goes takes =>
        have keeps := heeds _ _ _ _ _ there goes takes
        obtain ⟨_, still⟩ := takes.there there
        rcases (task?_setTask_iff still).1 found with ⟨rfl, rfl⟩ | ⟨_, after⟩
        · have atRest := drained.workers there ((Role.kind_works.becomes goes.becomes).symm.trans works)
          cases running : one.ended with
          | true => rfl
          | false => exact absurd ((goes.of_running running).symm.trans atRest) nofun
        · rcases takes.of_task? after with before | ⟨_, role, rfl, raised⟩ | ⟨_, _, _, rfl, _⟩
          · exact drained.workers before works
          · cases raised with
            | worker => exact absurd rfl (keeps true)
            | checker => cases works
            | retry => cases works
          · rfl
    | passed millis => exact drained.workers found works
    | written entry wall => exact drained.workers found works

end Ended

end State

/-- A task that has ended does not move, but a caller can be given up on again. -/
theorem Task.Goes.running {settings : Settings} {task later : Task} {act : Act} {allowed : Act → Prop}
    (goes : task.Goes settings act later) (sound : task.Sound settings allowed) :
    task.ended = false ∨ task.role = .caller ∧ later = task.close := by
  cases goes with
  | started work => exact .inl (sound.running work)
  | replied work reply => exact .inl (sound.running work)
  | acted work result => exact .inl (sound.running work)
  | abandoned role => exact .inr ⟨role, rfl⟩
  | _ => exact .inl ‹_›

namespace State

section Retired

variable {state next later : State} {id : TaskId} {event : Event} {events : List Event} {task : Task}
  {allowed : Act → Prop}

theorem Sound.step_of_ended (sound : state.Sound allowed) (found : state.task? id = some task)
    (atRest : task.ended = true) (notCaller : task.role ≠ .caller) (own : event.mover = some id) :
    state.step event = none := by
  cases stepped : state.step event with
  | none => rfl
  | some next =>
      have apart : ∀ {former : Task}, state.task? id = some former → former = task := fun there =>
        Option.some.inj (there.symm.trans found)
      cases State.happens stepped with
      | moved there goes takes =>
          obtain rfl := Option.some.inj (takes.mover.symm.trans own)
          obtain rfl := apart there
          rcases goes.running (sound.tasks found) with running | ⟨caller, _⟩
          · cases running.symm.trans atRest
          · exact absurd caller notCaller
      | spawned none => cases none.symm.trans own
      | told none => cases none.symm.trans own
      | passed => cases own
      | written => cases own

/-- A worker that has ended stays as it is. -/
theorem Governed.worker_stays (governed : state.Governed) (found : state.task? id = some task)
    (works : task.role.works = true) (atRest : task.ended = true) (run : state.run events = some later) :
    later.task? id = some task := by
  have worker : ∃ activation holds node, task.role = .worker activation holds node := by
    cases role : task.role with
    | worker activation holds node => exact ⟨_, _, _, rfl⟩
    | _ => simp [role, Role.works] at works
  obtain ⟨_, _, _, role⟩ := worker
  refine (run_induction (motive := fun _ after => after.Governed ∧ after.task? id = some task)
    ⟨governed, found⟩ ?_ (along_of_forall fun _ _ => trivial) run).2
  rintro _ event middle next - - - stepped ⟨governed, there⟩
  refine ⟨governed.step stepped, ?_⟩
  have away : event.mover ≠ some id := fun own => by
    cases (governed.sound.step_of_ended there atRest (by simp [role]) own).symm.trans stepped
  obtain ⟨after, known, same | told⟩ := (State.happens stepped).still governed.sound there away
    (by simp [Role.Checks, role])
  · rw [known, same]
  · rw [role] at told
    cases told

end Retired

end State

/-! ## The run of a shutdown -/

theorem Role.Becomes.takesErrands {role after : Role} (becomes : role.Becomes after) :
    after.takesErrands = role.takesErrands := by
  cases becomes <;> rfl

theorem Role.not_checks_of_takesErrands {role : Role} (asked : role.takesErrands = true) : ¬ role.Checks := by
  rintro ⟨_, _, rfl⟩
  cases asked

theorem Task.Goes.results_le {settings : Settings} {task later : Task} {act : Act}
    (goes : task.Goes settings act later) : task.results.length ≤ later.results.length := by
  cases goes with
  | errandEnded => simp [Task.completed]
  | leadSkipped => simp [Task.completed]
  | awaitedAll => simp [Task.completed]
  | _ => exact le_rfl

theorem Task.Goes.of_abandon {settings : Settings} {task later : Task} (goes : task.Goes settings .abandon later) :
    later.ended = true := by
  cases goes with
  | abandoned => rfl
  | errandBegun _ _ _ begins => cases begins
  | errandEnded _ _ _ ends => cases ends
  | roleBegun _ _ _ begins =>
      generalize task.role = role at begins
      cases begins

theorem State.Takes.of_abandon {state shared : State} {id other : TaskId} {act : Act}
    (takes : state.Takes id (.abandon other) act shared) : act = .abandon := by
  cases takes with
  | quiet own => rcases own with own | own <;> cases own
  | abandon => rfl

namespace State

section Run

variable {begun state last next returned : State} {id : TaskId} {event : Event} {during events : List Event}
  {task first : Task} {rest : List Errand} {results : Nat}

/-- How many of its errands the task has done. -/
def resultCount (state : State) (id : TaskId) : Nat := state.look (fun task => task.results.length) 0 id

/-- A shutdown that the task was asked for is under way, or it is over, or it was given up on. -/
structure Stepping (rest : List Errand) (results : Nat) (state : State) (id : TaskId) : Prop where
  governed : state.Governed
  stage : ∃ task, state.task? id = some task ∧ task.role.takesErrands = true ∧
    (task.ended = false → task.results.length ≤ results + 1 →
      state.Tended ∧ Shutting rest results state task)

theorem Stepping.step (stepping : Stepping rest results state id) (uncontested : state.Uncontested id)
    (stepped : state.step event = some next) : Stepping rest results next id := by
  obtain ⟨governed, task, found, asked, stage⟩ := stepping
  have happens := State.happens stepped
  refine ⟨governed.step stepped, ?_⟩
  rcases happens.own_or_still governed.sound found (Role.not_checks_of_takesErrands asked) with
    ⟨act, later, shared, own, goes, takes, rfl, there⟩ | ⟨away, role, there, told⟩
  · refine ⟨later, there, goes.becomes.takesErrands.trans asked, fun running few => ?_⟩
    have kept : event ≠ .abandon id := by
      rintro rfl
      obtain rfl := takes.of_abandon
      cases goes.of_abandon.symm.trans running
    obtain ⟨tended, shutting⟩ := stage (goes.of_running running) (goes.results_le.trans few)
    refine ⟨tended.step (uncontested.waits kept) stepped, ?_⟩
    rcases shutting.goes governed.staffed (tended.calm found) goes takes with
      ⟨_, _, rfl⟩ | ⟨further, _⟩ | ⟨_, _, _, _, count⟩
    · cases running
    · exact further
    · omega
  · refine ⟨_, there, ?_, fun running few => ?_⟩
    · rcases told with same | told
      · exact same ▸ asked
      · exact told.takesErrands.trans asked
    · obtain ⟨tended, shutting⟩ := stage running few
      have kept : event ≠ .abandon id := fun same => away (by rw [same]; rfl)
      exact ⟨tended.step (uncontested.waits kept) stepped,
        shutting.still happens (uncontested.heeds away) rfl rfl⟩

/-- The task was asked for a shutdown, and for `rest` after that. Nobody else changed the
leadership or waited in a shutdown, and with the last event of `during` it has returned. -/
structure ShutsDown (begun : State) (id : TaskId) (during : List Event) (returned : State) : Prop where
  called : ∃ task rest, begun.task? id = some task ∧ task.errands = Errand.shutdown ++ rest
  run : begun.run during = some returned
  uncontested : begun.Along (fun state _ => state.Uncontested id) during
  returns : ∃ earlier event last, during = earlier ++ [event] ∧ begun.run earlier = some last ∧
    last.resultCount id = begun.resultCount id + 1 ∧ returned.resultCount id = begun.resultCount id + 2

/-- The node is on standby, and no recovery worker of any activation does anything any more. -/
structure Withdrawn (state : State) : Prop where
  mode : state.mode = .standby
  shown : state.shownMode = .standby
  drained : state.Drained
  /-- No worker has a takeover under way, and none ever moves again. -/
  retired : ∀ {worker task events later}, state.task? worker = some task → task.role.works = true →
    state.run events = some later →
      task.work = none ∧ later.task? worker = some task ∧
        ∀ event, event.mover = some worker → later.step event = none

theorem Drained.withdrawn (drained : state.Drained) (governed : state.Governed) : state.Withdrawn where
  mode := by
    have mode := governed.staffed.mode
    rw [drained.inactive] at mode
    cases standby : state.mode with
    | standby => rfl
    | active => simp [standby] at mode
  shown := by
    have shown := governed.staffed.shown
    rw [drained.inactive] at shown
    rw [shownMode, shown]
    rfl
  drained := drained
  retired := by
    intro worker task events later found works run
    have atRest := drained.workers found works
    have there := governed.worker_stays found works atRest run
    refine ⟨(governed.sound.tasks found).rests atRest, there, fun event own => ?_⟩
    refine (governed.run run).sound.step_of_ended there atRest (fun caller => ?_) own
    rw [caller] at works
    cases works

/-- A shutdown that overlaps with no other, and with no change of the leadership, leaves no
worker behind when it returns. -/
theorem Tended.withdrawn (tended : begun.Tended) (shutsDown : begun.ShutsDown id during returned) :
    returned.Withdrawn := by
  obtain ⟨⟨first, rest, called, errands⟩, run, uncontested, earlier, event, last, rfl, ran, before, after⟩ :=
    shutsDown
  have count : begun.resultCount id = first.results.length := look_of_found called
  have asked : first.role.takesErrands = true := by
    have notUnasked := (tended.governed.sound.tasks called).not_unasked errands
    simpa using notUnasked
  have stepping : Stepping rest first.results.length begun id :=
    ⟨tended.governed, first, called, asked, fun _ _ => ⟨tended, .leading errands rfl⟩⟩
  obtain ⟨along, atLast⟩ := along_append.1 uncontested
  have stepping : Stepping rest first.results.length last id :=
    run_induction (motive := fun _ state => Stepping rest first.results.length state id) stepping
      (fun _ _ uncontested stepped stepping => stepping.step uncontested stepped) along ran
  have stepped : last.step event = some returned := by
    rw [run_snoc, ran] at run
    exact run
  have uncontested : last.Uncontested id := (atLast last ran).1
  obtain ⟨governed, task, found, asked, stage⟩ := stepping
  have countLast : last.resultCount id = task.results.length := look_of_found found
  have happens := State.happens stepped
  rcases happens.own_or_still governed.sound found (Role.not_checks_of_takesErrands asked) with
    ⟨act, later, shared, own, goes, takes, rfl, there⟩ | ⟨away, role, there, _⟩
  · have countReturned : (shared.setTask id later).resultCount id = later.results.length := look_of_found there
    have given : later ≠ task.close := by
      rintro rfl
      have same : task.close.results = task.results := rfl
      rw [same] at countReturned
      omega
    have running : task.ended = false := by
      rcases goes.running (governed.sound.tasks found) with running | ⟨_, closed⟩
      · exact running
      · exact absurd closed given
    obtain ⟨tended, shutting⟩ := stage running (by omega)
    rcases shutting.goes governed.staffed (tended.calm found) goes takes with
      ⟨_, _, closed⟩ | ⟨further, _⟩ | ⟨errands, inactive, emptied, _, _⟩
    · exact absurd closed given
    · have few := further.count_le
      omega
    · have nobody : task.awaited = [] := by rw [Task.awaited, errands]
      have drained := tended.drained uncontested found nobody inactive emptied
      have heeds := heeds_of_not_steers found own (Task.steers?_of_await errands)
      exact (drained.step happens heeds).withdrawn (governed.step stepped)
  · have countReturned : returned.resultCount id = task.results.length := by
      rw [resultCount, look_of_found there]
    omega

/-- On every run in which no shutdown was given up on while it waited, no worker is lost sight
of, and a shutdown that overlaps with no other one and with no change of the leadership leaves
no worker behind. -/
theorem run_withdraws (settings : Settings) (world : World)
    (waits : (initial settings world).Along Waits events)
    (run : (initial settings world).run events = some begun) :
    (∀ {worker task}, begun.task? worker = some task → task.role.works = true → begun.Tracked worker) ∧
      ∀ {id during returned}, begun.ShutsDown id during returned → returned.Withdrawn :=
  have tended := (initial_tended settings world).run waits run
  ⟨tended.tracked, tended.withdrawn⟩

end Run

/-! The leadership comes, goes and comes again while a worker is at a node, so that the worker of
the second activation cannot get hold of the queue. Then a shutdown waits for both. -/

/-- The next call of the task is made and carried out. -/
def carriedOut (id : TaskId) : List Event := [.start id, .answer id none none]

/-- A worker takes over a node that has no work. -/
def emptyTakeover (id : TaskId) : List Event :=
  [.effect id ⟨1, 0⟩ 0] ++ carriedOut id ++ [.proceed id] ++ carriedOut id ++ carriedOut id ++ [.proceed id] ++
    carriedOut id ++ [.proceed id] ++ carriedOut id ++ carriedOut id ++ [.proceed id, .effect id ⟨1, 0⟩ 0] ++
    carriedOut id ++ [.proceed id]

private def flapping : List Event :=
  [.arrive [.report "a", .lead true], .proceed 0, .effect 0 ⟨1, 0⟩ 0, .effect 0 ⟨1, 0⟩ 0, .proceed 0,
    .proceed 0] ++ carriedOut 0 ++ [.proceed 0, .proceed 1, .proceed 1, .arrive [.lead false], .proceed 3] ++
    carriedOut 3 ++ [.proceed 3, .arrive [.lead true], .proceed 4] ++ carriedOut 4 ++
    [.proceed 4, .arrive Errand.shutdown]

private def steppingDown : List Event :=
  [.proceed 7] ++ carriedOut 7 ++ [.proceed 7, .proceed 7, .quit 5] ++ emptyTakeover 1 ++
    [.quit 1, .proceed 7, .proceed 7]

set_option maxRecDepth 4000 in
theorem run_withdraws_of_flapping : ∃ begun returned first second,
    (initial default .initial).Along Waits flapping ∧
      (initial default .initial).run flapping = some begun ∧
      begun.task? 1 = some first ∧ first.role = .worker 0 true (some ⟨"a"⟩) ∧
      begun.task? 5 = some second ∧ second.role = .worker 1 false none ∧ begun.draining = [1] ∧
      begun.ShutsDown 7 (steppingDown ++ [.proceed 7]) returned ∧ begun.Tracked 1 ∧ begun.Tracked 5 ∧
      returned.Withdrawn := by
  have waits : (initial default .initial).Along Waits flapping := along_of_tally (by decide +kernel)
  obtain ⟨begun, returned, first, second, run, found, atNode, other, idle, listed, shutsDown⟩ :
      ∃ begun returned first second,
        (initial default .initial).run flapping = some begun ∧
          begun.task? 1 = some first ∧ first.role = .worker 0 true (some ⟨"a"⟩) ∧
          begun.task? 5 = some second ∧ second.role = .worker 1 false none ∧ begun.draining = [1] ∧
          begun.ShutsDown 7 (steppingDown ++ [.proceed 7]) returned := by
    have uncontested : ∀ begun, (initial default .initial).run flapping = some begun →
        begun.Along (fun state _ => state.Uncontested 7) (steppingDown ++ [.proceed 7]) := by
      rintro _ ⟨⟩
      exact along_of_tally (by decide +kernel)
    exact ⟨_, _, _, _, rfl, rfl, rfl, rfl, rfl, rfl, ⟨_, [], rfl, rfl⟩, rfl, uncontested _ rfl,
      steppingDown, .proceed 7, _, rfl, rfl, rfl, rfl⟩
  obtain ⟨tracked, withdraws⟩ := run_withdraws default .initial waits run
  exact ⟨begun, returned, first, second, waits, run, found, atNode, other, idle, listed, shutsDown,
    tracked found (by rw [atNode]; rfl), tracked other (by rw [idle]; rfl), withdraws shutsDown⟩

end State

end Handover.Coordinator
