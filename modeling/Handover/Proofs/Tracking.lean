import Handover.Proofs.Lifecycle

/-!
Contract: no recovery worker is lost sight of.

Owns: where a worker can be found that has not ended: it is the worker of the present
activation, or listed among those that drain, or a shutdown waits for it; and that every run
keeps to this in which no shutdown is given up on while it waits for workers.
-/

set_option autoImplicit false

namespace Handover.Coordinator

/-! ## Tasks that wait -/

/-- The workers for which a task still waits. -/
def Task.awaited (task : Task) : List TaskId :=
  match task.errands with
  | .await workers :: _ => workers
  | _ => []

theorem Task.awaited_of_none {task : Task} (errands : task.errands = []) : task.awaited = [] := by
  rw [awaited, errands]

theorem Task.awaited_of_errands {task : Task} {errand : Errand} {rest : List Errand}
    (errands : task.errands = errand :: rest) (notAwait : ∀ workers, errand ≠ .await workers) :
    task.awaited = [] := by
  rw [awaited, errands]
  cases errand with
  | await workers => exact absurd rfl (notAwait workers)
  | _ => rfl

/-- A task has something under way only for what is done by a script. -/
def Task.Calm (task : Task) : Prop := task.duty = .idle → task.work = none

theorem Errand.Begins.not_idle {settings : Settings} {errand : Errand} {act : Act} {script : Script Outcome}
    (begins : errand.Begins settings act script) : errand.duty ≠ .idle := by
  cases begins <;> nofun

theorem Role.Begins.not_idle {settings : Settings} {role after : Role} {act : Act} {script : Script Outcome}
    (begins : role.Begins settings after act script) : after.duty ≠ .idle := by
  cases begins <;> nofun

theorem Task.calm_lasts (settings : Settings) : Task.Lasts settings (fun _ => True) Task.Calm where
  outside := fun _ _ => rfl
  raised := fun _ _ => rfl
  told := fun told calm idle => calm ((Task.duty_told told).symm.trans idle)
  goes := by
    intro task later act _ goes calm
    have busy : ∀ {work}, task.work = some work → task.duty ≠ .idle := fun work idle => by
      cases (calm idle).symm.trans work
    cases goes with
    | started work => exact fun idle => absurd idle (busy work)
    | replied work reply => exact fun idle => absurd idle (busy work)
    | acted work result => exact fun idle => absurd idle (busy work)
    | errandBegun running idle errands begins =>
        exact fun duty => absurd ((Task.duty_of_errands errands).symm.trans duty) begins.not_idle
    | errandEnded => exact fun _ => rfl
    | leadSkipped => exact fun _ => rfl
    | drained workers running idle errands => exact fun _ => idle
    | awaited running idle errands => exact fun _ => idle
    | awaitedAll => exact fun _ => rfl
    | @roleBegun role _ script running idle errands begins =>
        have duty : ({ task with role := role }.begin script).duty = role.duty := Task.duty_of_none errands
        exact fun none => absurd (duty.symm.trans none) begins.not_idle
    | errandRound running work errands unfinished => exact fun idle => absurd idle (busy work)
    | workerRound running work errands role unfinished => exact fun idle => absurd idle (busy work)
    | workerFinished => exact fun _ => rfl
    | workerAstray => exact fun _ => rfl
    | rested => exact fun _ => rfl
    | pushed => exact fun _ => rfl
    | looked running idle errands role => exact fun _ => idle
    | left running idle errands role => exact fun _ => idle
    | acquired running idle errands role => exact fun _ => idle
    | passed later running idle errands role => exact fun _ => idle
    | closed => exact fun _ => rfl
    | released => exact fun _ => rfl
    | abandoned => exact fun _ => rfl
  cut := fun _ _ _ => rfl

section Goes

variable {settings : Settings} {task later : Task} {act : Act} {rest : List Errand}

/-- How a task goes on that waits for workers. -/
theorem Task.Goes.of_await {workers : List TaskId} (goes : task.Goes settings act later) (calm : task.Calm)
    (errands : task.errands = .await workers :: rest) :
    (act = .abandon ∧ task.role = .caller ∧ later = task.close) ∨
      (act = .quiet ∧ task.ended = false ∧
        ((workers = [] ∧ later = task.completed .nothing) ∨
          ∃ first others, workers = first :: others ∧
            later = { task with errands := .await others :: rest })) := by
  have idle : task.work = none := calm (Task.duty_of_errands errands)
  cases goes
  case abandoned role => exact .inl ⟨rfl, role, rfl⟩
  case awaitedAll running _ own =>
    cases errands.symm.trans own
    exact .inr ⟨rfl, running, .inl ⟨rfl, rfl⟩⟩
  case awaited running _ own =>
    cases errands.symm.trans own
    exact .inr ⟨rfl, running, .inr ⟨_, _, rfl, rfl⟩⟩
  case errandBegun own begins =>
    cases errands.symm.trans own
    cases begins
  all_goals simp_all

/-- How a task goes on that is about to take over the waiting for all workers. -/
theorem Task.Goes.of_drain (goes : task.Goes settings act later) (calm : task.Calm)
    (errands : task.errands = .drain :: rest) :
    (act = .abandon ∧ task.role = .caller ∧ later = task.close) ∨
      ∃ workers, act = .drain workers ∧ later = { task with errands := .await workers :: rest } := by
  have idle : task.work = none := calm (Task.duty_of_errands errands)
  cases goes
  case abandoned role => exact .inl ⟨rfl, role, rfl⟩
  case drained workers _ _ own =>
    cases errands.symm.trans own
    exact .inr ⟨workers, rfl, rfl⟩
  case errandBegun own begins =>
    cases errands.symm.trans own
    cases begins
  all_goals simp_all

/-- A task goes on waiting for a worker, unless the worker is the first of those it waits for,
or it is given up on. -/
theorem Task.Goes.keeps_awaited {worker : TaskId} (goes : task.Goes settings act later) (calm : task.Calm)
    (waits : worker ∈ task.awaited) :
    worker ∈ later.awaited ∨ act = .abandon ∨
      (act = .quiet ∧ ∃ workers rest, task.errands = .await (worker :: workers) :: rest) := by
  obtain ⟨workers, rest, errands⟩ : ∃ workers rest, task.errands = .await workers :: rest := by
    unfold Task.awaited at waits
    split at waits
    case h_1 workers rest errands => exact ⟨workers, rest, errands⟩
    case h_2 => cases waits
  have listed : worker ∈ workers := by
    rw [Task.awaited, errands] at waits
    exact waits
  rcases goes.of_await calm errands with ⟨abandons, _⟩ | ⟨quiet, _, ⟨rfl, _⟩ | ⟨first, others, rfl, rfl⟩⟩
  · exact .inr (.inl abandons)
  · cases listed
  · rcases List.mem_cons.1 listed with rfl | later
    · exact .inr (.inr ⟨quiet, others, rest, errands⟩)
    · exact .inl later

end Goes

/-! ## The list of those that drain -/

namespace State

variable {state next shared : State} {id worker : TaskId} {event : Event} {task later : Task} {act : Act}

theorem hasEnded_of_found (found : state.task? worker = some task) : state.hasEnded worker = task.ended := by
  rw [hasEnded, found]

/-- What an act makes of the list of workers that drain. -/
def drainingAfter (state : State) : Act → List TaskId
  | .changeBegin _ => state.prune.draining
  | .changeNone _ => state.prune.draining
  | .changeEnd true => state.draining
  | .changeEnd false => state.draining ++ (state.group.map Group.worker).toList
  | .drain _ => []
  | _ => state.draining

theorem Takes.draining (takes : state.Takes id event act shared) : shared.draining = state.drainingAfter act := by
  cases takes with
  | deed wall draw happened =>
      obtain ⟨_, _, _, _, _, _, same⟩ := afterEffect_eq happened
      rw [same]
      rfl
  | changeEnd leader =>
      cases leader with
      | true => rfl
      | false =>
          cases active : state.group with
          | none => simp [changeMode, deactivate, drainingAfter, active]
          | some group => simp [changeMode, deactivate, drainingAfter, active]
  | _ => rfl

/-- Only those that have ended are struck off the list, until a shutdown takes all of them. -/
theorem Takes.draining_mem (takes : state.Takes id event act shared) (listed : worker ∈ state.draining)
    (running : state.hasEnded worker = false) : worker ∈ shared.draining ∨ act = .drain state.draining := by
  have kept : worker ∈ state.prune.draining := by simp [prune, listed, running]
  rw [takes.draining]
  cases takes with
  | changeBegin leader still differs => exact .inl kept
  | changeNone leader still same => exact .inl kept
  | changeEnd leader =>
      cases leader with
      | true => exact .inl listed
      | false => exact .inl (List.mem_append_left _ listed)
  | drain still => exact .inr rfl
  | _ => exact .inl listed

/-- A worker is not waited for any longer once it has ended. -/
theorem hasEnded_of_awaited {workers : List TaskId} {rest : List Errand}
    (stepped : state.step event = some next) (takes : state.Takes id event .quiet shared)
    (found : state.task? id = some task) (calm : task.Calm)
    (errands : task.errands = .await (worker :: workers) :: rest) : state.hasEnded worker = true := by
  have idle : task.work = none := calm (Task.duty_of_errands errands)
  cases takes with
  | quiet own =>
      rcases own with rfl | rfl
      · have moves : state.proceed id = some next := stepped
        simp only [proceed, found, idle, errands, beginErrand, Option.bind_eq_bind, Option.bind_some] at moves
        split at moves
        case isTrue => cases moves
        case isFalse =>
          split at moves
          case isTrue atRest => exact atRest
          case isFalse => cases moves
      · have leaves : state.quit id = some next := stepped
        simp [quit, found, errands] at leaves

/-! ## The law -/

/-- Where a worker is to be found. -/
inductive Tracked (state : State) (worker : TaskId) : Prop
  | present {group : Group} (active : state.group = some group) (own : group.worker = worker)
  | draining (listed : worker ∈ state.draining)
  /-- A shutdown waits for it. -/
  | awaited {other : TaskId} {task : Task} (found : state.task? other = some task)
      (waits : worker ∈ task.awaited)
  | ended {task : Task} (found : state.task? worker = some task) (atRest : task.ended = true)

/-- What is so in every state of a run in which no shutdown is given up on. -/
structure Tended (state : State) : Prop where
  governed : state.Governed
  calm : ∀ {id task}, state.task? id = some task → task.Calm
  /-- No worker that was ever started is lost sight of. -/
  tracked : ∀ {worker task}, state.task? worker = some task → task.role.works = true → state.Tracked worker

/-- The event does not give up on a shutdown that waits for workers. -/
def Waits (state : State) : Event → Prop
  | .abandon id => ∀ task ∈ state.task? id, task.awaited = []
  | _ => True

instance (state : State) (event : Event) : Decidable (state.Waits event) := by
  cases event <;> unfold Waits <;> infer_instance

theorem Takes.tracked (takes : state.Takes id event act shared) (tended : state.Tended)
    (stepped : state.step event = some next) (waits : state.Waits event) (found : state.task? id = some task)
    (goes : task.Goes state.settings act later) (tracked : state.Tracked worker)
    (running : state.hasEnded worker = false) : (shared.setTask id later).Tracked worker := by
  obtain ⟨_, still⟩ := takes.there found
  have mine : (shared.setTask id later).task? id = some later := task?_setTask_of_found still
  cases tracked with
  | present active own =>
      by_cases isEnd : ∃ leader, act = .changeEnd leader
      · obtain ⟨leader, rfl⟩ := isEnd
        have steers : task.steers? = some leader := goes.steers.1
        have needed := tended.governed.switched.needed ((look_of_found found).trans steers)
        rw [tended.governed.staffed.mode, active] at needed
        obtain rfl : leader = false := by simpa using needed
        refine .draining ?_
        change worker ∈ shared.draining
        rw [takes.draining]
        simp [drainingAfter, active, own]
      · exact .present ((takes.group fun leader same => isEnd ⟨leader, same⟩).trans active) own
  | draining listed =>
      rcases takes.draining_mem listed running with still | rfl
      · exact .draining still
      · refine .awaited mine ?_
        cases goes with
        | drained workers _ _ errands => exact listed
        | errandBegun _ _ _ begins => cases begins
        | errandEnded _ _ _ ends => cases ends
        | roleBegun _ _ _ begins =>
            generalize task.role = role at begins
            cases begins
  | @awaited other one there waiting =>
      by_cases self : other = id
      · subst self
        cases found.symm.trans there
        rcases goes.keeps_awaited (tended.calm found) waiting with kept | rfl | ⟨rfl, workers, rest, errands⟩
        · exact .awaited mine kept
        · cases takes
          rw [waits task found] at waiting
          cases waiting
        · rw [hasEnded_of_awaited stepped takes found (tended.calm found) errands] at running
          cases running
      · rcases takes.task? there with same | ⟨_, _, group, active, rfl⟩
        · exact .awaited ((task?_setTask_ne (Ne.symm self)).trans same) waiting
        · obtain ⟨_, _, role⟩ := tended.governed.sound.checks active there
          have unasked := (tended.governed.sound.tasks there).unasked (by rw [role]; rfl)
          rw [Task.awaited_of_none unasked] at waiting
          cases waiting
  | ended there atRest =>
      rw [hasEnded_of_found there, atRest] at running
      cases running

/-- The worker that an act raises is that of the activation that it begins. -/
theorem Takes.group_of_raised {role : Role} (takes : state.Takes id event act shared)
    (absent : state.task? worker = none) (found : shared.task? worker = some (.fresh role []))
    (raised : Raised state act role) (works : role.works = true) :
    ∃ group, shared.group = some group ∧ group.worker = worker := by
  cases raised with
  | checker => cases works
  | retry => cases works
  | worker =>
      refine ⟨_, takes.changed.1, ?_⟩
      have tasks : shared.tasks = state.tasks ++ [.fresh (.worker state.activations false none) [],
          .fresh (.checker state.activations state.clock) []] := by
        cases takes
        rfl
      have behind : state.tasks.length ≤ worker := List.getElem?_eq_none_iff.1 absent
      rw [State.task?, tasks, List.getElem?_append_right behind] at found
      obtain ⟨offset, rfl⟩ := Nat.exists_eq_add_of_le behind
      rw [Nat.add_sub_cancel_left] at found
      cases offset with
      | zero => rfl
      | succ offset =>
          cases offset with
          | zero => cases found
          | succ => cases found

/-- Nobody's being waited for depends on what else a state holds. -/
theorem Tracked.congr (tracked : state.Tracked worker) (group : next.group = state.group)
    (draining : next.draining = state.draining)
    (tasks : ∀ {id task}, state.task? id = some task →
      ∃ later, next.task? id = some later ∧ later.errands = task.errands ∧ later.ended = task.ended) :
    next.Tracked worker := by
  cases tracked with
  | present active own => exact .present (group.trans active) own
  | draining listed => exact .draining (draining ▸ listed)
  | awaited found waits =>
      obtain ⟨later, known, errands, _⟩ := tasks found
      refine .awaited known ?_
      rw [Task.awaited, errands]
      exact waits
  | ended found atRest =>
      obtain ⟨later, known, _, ended⟩ := tasks found
      exact .ended known (ended.trans atRest)

end State

open State in
theorem Happens.tracked {state next : State} {event : Event} {worker : TaskId} {one : Task}
    (happens : Happens state event next) (tended : state.Tended) (stepped : state.step event = some next)
    (waits : state.Waits event) (found : next.task? worker = some one) (works : one.role.works = true) :
    next.Tracked worker := by
  cases happens with
  | spawned _ outside =>
      rcases of_task?_spawn found with before | rfl
      · exact (tended.tracked before works).congr rfl rfl fun known => ⟨_, task?_spawn known, rfl, rfl⟩
      · cases (Role.kind_works.outside outside).symm.trans works
  | @told _ id task role _ there told =>
      have before : ∃ former, state.task? worker = some former ∧ former.role.works = true := by
        rcases (task?_setTask_iff there).1 found with ⟨rfl, rfl⟩ | ⟨_, before⟩
        · exact ⟨task, there, (Role.kind_works.becomes told.becomes).symm.trans works⟩
        · exact ⟨one, before, works⟩
      obtain ⟨former, before, worked⟩ := before
      refine (tended.tracked before worked).congr rfl rfl fun {other known} was => ?_
      by_cases self : id = other
      · subst self
        cases there.symm.trans was
        exact ⟨_, task?_setTask_of_found there, rfl, rfl⟩
      · exact ⟨known, (task?_setTask_ne self).trans was, rfl, rfl⟩
  | @moved _ id task later act shared there goes takes =>
      obtain ⟨_, still⟩ := takes.there there
      cases rests : one.ended with
      | true => exact .ended found rests
      | false =>
          have onward : ∀ {former}, state.task? worker = some former → former.role.works = true →
              former.ended = false → (shared.setTask id later).Tracked worker := by
            intro former before worked running
            exact takes.tracked tended stepped waits there goes (tended.tracked before worked)
              ((hasEnded_of_found before).trans running)
          rcases (task?_setTask_iff still).1 found with ⟨rfl, rfl⟩ | ⟨_, after⟩
          · exact onward there ((Role.kind_works.becomes goes.becomes).symm.trans works)
              (goes.of_running rests)
          · rcases takes.of_task? after with before | ⟨absent, role, rfl, raised⟩ | ⟨former, group, was, rfl, active, rfl⟩
            · exact onward before works rests
            · obtain ⟨group, active, own⟩ := takes.group_of_raised absent after raised works
              exact .present active own
            · cases rests
  | passed millis =>
      exact (tended.tracked found works).congr rfl rfl fun known => ⟨_, known, rfl, rfl⟩
  | written entry wall =>
      exact (tended.tracked found works).congr rfl rfl fun known => ⟨_, known, rfl, rfl⟩

namespace State

variable {state next before : State} {event : Event} {events : List Event}

theorem initial_tended (settings : Settings) (world : World) :
    (initial settings world).Tended where
  governed := initial_governed settings world
  calm := nofun
  tracked := nofun

theorem Tended.step (tended : state.Tended) (waits : state.Waits event) (stepped : state.step event = some next) :
    next.Tended where
  governed := tended.governed.step stepped
  calm := (State.happens stepped).tasks (Task.calm_lasts _) heeds_any tended.governed.sound.grouped
    (fun _ _ => tended.calm) _ _
  tracked := (State.happens stepped).tracked tended stepped waits

theorem Tended.run (tended : before.Tended) (waits : before.Along Waits events)
    (run : before.run events = some state) : state.Tended :=
  run_induction (motive := fun _ after => after.Tended) tended
    (fun _ _ waits stepped tended => tended.step waits stepped) waits run

end State

end Handover.Coordinator
