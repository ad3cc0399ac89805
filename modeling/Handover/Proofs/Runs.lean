import Handover.Proofs.Footprint
import Mathlib.Algebra.Order.BigOperators.Group.List
import Mathlib.Algebra.Order.Group.Nat
import Mathlib.Data.List.Induction

/-!
Contract: what holds along every run of a node.

Owns: induction along runs, with conditions on the events of a run; what an event does
to the list of tasks; the rule by which a fact about single tasks is carried along a run,
and sums over the tasks.
-/

set_option autoImplicit false

namespace Handover.Coordinator

/-- The effect that a task has with an act comes next in its script. -/
theorem Task.Goes.effect? {settings : Settings} {task later : Task} {deed : Effect}
    {result : deed.Result} (goes : task.Goes settings (.deed deed result) later) :
    task.effect? = some deed := by
  cases goes with
  | acted work => rw [Task.effect?, work]
  | errandBegun _ _ _ begins => cases begins
  | errandEnded _ _ _ ends => cases ends
  | roleBegun _ _ _ begins =>
      generalize task.role = role at begins
      cases begins

/-- The call that a task gets a reply to comes next in its script. -/
theorem Task.Goes.call? {settings : Settings} {task later : Task} {request : Call}
    {reply : request.Reply} (goes : task.Goes settings (.reply request reply) later) :
    task.call? = some (request, true) := by
  cases goes with
  | replied work => rw [Task.call?, work]
  | errandBegun _ _ _ begins => cases begins
  | errandEnded _ _ _ ends => cases ends
  | roleBegun _ _ _ begins =>
      generalize task.role = role at begins
      cases begins

/-- The call that a task begins comes next in its script. -/
theorem Task.Goes.begun? {settings : Settings} {task later : Task} {request : Call}
    (goes : task.Goes settings (.call request) later) : task.call? = some (request, false) := by
  cases goes with
  | started work => rw [Task.call?, work]
  | errandBegun _ _ _ begins => cases begins
  | errandEnded _ _ _ ends => cases ends
  | roleBegun _ _ _ begins =>
      generalize task.role = role at begins
      cases begins

/-- A takeover that is finished ends with its report. -/
theorem Task.Goes.finishes {settings : Settings} {task later : Task} {report : Takeover.Report} {outside : Bool}
    (goes : task.Goes settings (.finish report outside) later) :
    ∃ started, task.work = some ⟨.done (.progress (.finished report)), started⟩ := by
  cases goes with
  | errandBegun _ _ _ begins => cases begins
  | errandEnded _ work _ ends =>
      cases ends
      exact ⟨_, work⟩
  | roleBegun _ _ _ begins =>
      generalize task.role = role at begins
      cases begins
  | workerFinished _ work => exact ⟨_, work⟩

namespace State

variable {start state next : State} {event : Event} {events : List Event} {id other : TaskId}
  {task later : Task}

/-! ## Runs -/

/-- Something holds of every event of a run and of the state in which it happens. -/
def Along (holds : State → Event → Prop) (start : State) : List Event → Prop
  | [] => True
  | event :: rest => holds start event ∧ ∀ next, start.step event = some next → next.Along holds rest

/-- A run that goes on where another has come to. -/
theorem run_trans {middle last : State} {before after : List Event} (first : start.run before = some middle)
    (second : middle.run after = some last) : start.run (before ++ after) = some last := by
  rw [run_append, first]
  exact second

theorem run_snoc : start.run (events ++ [event]) = (start.run events).bind fun state => state.step event := by
  rw [run_append]
  simp [run]

theorem along_append {holds : State → Event → Prop} {first second : List Event} :
    start.Along holds (first ++ second) ↔ start.Along holds first ∧
      ∀ state, start.run first = some state → state.Along holds second := by
  induction first generalizing start with
  | nil => simp [Along, run]
  | cons event first inductionHypothesis =>
      simp only [List.cons_append, Along, inductionHypothesis, run, Option.bind_eq_bind,
        Option.bind_eq_some_iff]
      grind

theorem along_of_forall {holds : State → Event → Prop} (always : ∀ state event, holds state event) :
    start.Along holds events := by
  induction events generalizing start with
  | nil => trivial
  | cons event rest inductionHypothesis => exact ⟨always _ _, fun _ _ => inductionHypothesis⟩

theorem along_of_mem {holds : Event → Prop} (each : ∀ event ∈ events, holds event) :
    start.Along (fun _ => holds) events := by
  induction events generalizing start with
  | nil => trivial
  | cons event rest inductionHypothesis =>
      exact ⟨each event List.mem_cons_self, fun _ _ =>
        inductionHypothesis fun other member => each other (List.mem_cons_of_mem _ member)⟩

/-- What holds at every place of a run holds along it. -/
theorem along_of_split {holds : State → Event → Prop} (each : ∀ first event last middle,
    events = first ++ event :: last → start.run first = some middle → holds middle event) :
    start.Along holds events := by
  induction events generalizing start with
  | nil => trivial
  | cons event rest inductionHypothesis =>
      refine ⟨each [] event rest start rfl rfl, fun next stepped => inductionHypothesis ?_⟩
      intro first later last middle same ran
      refine each (event :: first) later last middle (congrArg (event :: ·) same) ?_
      rw [run, stepped]
      exact ran

theorem Along.and {first second : State → Event → Prop} (one : start.Along first events)
    (other : start.Along second events) :
    start.Along (fun state event => first state event ∧ second state event) events := by
  induction events generalizing start with
  | nil => trivial
  | cons event rest inductionHypothesis =>
      exact ⟨⟨one.1, other.1⟩, fun next stepped =>
        inductionHypothesis (one.2 next stepped) (other.2 next stepped)⟩

/-- What holds at the start and is kept by every event holds after every run. -/
theorem run_induction {holds : State → Event → Prop} {motive : List Event → State → Prop}
    (opening : motive [] start)
    (extend : ∀ {events event state next}, start.Along holds events → start.run events = some state →
      holds state event → state.step event = some next → motive events state →
        motive (events ++ [event]) next)
    (along : start.Along holds events) (run : start.run events = some state) :
    motive events state := by
  induction events using List.reverseRecOn generalizing state with
  | nil =>
      cases run
      exact opening
  | append_singleton events event inductionHypothesis =>
      obtain ⟨before, alongOne⟩ := along_append.1 along
      rw [run_snoc] at run
      obtain ⟨middle, ran, stepped⟩ := Option.bind_eq_some_iff.1 run
      exact extend before ran (alongOne middle ran).1 stepped (inductionHypothesis before ran)

/-- No run closes the queue, or opens it. -/
theorem closed_of_run (run : start.run events = some state) : state.closed = start.closed :=
  run_induction (motive := fun _ state => state.closed = start.closed) rfl
    (fun _ _ _ stepped same => (step_closed stepped).trans same) (along_of_forall fun _ _ => trivial) run

/-! ## Counting along a run -/

/-- What is counted along a run, by the events and the states in which they happen. -/
def tally (counts : State → Event → Nat) (start : State) : List Event → Nat
  | [] => 0
  | event :: rest => counts start event + match start.step event with
      | some next => next.tally counts rest
      | none => 0

/-- What can be decided of each event holds along a run that counts no failure. -/
theorem along_of_tally {holds : State → Event → Prop} [decides : ∀ state event, Decidable (holds state event)]
    (never : start.tally (fun state event => if holds state event then 0 else 1) events = 0) :
    start.Along holds events := by
  induction events generalizing start with
  | nil => trivial
  | cons event rest inductionHypothesis =>
      obtain ⟨now, later⟩ := Nat.add_eq_zero_iff.1 never
      refine ⟨by simpa using now, fun next stepped => inductionHypothesis ?_⟩
      rw [stepped] at later
      exact later

theorem tally_snoc {counts : State → Event → Nat} (run : start.run events = some state) :
    start.tally counts (events ++ [event]) = start.tally counts events + counts state event := by
  induction events generalizing start with
  | nil =>
      cases run
      simp only [List.nil_append, tally]
      cases state.step event <;> simp
  | cons first rest inductionHypothesis =>
      obtain ⟨middle, stepped, ran⟩ := Option.bind_eq_some_iff.1 run
      simp only [List.cons_append, tally, stepped, inductionHypothesis ran, Nat.add_assoc]

/-- The call that the task has under way. -/
def request? (state : State) (id : TaskId) : Option Call :=
  ((state.task? id).bind Task.call?).bind fun call => if call.2 then some call.1 else none

theorem request?_eq_some_iff {request : Call} : state.request? id = some request ↔
    ∃ task, state.task? id = some task ∧ task.call? = some (request, true) := by
  simp only [request?, Option.bind_eq_some_iff]
  constructor
  · rintro ⟨⟨_, started⟩, ⟨task, found, calls⟩, same⟩
    cases started <;> cases same
    exact ⟨task, found, calls⟩
  · rintro ⟨task, found, calls⟩
    exact ⟨_, ⟨task, found, calls⟩, rfl⟩

/-- The effect that happens with an event, and whose it is. -/
def deed? (state : State) : Event → Option (TaskId × Effect)
  | .effect id _ _ => ((state.task? id).bind Task.effect?).map (Prod.mk id)
  | _ => none

theorem of_deed? {deed : Effect} (own : state.deed? event = some (id, deed)) :
    event.mover = some id ∧ ∃ task, state.task? id = some task ∧ task.effect? = some deed := by
  cases event
  case effect mover wall draw =>
    obtain ⟨_, effect, same⟩ := Option.map_eq_some_iff.1 own
    cases same
    exact ⟨rfl, Option.bind_eq_some_iff.1 effect⟩
  all_goals cases own

theorem Takes.deed? {act : Act} {shared : State} (takes : state.Takes id event act shared)
    (found : state.task? id = some task) (goes : task.Goes state.settings act later) :
    state.deed? event = act.deed?.map (Prod.mk id) := by
  cases takes with
  | quiet own => rcases own with rfl | rfl <;> rfl
  | deed wall draw happened =>
      rw [State.deed?, found, Option.bind_some, goes.effect?]
      rfl
  | _ => rfl

end State

/-! ## Roles -/

/-- What a role can become while its task goes on: it stays of its kind, and of its activation. -/
inductive Role.Becomes : Role → Role → Prop
  | same (role : Role) : Becomes role role
  | watcher (before after : Feed) (leaving left : Bool) :
      Becomes (.watcher before leaving) (.watcher after left)
  | worker (activation : Nat) (holds held : Bool) (before after : Option Address) :
      Becomes (.worker activation holds before) (.worker activation held after)
  | checker (activation before after : Nat) : Becomes (.checker activation before) (.checker activation after)
  | monitor (own : MonitorSettings) (before after : Nat) (stopped told : Bool) :
      Becomes (.monitor own before stopped) (.monitor own after told)
  | beat (node : Address) (interval before after : Nat) (stopped told : Bool) :
      Becomes (.beat node interval before stopped) (.beat node interval after told)

theorem Role.Told.becomes {role after : Role} (told : role.Told after) : role.Becomes after := by
  cases told with
  | watcher before after leaving => exact .watcher before after leaving leaving
  | monitor own due stopped => exact .monitor own due due stopped true
  | beat node interval due stopped => exact .beat node interval due due stopped true

theorem Task.Goes.becomes {settings : Settings} {task later : Task} {act : Act}
    (goes : task.Goes settings act later) : task.role.Becomes later.role := by
  cases goes with
  | @roleBegun role _ _ running idle errands begins =>
      change task.role.Becomes role
      generalize task.role = before at begins
      cases begins with
      | take activation former node => exact .worker activation true true former (some node)
      | build activation due later => exact .checker activation due later
      | push activation node due => exact .same _
      | monitor own due later stopped => exact .monitor own due later stopped stopped
      | beat node interval due later stopped => exact .beat node interval due later stopped stopped
  | workerFinished running work errands role => exact role ▸ .worker _ _ _ _ _
  | workerAstray running work errands role notProgress => exact role ▸ .worker _ _ _ _ _
  | looked running idle errands role => exact role ▸ .watcher _ _ _ _
  | left running idle errands role => exact role ▸ .watcher _ _ _ _
  | acquired running idle errands role => exact role ▸ .worker _ _ _ _ _
  | passed later running idle errands role => exact role ▸ .monitor _ _ _ _ _
  | _ => exact .same _

/-- A task that goes on was not over before. -/
theorem Task.Goes.of_running {settings : Settings} {task later : Task} {act : Act}
    (goes : task.Goes settings act later) (running : later.ended = false) : task.ended = false := by
  cases goes with
  | closed => cases running
  | pushed => cases running
  | released => cases running
  | abandoned => cases running
  | _ => exact running

/-- Sees to the job graph. -/
def Role.Checks (role : Role) : Prop := ∃ activation due, role = .checker activation due

theorem Role.Becomes.checks {role after : Role} (becomes : role.Becomes after) : after.Checks ↔ role.Checks := by
  cases becomes <;> simp [Role.Checks]

theorem Task.Goes.checks {settings : Settings} {task later : Task} {act : Act}
    (goes : task.Goes settings act later) (checks : task.role.Checks) : later.role.Checks :=
  goes.becomes.checks.2 checks

namespace State

/-- The checker of the present activation is a checker. -/
def Grouped (state : State) : Prop :=
  ∀ group, state.group = some group →
    ∃ task, state.task? group.checker = some task ∧ task.role.Checks

end State

open State in
theorem Happens.grouped {state next : State} {event : Event} (happens : Happens state event next)
    (grouped : state.Grouped) : next.Grouped := by
  cases happens with
  | spawned _ outside =>
      intro group active
      obtain ⟨task, found, checks⟩ := grouped group active
      exact ⟨task, task?_spawn found, checks⟩
  | @told _ id before role _ found told =>
      intro group active
      obtain ⟨task, checker, checks⟩ := grouped group active
      refine ⟨task, ?_, checks⟩
      rw [task?_setTask_ne, checker]
      rintro rfl
      cases found.symm.trans checker
      obtain ⟨_, _, isChecker⟩ := checks
      rw [isChecker] at told
      cases told
  | @moved _ id before later act shared found goes takes =>
      have keeps : shared.group = state.group → (shared.setTask id later).Grouped := by
        intro same group active
        obtain ⟨task, checker, checks⟩ := grouped group (same ▸ active)
        by_cases self : id = group.checker
        · subst self
          cases found.symm.trans checker
          obtain ⟨_, there⟩ := takes.there checker
          exact ⟨later, task?_setTask_of_found there, goes.checks checks⟩
        · rw [task?_setTask_ne self]
          rcases takes.task? checker with still | ⟨_, closed, _⟩
          · exact ⟨task, still, checks⟩
          · exact ⟨task.close, closed, checks⟩
      by_cases isEnd : ∃ leader, act = .changeEnd leader
      · obtain ⟨leader, rfl⟩ := isEnd
        cases takes
        cases leader with
        | false =>
            intro group active
            simp [changeMode, deactivate, setTask] at active
        | true =>
            intro group active
            obtain ⟨there, _⟩ := List.getElem?_eq_some_iff.1 found
            obtain rfl : (⟨state.activations, state.tasks.length, state.tasks.length + 1⟩ : Group) =
              group := Option.some.inj active
            refine ⟨.fresh (.checker state.activations state.clock) [], ?_, _, _, rfl⟩
            rw [task?_setTask_ne (Nat.ne_of_lt (Nat.lt_succ_of_lt there))]
            simp [changeMode, activate, task?]
      · exact keeps (takes.group fun leader same => isEnd ⟨leader, same⟩)
  | passed millis => exact grouped
  | written entry wall => exact grouped

open State in
theorem Happens.settings {state next : State} {event : Event} (happens : Happens state event next) :
    next.settings = state.settings := by
  cases happens with
  | moved found goes takes => exact takes.settings
  | _ => rfl

namespace State

theorem initial_grouped (settings : Settings) (world : World) :
    (initial settings world).Grouped := nofun

end State

/-! ## Facts about single tasks -/

/-- A fact about single tasks lasts under some acts: fresh tasks have it, and nothing that
changes a task takes it away. -/
structure Task.Lasts (settings : Settings) (allowed : Act → Prop) (holds : Task → Prop) : Prop where
  outside : ∀ {role errands}, Outside role errands → holds (.fresh role errands)
  raised : ∀ {state act role}, State.Raised state act role → holds (.fresh role [])
  told : ∀ {task : Task} {role}, task.role.Told role → holds task → holds { task with role := role }
  goes : ∀ {task : Task} {act later}, allowed act → task.Goes settings act later → holds task →
    holds later
  cut : ∀ {task : Task}, task.role.Checks → holds task → holds task.close

namespace State

/-- Only allowed acts come with the event. -/
def Heeds (allowed : Act → Prop) (state : State) (event : Event) : Prop :=
  ∀ id task act later shared, state.task? id = some task → task.Goes state.settings act later →
    state.Takes id event act shared → allowed act

theorem heeds_any {state : State} {event : Event} : state.Heeds (fun _ => True) event :=
  fun _ _ _ _ _ _ _ _ => trivial

end State

section Lasts

open State

variable {settings : Settings} {world : World} {allowed : Act → Prop}
  {holds : Task → Prop} {state next : State} {event : Event} {events : List Event}

theorem Happens.tasks (happens : Happens state event next)
    (lasts : Task.Lasts state.settings allowed holds) (heeds : state.Heeds allowed event)
    (grouped : state.Grouped) (all : ∀ id task, state.task? id = some task → holds task) :
    ∀ id task, next.task? id = some task → holds task := by
  intro id one found
  cases happens with
  | spawned _ outside =>
      rcases of_task?_spawn found with before | rfl
      · exact all id one before
      · exact lasts.outside outside
  | told _ there told =>
      rcases (task?_setTask_iff there).1 found with ⟨_, rfl⟩ | ⟨_, before⟩
      · exact lasts.told told (all _ _ there)
      · exact all id one before
  | moved there goes takes =>
      obtain ⟨same, still⟩ := takes.there there
      rcases (task?_setTask_iff still).1 found with ⟨_, rfl⟩ | ⟨_, after⟩
      · exact lasts.goes (heeds _ _ _ _ _ there goes takes) goes (all _ _ there)
      · rcases takes.of_task? after with before | ⟨_, role, rfl, raised⟩ |
          ⟨before, group, was, rfl, active, rfl⟩
        · exact all id one before
        · exact lasts.raised raised
        · obtain ⟨checker, known, checks⟩ := grouped group active
          cases was.symm.trans known
          exact lasts.cut checks (all _ _ was)
  | passed millis => exact all id one found
  | written entry wall => exact all id one found

/-- What every reachable state has: its settings, a checker, and tasks with the fact. -/
theorem State.run_lasts (lasts : Task.Lasts settings allowed holds)
    (along : (initial settings world).Along (Heeds allowed) events)
    (run : (initial settings world).run events = some state) :
    state.settings = settings ∧ state.Grouped ∧ ∀ id task, state.task? id = some task → holds task := by
  refine run_induction (motive := fun _ state => state.settings = settings ∧ state.Grouped ∧
    ∀ id task, state.task? id = some task → holds task) ⟨rfl, initial_grouped _ _, ?_⟩ ?_ along run
  · intro id task found
    simp [task?, initial] at found
  · rintro events event middle next - - heeds stepped ⟨rfl, grouped, all⟩
    have happens := State.happens stepped
    exact ⟨happens.settings, happens.grouped grouped, happens.tasks lasts heeds grouped all⟩

end Lasts

open State in
/-- A task after an event moved with it, or has nothing under way, or has the same under way for
the same as before. -/
theorem Happens.of_task? {state next : State} {event : Event} {id : TaskId} {later : Task}
    (happens : Happens state event next) (found : next.task? id = some later) :
    (∃ task act shared, event.mover = some id ∧ state.task? id = some task ∧
      task.Goes state.settings act later ∧ state.Takes id event act shared) ∨
    later.work = none ∨
    ∃ task, state.task? id = some task ∧ event.mover ≠ some id ∧ later.work = task.work ∧
      later.errands = task.errands ∧ (later.role = task.role ∨ task.role.Told later.role) := by
  cases happens with
  | @spawned _ role errands apart outside =>
      rcases of_task?_spawn found with before | rfl
      · exact .inr (.inr ⟨later, before, by simp [apart], rfl, rfl, .inl rfl⟩)
      · exact .inr (.inl rfl)
  | @told _ other task role apart there told =>
      rcases (task?_setTask_iff there).1 found with ⟨rfl, rfl⟩ | ⟨_, before⟩
      · exact .inr (.inr ⟨task, there, by simp [apart], rfl, rfl, .inr told⟩)
      · exact .inr (.inr ⟨later, before, by simp [apart], rfl, rfl, .inl rfl⟩)
  | moved there goes takes =>
      obtain ⟨same, still⟩ := takes.there there
      rcases (task?_setTask_iff still).1 found with ⟨rfl, rfl⟩ | ⟨apart, after⟩
      · exact .inl ⟨_, _, _, takes.mover, there, goes, takes⟩
      · rcases takes.of_task? after with before | ⟨_, role, rfl, _⟩ | ⟨_, _, _, rfl, _⟩
        · exact .inr (.inr ⟨later, before, by simp [takes.mover, apart], rfl, rfl, .inl rfl⟩)
        · exact .inr (.inl rfl)
        · exact .inr (.inl rfl)
  | passed millis => exact .inr (.inr ⟨later, found, by simp [Event.mover], rfl, rfl, .inl rfl⟩)
  | written entry wall => exact .inr (.inr ⟨later, found, by simp [Event.mover], rfl, rfl, .inl rfl⟩)

/-! ## Looking at one task -/

/-- What is seen of the task with a number; of a number that no task has, `unseen`. -/
def State.look {β : Type} (sight : Task → β) (unseen : β) (state : State) (id : TaskId) : β :=
  ((state.task? id).map sight).getD unseen

/-- Only tasks that move look different afterwards: nothing is seen of fresh tasks, of
checkers and of tasks that are over, and what a task is told is not seen either. -/
structure Task.Sight {β : Type} (sight : Task → β) (unseen : β) : Prop where
  outside : ∀ {role errands}, Outside role errands → sight (.fresh role errands) = unseen
  raised : ∀ {state act role}, State.Raised state act role → sight (.fresh role []) = unseen
  told : ∀ {task : Task} {role}, task.role.Told role → sight { task with role := role } = sight task
  closed : ∀ task : Task, sight task.close = unseen

namespace State

section Look

variable {β : Type} {sight : Task → β} {unseen : β} {state shared : State} {id other : TaskId}
  {task later : Task} {event : Event} {act : Act}

theorem look_of_found (found : state.task? id = some task) : state.look sight unseen id = sight task := by
  rw [look, found]
  rfl

theorem look_setTask (found : state.task? id = some task) :
    (state.setTask id later).look sight unseen other =
      if id = other then sight later else state.look sight unseen other := by
  split
  case isTrue same => rw [← same, look_of_found (task?_setTask_of_found found)]
  case isFalse apart => rw [look, task?_setTask_ne apart, look]

theorem look_spawn (sees : Task.Sight sight unseen) {role : Role} {errands : List Errand}
    (outside : Outside role errands) :
    (state.spawn (.fresh role errands)).look sight unseen other = state.look sight unseen other := by
  rw [look, look, task?, task?, spawn, List.getElem?_append]
  split
  case isTrue => rfl
  case isFalse behind =>
    rw [List.getElem?_eq_none (Nat.not_lt.1 behind)]
    cases at_ : [Task.fresh role errands][other - state.tasks.length]? with
    | none => rfl
    | some one =>
        rw [List.mem_singleton.1 (List.mem_of_getElem? at_)]
        exact sees.outside outside

theorem look_told (sees : Task.Sight sight unseen) {role : Role} (found : state.task? id = some task)
    (told : task.role.Told role) :
    (state.setTask id { task with role := role }).look sight unseen other =
      state.look sight unseen other := by
  rw [look_setTask found]
  split
  case isTrue same => rw [← same, look_of_found found, sees.told told]
  case isFalse => rfl

/-- A moving task leaves what is seen of the others as it is. -/
theorem Takes.look (takes : state.Takes id event act shared) (sees : Task.Sight sight unseen)
    (checkers : ∀ group checker, state.group = some group →
      state.task? group.checker = some checker → sight checker = unseen)
    (found : state.task? id = some task) :
    (shared.setTask id later).look sight unseen other =
      if id = other then sight later else state.look sight unseen other := by
  obtain ⟨_, there⟩ := takes.there found
  rw [look_setTask there]
  split
  case isTrue => rfl
  case isFalse =>
    cases before : state.task? other with
    | some one =>
        rw [look_of_found before]
        rcases takes.task? before with still | ⟨_, closed, group, active, rfl⟩
        · exact look_of_found still
        · rw [look_of_found closed, sees.closed, checkers group one active before]
    | none =>
        rw [State.look, State.look, before]
        cases after : shared.task? other with
        | none => rfl
        | some one =>
            rcases takes.of_task? after with known | ⟨_, role, rfl, raised⟩ | ⟨_, _, known, _⟩
            · cases before.symm.trans known
            · exact sees.raised raised
            · cases before.symm.trans known

end Look

end State

namespace State

/-! ## Sums over the tasks -/

def total (weight : Task → Nat) (state : State) : Nat := (state.tasks.map weight).sum

section Total

variable {state shared : State} {id : TaskId} {task later : Task} {weight : Task → Nat}

private theorem sum_set {tasks : List Task} (found : tasks[id]? = some task) :
    ((tasks.set id later).map weight).sum + weight task = (tasks.map weight).sum + weight later := by
  induction tasks generalizing id with
  | nil => simp at found
  | cons first rest inductionHypothesis =>
      cases id with
      | zero =>
          obtain rfl : first = task := by simpa using found
          simp only [List.set_cons_zero, List.map_cons, List.sum_cons]
          omega
      | succ id =>
          have there : rest[id]? = some task := by simpa using found
          have rested := inductionHypothesis there
          simp only [List.set_cons_succ, List.map_cons, List.sum_cons]
          omega

theorem total_setTask (found : state.task? id = some task) :
    (state.setTask id later).total weight + weight task = state.total weight + weight later :=
  sum_set found

theorem total_setTask_of_eq (found : state.task? id = some task) (same : weight later = weight task) :
    (state.setTask id later).total weight = state.total weight :=
  Nat.add_right_cancel ((State.total_setTask found).trans (congrArg (state.total weight + ·) same))

theorem le_total (found : state.task? id = some task) : weight task ≤ state.total weight :=
  List.le_sum_of_mem (List.mem_map_of_mem (List.mem_of_getElem? found))

theorem total_spawn (task : Task) :
    (state.spawn task).total weight = state.total weight + weight task := by
  simp [total, spawn]

/-- What comes up adds to the sum, and a checker that is cut off weighs nothing. -/
theorem Takes.total {event : Event} {act : Act} (takes : state.Takes id event act shared)
    (light : ∀ group checker, state.group = some group → state.task? group.checker = some checker →
      weight checker = weight checker.close) :
    ∃ raised : List Task, (∀ one ∈ raised, ∃ role, one = .fresh role [] ∧ Raised state act role) ∧
      shared.total weight = state.total weight + (raised.map weight).sum := by
  rcases takes.tasks with ⟨raised, same, fresh⟩ | ⟨_, group, active, same⟩
  · exact ⟨raised, fresh, by simp [State.total, same]⟩
  · refine ⟨[], by simp, ?_⟩
    rw [State.total, same, List.modify_eq_set_getElem?]
    cases known : state.tasks[group.checker]? with
    | none => rfl
    | some checker =>
        have set : ((state.tasks.set group.checker checker.close).map weight).sum + weight checker =
            (state.tasks.map weight).sum + weight checker.close := sum_set known
        have same := light group checker active known
        simp only [Option.map_eq_map, Option.map_some, Option.getD_some, State.total, List.map_nil,
          List.sum_nil]
        omega

/-- A task that moves changes the sum by what it weighs itself. -/
theorem Takes.total_setTask {event : Event} {act : Act} (takes : state.Takes id event act shared)
    (found : state.task? id = some task)
    (light : ∀ group checker, state.group = some group → state.task? group.checker = some checker →
      weight checker = weight checker.close) :
    (shared.setTask id later).total weight + weight task = shared.total weight + weight later := by
  rcases takes.task? found with same | ⟨_, closed, group, active, rfl⟩
  · exact State.total_setTask same
  · rw [light group task active found]
    exact State.total_setTask closed

end Total

end State

end Handover.Coordinator
