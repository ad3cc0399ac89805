import Handover.Proofs.Standby

/-!
Contract: what a node says of its mode, what runs in it and what the job graph was told agree.

Owns: the calls on the job graph as a run makes them; that a change of the mode makes one of
them and brings one group of tasks or takes one away; that the mode, the group, the count of
groups and the last of these calls go together whenever no change is under way; that a change
to the mode that is there already does nothing.

What is said of the calls is about runs in which nobody is given up on while changing the mode:
the graph may have been told of such a change, and nothing comes of it.
-/

set_option autoImplicit false

namespace Handover.Coordinator

/-! ## Turns -/

/-- True, false, true and so on, so many times. -/
def alternating (count : Nat) : List Bool := (List.range count).map fun turn => turn % 2 == 0

theorem alternating_succ (count : Nat) : alternating (count + 1) = alternating count ++ [count % 2 == 0] := by
  simp [alternating, List.range_succ]

theorem length_alternating (count : Nat) : (alternating count).length = count := by
  simp [alternating]

theorem count_true_alternating (count : Nat) : (alternating count).count true = (count + 1) / 2 := by
  induction count with
  | zero => rfl
  | succ count inductionHypothesis =>
      rw [alternating_succ, List.count_append, inductionHypothesis, List.count_singleton]
      by_cases even : count % 2 = 0
      · simp only [even, beq_self_eq_true, ite_true]
        omega
      · have odd : (count % 2 == 0) = false := by simpa using even
        simp only [odd, Bool.false_beq, Bool.not_true, Bool.false_eq_true, ite_false]
        omega

theorem getLast?_alternating (count : Nat) : (alternating count).getLast? = some true ↔ count % 2 = 1 := by
  cases count with
  | zero => simp [alternating]
  | succ count =>
      rw [alternating_succ, List.getLast?_concat, Option.some_inj, beq_iff_eq]
      omega

/-! ## How a change of the mode goes -/

section Goes

variable {settings : Settings} {allowed : Act → Prop} {task later : Task} {act : Act} {leader : Bool}

/-- A change of the mode tells the graph, and is done. -/
theorem Duty.Underway.toggles {script : Script Outcome}
    (underway : (Duty.lead leader).Underway settings allowed script) :
    script = .call (.activateGraph leader) (fun _ => .done .nothing) ∨ script = .done .nothing := by
  induction underway with
  | begun => exact .inl rfl
  | replied reply _ _ inductionHypothesis =>
      rcases inductionHypothesis with same | same
      · cases same
        exact .inr rfl
      · cases same
  | acted result _ _ inductionHypothesis => rcases inductionHypothesis with same | same <;> cases same
  | round takesOver => cases takesOver

/-- The graph has been told of the change of the mode that the task is at. -/
def Task.signalled (task : Task) : Nat :=
  match task.call? with
  | some (_, false) => 0
  | _ => task.steers?.isSome.toNat

theorem Task.signalled_of_not_steers (away : task.steers? = none) : task.signalled = 0 := by
  unfold Task.signalled
  split
  case h_1 => rfl
  case h_2 => rw [away]; rfl

theorem Task.steers?_of_duty {work : Work} (busy : task.work = some work) (duty : task.duty = .lead leader) :
    task.steers? = some leader := by
  rw [Task.steers?_of_work busy, duty]
  rfl

theorem Task.of_steers? (steers : task.steers? = some leader) :
    task.duty = .lead leader ∧ ∃ work, task.work = some work := by
  obtain ⟨work, busy, leads⟩ := Option.bind_eq_some_iff.1 steers
  refine ⟨?_, work, busy⟩
  generalize task.duty = duty at leads
  cases duty <;> cases leads
  rfl

/-- Of a change of the mode the graph has been told, unless its call comes next. -/
theorem Task.signalled_of_duty {script : Script Outcome} {started : Bool}
    (busy : task.work = some ⟨script, started⟩) (duty : task.duty = .lead leader)
    (begun : ∀ request next, script = .call request next → started = true) : task.signalled = 1 := by
  have one : task.steers?.isSome.toNat = 1 := by
    rw [Task.steers?_of_duty busy duty]
    rfl
  cases script with
  | done outcome => simpa only [signalled, call?, busy] using one
  | call request next =>
      obtain rfl := begun request next rfl
      simpa only [signalled, call?, busy] using one
  | effect deed next => simpa only [signalled, call?, busy] using one

theorem Task.signalled_of_done {outcome : Outcome} {started : Bool}
    (busy : task.work = some ⟨.done outcome, started⟩) (duty : task.duty = .lead leader) : task.signalled = 1 :=
  Task.signalled_of_duty busy duty fun _ _ => nofun

/-- What the graph has been told of a change, as an act finds it and leaves it. -/
def Act.Signals (before after : Nat) : Act → Prop
  | .call (.activateGraph _) => before = 0 ∧ after = 1
  | .changeEnd _ => before = 1 ∧ after = 0
  | .abandon => after = 0
  | _ => after = before

/-- How a task moves that changes the mode: it tells the graph, hears back, and is done. -/
theorem Task.Goes.of_steers (sound : task.Sound settings allowed) (goes : task.Goes settings act later)
    (steers : task.steers? = some leader) : act.Signals task.signalled later.signalled := by
  obtain ⟨duty, work, busy⟩ := Task.of_steers? steers
  have toggles := Duty.Underway.toggles (duty ▸ sound.underway work.script work.started busy)
  have idle : task.work ≠ none := by simp [busy]
  have asked : task.errands ≠ [] := fun none => by
    cases (Task.steers?_of_role none).symm.trans steers
  cases goes with
  | started own =>
      cases busy.symm.trans own
      rcases toggles with same | same <;> cases same
      exact ⟨by rw [Task.signalled, Task.call?, own], Task.signalled_of_duty rfl duty fun _ _ _ => rfl⟩
  | replied own reply =>
      cases busy.symm.trans own
      rcases toggles with same | same <;> cases same
      have before : task.signalled = 1 := Task.signalled_of_duty own duty fun _ _ _ => rfl
      have after : (task.begin (.done .nothing)).signalled = 1 := Task.signalled_of_done rfl duty
      exact after.trans before.symm
  | acted own result =>
      cases busy.symm.trans own
      rcases toggles with same | same <;> cases same
  | errandEnded running own errands ends =>
      have before : task.signalled = 1 := Task.signalled_of_done own duty
      rw [Task.duty_of_errands errands] at duty
      cases ends with
      | lead leader outcome => exact ⟨before, rfl⟩
      | takeOver node report => cases duty
      | other notLead _ =>
          have away := Errand.not_leader? notLead
          rw [duty] at away
          cases away
  | errandRound running own errands unfinished =>
      rw [Task.duty_of_errands errands] at duty
      cases duty
  | abandoned role => rfl
  | errandBegun _ none => exact absurd none idle
  | leadSkipped _ none => exact absurd none idle
  | drained _ _ none => exact absurd none idle
  | awaited _ none => exact absurd none idle
  | awaitedAll _ none => exact absurd none idle
  | roleBegun _ none => exact absurd none idle
  | looked _ none => exact absurd none idle
  | left _ none => exact absurd none idle
  | acquired _ none => exact absurd none idle
  | passed _ _ none => exact absurd none idle
  | closed _ none => exact absurd none idle
  | released _ none => exact absurd none idle
  | workerRound _ _ none => exact absurd none asked
  | workerFinished _ _ none => exact absurd none asked
  | workerAstray _ _ none => exact absurd none asked
  | rested _ _ none => exact absurd none asked
  | pushed _ _ none => exact absurd none asked

/-- When a change of the mode begins, the graph has still to be told. -/
theorem Task.Goes.unsignalled (goes : task.Goes settings (.changeBegin leader) later) : later.signalled = 0 := by
  cases goes with
  | errandBegun _ _ _ begins =>
      cases begins
      rfl
  | errandEnded _ _ _ ends => cases ends
  | roleBegun _ _ _ begins =>
      generalize task.role = role at begins
      cases begins

end Goes

theorem Task.sight_signalled : Task.Sight Task.signalled 0 where
  outside := fun _ => rfl
  raised := fun _ => rfl
  told := fun told => by simp only [Task.signalled, Task.call?, Task.sight_steers?.told told]
  closed := fun _ => rfl

/-! ## What a run leaves behind -/

/-- Whether a role is of a kind of which every activation brings one. -/
structure Role.Kind (kind : Role → Bool) : Prop where
  becomes : ∀ {role after}, role.Becomes after → kind after = kind role
  outside : ∀ {role errands}, Outside role errands → kind role = false
  retry : ∀ activation node due, kind (.retry activation node due) = false
  one : ∀ activation due, (kind (.worker activation false none)).toNat + (kind (.checker activation due)).toNat = 1

def Role.works : Role → Bool
  | .worker _ _ _ => true
  | _ => false

def Role.checks : Role → Bool
  | .checker _ _ => true
  | _ => false

theorem Role.kind_works : Role.Kind Role.works where
  becomes := by rintro _ _ (_ | _ | _ | _ | _ | _) <;> rfl
  outside := by rintro _ _ (_ | _ | _ | _) <;> rfl
  retry := fun _ _ _ => rfl
  one := fun _ _ => rfl

theorem Role.kind_checks : Role.Kind Role.checks where
  becomes := by rintro _ _ (_ | _ | _ | _ | _ | _) <;> rfl
  outside := by rintro _ _ (_ | _ | _ | _) <;> rfl
  retry := fun _ _ _ => rfl
  one := fun _ _ => rfl

/-- How many groups of tasks an act brings. -/
def Act.groups : Act → Nat
  | .changeEnd true => 1
  | _ => 0

/-- The call that an act begins, if it is one on the job graph of the day. -/
def Act.switch? : Act → Option Bool
  | .call (.activateGraph leader) => some leader
  | _ => none

/-- What an act does to a change of the mode: the graph is told of one that is needed, and only
then can it end. -/
def Act.Turns (active : Bool) (before after : Nat) : Act → Prop
  | .call (.activateGraph leader) => leader ≠ active ∧ before = 0 ∧ after = 1
  | .changeEnd leader => leader ≠ active ∧ before = 1 ∧ after = 0
  | _ => after = before

namespace State

variable {state shared : State} {id : TaskId} {task later : Task} {event : Event} {act : Act}
  {kind : Role → Bool} {changes : Nat} {allowed : Act → Prop}

/-- What the job graph was told, the oldest first. -/
def switches (state : State) : List Bool :=
  state.calls.filterMap fun
    | .activateGraph leader => some leader
    | _ => none

/-- How many tasks of a kind were started. -/
def started (kind : Role → Bool) (state : State) : Nat := state.total fun task => (kind task.role).toNat

/-- The change that is under way has told the graph. -/
def signalled (state : State) : Nat := (state.changing.map (state.look Task.signalled 0)).getD 0

theorem Takes.calls (takes : state.Takes id event act shared) :
    shared.calls = state.calls ++ (match act with | .call request => [request] | _ => []) := by
  rw [State.calls, State.calls, takes.log, List.reverse_append, List.filterMap_append]
  cases act
  case deed deed result =>
    cases deed
    case enqueue node => cases result <;> rfl
    all_goals rfl
  all_goals rfl

theorem Takes.switches (takes : state.Takes id event act shared) :
    shared.switches = state.switches ++ act.switch?.toList := by
  rw [State.switches, State.switches, takes.calls, List.filterMap_append]
  cases act
  case call request => cases request <;> rfl
  all_goals rfl

/-- A task that moves starts nothing of the kind, but the end of a change to active starts one. -/
theorem Takes.started (takes : state.Takes id event act shared) (counts : Role.Kind kind)
    (found : state.task? id = some task) (goes : task.Goes state.settings act later) :
    (shared.setTask id later).started kind = state.started kind + act.groups := by
  have light : ∀ group checker, state.group = some group → state.task? group.checker = some checker →
      (kind checker.role).toNat = (kind checker.close.role).toNat := fun _ _ _ _ => rfl
  have moved : (shared.setTask id later).started kind = shared.started kind := by
    have sum : (shared.setTask id later).started kind + _ = shared.started kind + _ :=
      takes.total_setTask found light
    have same := congrArg Bool.toNat (counts.becomes goes.becomes)
    exact Nat.add_right_cancel (sum.trans (congrArg _ same))
  rw [moved]
  by_cases raises : act = .changeEnd true
  · subst raises
    cases takes
    have one := counts.one state.activations state.clock
    simp only [State.started, State.total, changeMode, ite_true, activate, List.map_append, List.map_cons,
      List.map_nil, List.sum_append, List.sum_cons, List.sum_nil]
    exact congrArg _ one
  · obtain ⟨raised, fresh, sum⟩ := takes.total light
    have none : act.groups = 0 := by
      unfold Act.groups
      split
      case h_1 => exact absurd rfl raises
      case h_2 => rfl
    rw [State.started, sum, none]
    refine congrArg _ (List.sum_eq_zero fun weight member => ?_)
    obtain ⟨one, among, rfl⟩ := List.mem_map.1 member
    obtain ⟨role, rfl, raised⟩ := fresh one among
    cases raised with
    | retry active node due => exact congrArg Bool.toNat (counts.retry _ _ _)
    | worker => exact absurd rfl raises
    | checker => exact absurd rfl raises

theorem signalled_congr {one other : State} (changing : other.changing = one.changing)
    (looks : ∀ id, one.changing = some id →
      other.look Task.signalled 0 id = one.look Task.signalled 0 id) : other.signalled = one.signalled := by
  unfold signalled
  rw [changing]
  cases changer : one.changing with
  | none => rfl
  | some id => exact looks id changer

theorem signalled_of_changing (changing : state.changing = some id) :
    state.signalled = state.look Task.signalled 0 id := by
  rw [signalled, changing]
  rfl

theorem signalled_of_settled (settled : state.changing = none) : state.signalled = 0 := by
  rw [signalled, settled]
  rfl

/-- Unless it is given up on, a change of the mode goes on to its end. -/
theorem Takes.turns (takes : state.Takes id event act shared) (sound : state.Sound allowed)
    (switched : state.Switched) (found : state.task? id = some task)
    (goes : task.Goes state.settings act later) (kept : act = .abandon → state.changing ≠ some id) :
    act.Turns (state.mode == .active) state.signalled (shared.setTask id later).signalled := by
  have looks : ∀ other, (shared.setTask id later).look Task.signalled 0 other =
      if id = other then later.signalled else state.look Task.signalled 0 other :=
    fun other => takes.look Task.sight_signalled (fun _ _ active known =>
      Task.signalled_of_not_steers ((sound.tasks known).not_steers (sound.checks active known))) found
  have changing : (shared.setTask id later).changing = act.changing id state.changing := takes.changing
  have steering : state.changing = some id ↔ task.steers?.isSome = true := by
    rw [switched.changer id, look_of_found found]
  have steers := goes.steers
  by_cases mine : state.changing = some id
  · obtain ⟨leader, towards⟩ := Option.isSome_iff_exists.1 (steering.1 mine)
    have needed := switched.needed ((look_of_found found).trans towards)
    have signals := goes.of_steers (sound.tasks found) towards
    have before : state.signalled = task.signalled :=
      (signalled_of_changing mine).trans (look_of_found found)
    have goesOn : act.changing id state.changing = some id →
        (shared.setTask id later).signalled = later.signalled := fun still => by
      rw [signalled_of_changing (changing.trans still), looks, if_pos rfl]
    rw [towards] at steers
    rw [before]
    cases act
    case call request =>
      rw [goesOn mine]
      cases request
      case activateGraph own =>
        have leads := (sound.tasks found).mayCall goes.begun?
        rw [(Task.of_steers? towards).1] at leads
        cases leads
        exact ⟨needed, signals⟩
      all_goals exact signals
    case changeBegin own => cases steers.1
    case changeEnd own =>
      cases steers.1
      exact ⟨needed, signals.1, signalled_of_settled changing⟩
    case abandon => exact absurd mine (kept rfl)
    all_goals exact (goesOn mine).trans signals
  · have away : task.steers? = none := by
      simpa using mt steering.2 mine
    have others : act.changing id state.changing = state.changing →
        (shared.setTask id later).signalled = state.signalled := fun same =>
      signalled_congr (changing.trans same) fun other known => by
        rw [looks, if_neg (by rintro rfl; exact mine known)]
    rw [away] at steers
    cases act
    case changeBegin leader =>
      have settled : state.changing = none := by cases takes; assumption
      change _ = _
      rw [signalled_of_settled settled, signalled_of_changing changing, looks, if_pos rfl, goes.unsignalled]
    case changeEnd leader => cases steers.1
    case call request =>
      cases request
      case activateGraph own =>
        obtain ⟨_, work⟩ := Task.work_of_call? goes.begun?
        cases away.symm.trans (Task.steers?_of_duty work ((sound.tasks found).mayCall goes.begun?))
      all_goals exact others rfl
    case abandon => exact others (if_neg mine)
    all_goals exact others rfl

/-- Nobody is given up on while changing the mode. -/
def Persists (state : State) (event : Event) : Prop := ∀ id ∈ state.changing, event ≠ .abandon id

instance (state : State) (event : Event) : Decidable (state.Persists event) :=
  inferInstanceAs (Decidable (∀ id ∈ state.changing, event ≠ .abandon id))

/-- After so many changes of the mode. -/
structure Toggled (changes : Nat) (state : State) : Prop where
  switches : state.switches = alternating (changes + state.signalled)
  mode : (state.mode == .active) = (changes % 2 == 1)
  workers : state.started Role.works = (changes + 1) / 2
  checkers : state.started Role.checks = (changes + 1) / 2

theorem initial_toggled (settings : Settings) (world : World) :
    (initial settings world).Toggled 0 := ⟨rfl, rfl, rfl, rfl⟩

namespace Toggled

theorem leads (toggled : state.Toggled changes) {leader : Bool} (needed : leader ≠ (state.mode == .active)) :
    leader = (changes % 2 == 0) := by
  rw [toggled.mode] at needed
  rcases Nat.mod_two_eq_zero_or_one changes with even | odd
  · simpa [even] using needed
  · simpa [odd] using needed

/-- What neither brings a group of tasks nor changes the mode leaves the count of changes as it is. -/
theorem still {after : State} (toggled : state.Toggled changes)
    (switches : after.switches = alternating (changes + after.signalled)) (mode : after.mode = state.mode)
    (counts : ∀ kind, Role.Kind kind → after.started kind = state.started kind) : after.Toggled changes where
  switches := switches
  mode := (congrArg (· == Mode.active) mode).trans toggled.mode
  workers := (counts _ Role.kind_works).trans toggled.workers
  checkers := (counts _ Role.kind_checks).trans toggled.checkers

theorem moved (toggled : state.Toggled changes) (takes : state.Takes id event act shared)
    (found : state.task? id = some task) (goes : task.Goes state.settings act later)
    (turns : act.Turns (state.mode == .active) state.signalled (shared.setTask id later).signalled) :
    ∃ changes, (shared.setTask id later).Toggled changes := by
  have counts : ∀ kind, Role.Kind kind →
      (shared.setTask id later).started kind = state.started kind + act.groups :=
    fun kind law => takes.started law found goes
  have switches : (shared.setTask id later).switches = state.switches ++ act.switch?.toList := takes.switches
  rw [toggled.switches] at switches
  have keeps : act.switch? = none → act.groups = 0 → (∀ leader, act ≠ .changeEnd leader) →
      (shared.setTask id later).signalled = state.signalled →
        ∃ changes, (shared.setTask id later).Toggled changes := by
    intro unsaid none notEnd signalled
    refine ⟨changes, toggled.still ?_ (takes.mode notEnd) fun kind law => ?_⟩
    · rw [switches, unsaid, signalled]
      exact List.append_nil _
    · rw [counts kind law, none, Nat.add_zero]
  cases act
  case call request =>
    cases request
    case activateGraph leader =>
      obtain ⟨needed, unsaid, said⟩ := turns
      refine ⟨changes, toggled.still ?_ (takes.mode nofun) counts⟩
      rw [switches, unsaid, said, alternating_succ, ← toggled.leads needed]
      rfl
    all_goals exact keeps rfl rfl nofun turns
  case changeEnd leader =>
    obtain ⟨needed, said, done⟩ := turns
    have mode : ((shared.setTask id later).mode == .active) = leader := takes.changed.2.1
    have groups : (changes + 1) / 2 + (Act.changeEnd leader).groups = (changes + 1 + 1) / 2 := by
      rw [toggled.leads needed]
      rcases Nat.mod_two_eq_zero_or_one changes with even | odd
      · simp only [even, beq_self_eq_true, Act.groups]
        omega
      · simp only [odd, Nat.one_ne_zero, beq_eq_false_iff_ne.2, ne_eq, not_false_eq_true, Act.groups]
        omega
    refine ⟨changes + 1, ?_, mode.trans ((toggled.leads needed).trans ?_), ?_, ?_⟩
    · rw [switches, said, done]
      exact List.append_nil _
    · rw [Bool.eq_iff_iff, beq_iff_eq, beq_iff_eq]
      omega
    · rw [counts _ Role.kind_works, toggled.workers, groups]
    · rw [counts _ Role.kind_checks, toggled.checkers, groups]
  all_goals exact keeps rfl rfl nofun turns

end Toggled

end State

open State in
/-- Unless it is given up on, a change of the mode goes on, and when it ends one more is done. -/
theorem Happens.toggled {state next : State} {event : Event} {allowed : Act → Prop} {changes : Nat}
    (happens : Happens state event next) (sound : state.Sound allowed) (switched : state.Switched)
    (persists : state.Persists event) (toggled : state.Toggled changes) : ∃ changes, next.Toggled changes := by
  cases happens with
  | @spawned _ role errands apart outside =>
      have signalled : (state.spawn (.fresh role errands)).signalled = state.signalled :=
        signalled_congr rfl fun _ _ => look_spawn Task.sight_signalled outside
      refine ⟨changes, toggled.still (signalled ▸ toggled.switches) rfl fun kind law => ?_⟩
      have weightless : (kind role).toNat = 0 := by rw [law.outside outside]; rfl
      exact (total_spawn _).trans (congrArg (state.started kind + ·) weightless)
  | @told _ id before role apart there told =>
      have signalled : (state.setTask id { before with role := role }).signalled = state.signalled :=
        signalled_congr rfl fun _ _ => look_told Task.sight_signalled there told
      refine ⟨changes, toggled.still (signalled ▸ toggled.switches) rfl fun kind law => ?_⟩
      exact total_setTask_of_eq there (congrArg Bool.toNat (law.becomes told.becomes))
  | @moved _ id before later act shared found goes takes =>
      refine toggled.moved takes found goes (takes.turns sound switched found goes fun isAbandon mine => ?_)
      subst isAbandon
      cases takes
      exact persists id mine rfl
  | passed millis => exact ⟨changes, toggled.switches, toggled.mode, toggled.workers, toggled.checkers⟩
  | written entry wall => exact ⟨changes, toggled.switches, toggled.mode, toggled.workers, toggled.checkers⟩

namespace State

variable {state next : State} {events : List Event} {id : TaskId} {task : Task} {leader : Bool}
  {rest : List Errand}

/-! ## The law -/

/-- What comes of a change of the mode to the one that is there: it comes back at once. -/
structure Repeats (state : State) (id : TaskId) (task : Task) (next : State) : Prop where
  back : next.task? id = some (task.completed .nothing)
  /-- No task is started, and none but its own is changed. -/
  tasks : next.tasks.length = state.tasks.length ∧ ∀ other, other ≠ id → next.task? other = state.task? other
  /-- No call is made, and nothing is taken from the queue. -/
  log : next.log = state.log
  shownMode : next.shownMode = state.shownMode
  /-- The activation stays, so that its retries are not cut off. -/
  group : next.group = state.group
  retries : next.retries = state.retries
  queue : next.queue = state.queue
  free : next.changing = none

/-- What is told of the mode, the mode and the tasks of the present activation agree. -/
structure Agrees (state : State) : Prop where
  shown : state.shownMode = .active ↔ state.mode = .active
  group : state.group.isSome = true ↔ state.mode = .active
  repeats : ∀ {id task leader rest}, state.task? id = some task → task.ended = false → task.work = none →
    task.errands = .lead leader :: rest → state.changing = none →
      leader = (state.shownMode == .active) →
        ∃ next, state.step (.proceed id) = some next ∧ state.Repeats id task next

/-- What the job graph was told goes with the changes of the mode. -/
structure Alternates (state : State) : Prop where
  /-- It was told true, false, true and so on. -/
  turns : state.switches = alternating state.switches.length
  last : state.changing = none → (state.switches.getLast? = some true ↔ state.mode = .active)
  /-- With every true one group of tasks was started. -/
  groups : state.changing = none → state.started Role.works = state.switches.count true ∧
    state.started Role.checks = state.switches.count true

theorem shownMode_eq_active : state.shownMode = .active ↔ state.active = true := by
  unfold shownMode
  cases state.active <;> simp

theorem Staffed.shownMode (staffed : state.Staffed) : state.shownMode = .active ↔ state.mode = .active := by
  rw [shownMode_eq_active, staffed.shown, ← staffed.mode, beq_iff_eq]

theorem Staffed.repeats (staffed : state.Staffed) (found : state.task? id = some task)
    (running : task.ended = false) (idle : task.work = none) (errands : task.errands = .lead leader :: rest)
    (free : state.changing = none) (same : leader = (state.shownMode == .active)) :
    ∃ next, state.step (.proceed id) = some next ∧ state.Repeats id task next := by
  have there : leader = (state.mode == .active) := by
    rw [same, Bool.eq_iff_iff, beq_iff_eq, beq_iff_eq]
    exact staffed.shownMode
  refine ⟨state.prune.setTask id (task.completed .nothing), ?_, ?_⟩
  · simp [step, proceed, found, running, idle, errands, beginErrand, free, prune, there]
  · exact {
      back := task?_setTask_of_found found
      tasks := ⟨List.length_set, fun other apart => task?_setTask_ne apart.symm⟩
      log := rfl
      shownMode := rfl
      group := rfl
      retries := rfl
      queue := rfl
      free := free }

theorem Toggled.alternates {changes : Nat} (toggled : state.Toggled changes) : state.Alternates where
  turns := by
    rw [toggled.switches, length_alternating]
  last := fun free => by
    have odd : state.mode = .active ↔ changes % 2 = 1 := by
      rw [← beq_iff_eq, toggled.mode, beq_iff_eq]
    rw [toggled.switches, signalled_of_settled free, getLast?_alternating, odd, Nat.add_zero]
  groups := fun free => by
    rw [toggled.switches, signalled_of_settled free, count_true_alternating]
    exact ⟨toggled.workers, toggled.checkers⟩

/-- On every run the mode, what is told of it and the tasks of the activation agree, and a change
to the mode that is there does nothing. Unless a change is given up on, the calls on the job graph
alternate, beginning with true, the last one says which mode it is, and as many groups of tasks
were started as there were calls with true. -/
theorem run_lifecycle (settings : Settings) (world : World)
    (run : (initial settings world).run events = some state) :
    state.Agrees ∧ ((initial settings world).Along Persists events → state.Alternates) := by
  have staffed := ((initial_governed settings world).run run).staffed
  refine ⟨⟨staffed.shownMode, ?_, staffed.repeats⟩, fun persists => ?_⟩
  · rw [← staffed.mode, beq_iff_eq]
  · obtain ⟨_, changes, toggled⟩ : state.Governed ∧ ∃ changes, state.Toggled changes := by
      refine run_induction (motive := fun _ after => after.Governed ∧ ∃ changes, after.Toggled changes)
        ⟨initial_governed settings world, 0, initial_toggled settings world⟩ ?_ persists run
      rintro _ event before after - - persists stepped ⟨governed, changes, toggled⟩
      exact ⟨governed.step stepped,
        (State.happens stepped).toggled governed.sound governed.switched persists toggled⟩
    exact toggled.alternates

/-! Two callers at once: the second waits while the graph takes its time, and then finds the
mode as it wants it. The leadership comes, goes and comes again, and is then confirmed once more. -/

private def confirmed : List Event :=
  [.arrive [.lead true, .lead false, .lead true], .arrive [.lead true], .proceed 0, .start 0, .pass 500,
    .answer 0 none none, .proceed 0, .proceed 1, .proceed 0, .start 0, .answer 0 none none, .proceed 0, .proceed 0,
    .start 0, .answer 0 none none, .proceed 0, .arrive [.lead true]]

theorem run_lifecycle_of_confirmed : ∃ state task next,
    (initial default .initial).run confirmed = some state ∧
      (initial default .initial).Along Persists confirmed ∧ state.changing = none ∧
      state.switches = [true, false, true] ∧ state.started Role.works = 2 ∧ state.Alternates ∧
      state.step (.proceed 6) = some next ∧ state.Repeats 6 task next := by
  have along : (initial default .initial).Along Persists confirmed := along_of_tally (by decide +kernel)
  have law : ∀ state, (initial default .initial).run confirmed = some state →
      state.Agrees ∧ ((initial default .initial).Along Persists confirmed → state.Alternates) :=
    fun _ run => run_lifecycle default .initial run
  obtain ⟨agrees, alternates⟩ := law _ rfl
  obtain ⟨next, stepped, repeats⟩ := @Agrees.repeats _ agrees 6 _ _ _ rfl rfl rfl rfl rfl rfl
  exact ⟨_, _, next, rfl, along, rfl, rfl, rfl, alternates along, stepped, repeats⟩

end State

end Handover.Coordinator
