import Handover.Proofs.Cancelled
import Handover.Proofs.Orderly

/-!
Contract: a node on standby is quiet.

Owns: what a node does not do from the moment it was told to go to standby until the next
activation, what goes on meanwhile, and that retries which were cancelled stay cancelled.
-/

set_option autoImplicit false

namespace Handover.Coordinator

open Takeover (Report)

/-! ## Who asks for takeovers -/

/-- Only callers ask for takeovers. A watcher changes the mode and waits for workers. -/
def Task.Asks (task : Task) : Prop := ∀ node, .takeOver node ∈ task.errands → task.role = .caller

theorem Role.Becomes.of_caller {role : Role} (becomes : Role.Becomes .caller role) : role = .caller := by
  cases becomes
  rfl

theorem Task.Goes.takeOver_mem {settings : Settings} {task later : Task} {act : Act} {node : Address}
    (goes : task.Goes settings act later) (member : .takeOver node ∈ later.errands) :
    .takeOver node ∈ task.errands := by
  cases goes with
  | errandEnded running work errands ends => exact List.mem_of_mem_tail member
  | leadSkipped running idle errands => exact List.mem_of_mem_tail member
  | awaitedAll running idle errands => exact List.mem_of_mem_tail member
  | drained workers running idle errands =>
      rw [errands]
      simpa using member
  | awaited running idle errands =>
      rw [errands]
      simpa using member
  | looked running idle errands role => simp at member
  | left running idle errands role => simp [Errand.shutdown] at member
  | closed => cases member
  | released => cases member
  | pushed => cases member
  | abandoned => cases member
  | _ => exact member

theorem Task.asks_lasts (settings : Settings) : Task.Lasts settings (fun _ => True) Task.Asks where
  outside := by
    rintro _ _ (_ | _ | _ | _) node member
    · rfl
    all_goals cases member
  raised := fun _ node member => nomatch member
  told := by
    intro task role told asks node member
    have caller := asks node member
    have becomes := told.becomes
    rw [caller] at becomes
    exact becomes.of_caller
  goes := by
    intro task act later _ goes asks node member
    have caller := asks node (goes.takeOver_mem member)
    exact (caller ▸ goes.becomes).of_caller
  cut := fun _ _ node member => nomatch member

/-- Only a checker has the job graph built. -/
theorem Task.checks_of_build {task : Task} (build : task.duty = .build) : task.role.Checks := by
  obtain ⟨role, errands, _, _, _⟩ := task
  cases errands with
  | cons errand rest => cases errand <;> cases build
  | nil =>
      cases role
      case worker activation holds node => cases node <;> cases build
      case checker activation due => exact ⟨activation, due, rfl⟩
      all_goals cases build

/-- Only the end of a takeover is written down as one. -/
theorem Act.finished_mem {act : Act} {id other : TaskId} {report : Report}
    (member : .finished other report ∈ act.notes id) : other = id ∧ ∃ outside, act = .finish report outside := by
  cases act
  case finish own outside =>
    cases List.mem_singleton.1 member
    exact ⟨rfl, outside, rfl⟩
  case deed deed result =>
    cases deed
    case enqueue node => cases result <;> simp [Act.notes] at member
    all_goals simp [Act.notes] at member
  all_goals simp [Act.notes] at member

/-- On standby a takeover is in progress after a move only if it was before, or one begins that
was asked for. -/
theorem Act.Brings.ongoing {act : Act} {before after : Option Address} {node : Address}
    (brings : act.Brings before after) (here : after = some node) (notTake : act ≠ .take node) :
    act = .begin node ∨ before = some node ∧ ∀ report outside, act ≠ .finish report outside := by
  by_cases begins : act = .begin node
  · exact .inl begins
  · refine .inr ⟨brings.same here notTake begins, ?_⟩
    rintro report outside rfl
    cases brings.2.symm.trans here

/-! ## One event on standby -/

/-- What is written down on standby: no report is taken, no build of the job graph begins, and
no takeover but one that a caller asked for. -/
def Occurrence.Quiet (state : State) : Occurrence → Prop
  | .taken _ _ => False
  | .called _ (.buildGraph _) => False
  | .began id _ => ∃ task, state.task? id = some task ∧ task.role = .caller
  | _ => True

namespace State

/-- What a node on standby has come to, with what was written down meanwhile. -/
structure Silent (before : State) (news : List Occurrence) (after : State) : Prop where
  inactive : after.group = none
  log : after.log = news ++ before.log
  quiet : ∀ occurrence ∈ news, occurrence.Quiet after
  /-- A takeover in progress was in progress before, unless a caller asked for it. -/
  ongoing : ∀ {id node}, after.IsAt id node →
    (before.IsAt id node ∧ ∀ report, .finished id report ∉ news) ∨
      ∃ task, after.task? id = some task ∧ task.role = .caller
  /-- No retry comes up. -/
  retries : ∀ {id task node}, after.task? id = some task → task.role.retries? = some node →
    ∃ former, before.task? id = some former ∧ former.role = task.role
  /-- No retry is counted. -/
  budgets : ∀ node, after.retries.find? node = before.retries.find? node ∨
    after.retries.find? node = none

variable {before state next shared : State} {event : Event} {id other : TaskId} {task later : Task} {act : Act}
  {news : List Occurrence} {node : Address}

theorem Silent.refl (inactive : state.group = none) : Silent state [] state where
  inactive := inactive
  log := rfl
  quiet := nofun
  ongoing := fun isAt => .inl ⟨isAt, nofun⟩
  retries := fun found _ => ⟨_, found, rfl⟩
  budgets := fun _ => .inl rfl

/-- A move that writes down what is loud on standby is one that only an active node makes. -/
theorem Takes.quiet_notes (takes : state.Takes id event act shared) (found : state.task? id = some task)
    (goes : task.Goes state.settings act later) (sound : state.Sound fun _ => True) (staffed : state.Staffed)
    (asks : task.Asks) (inactive : state.group = none) :
    ∀ occurrence ∈ act.notes id, occurrence.Quiet (shared.setTask id later) := by
  obtain ⟨_, still⟩ := takes.there found
  intro occurrence member
  cases act
  case call request =>
    obtain rfl := List.mem_singleton.1 member
    cases request
    case buildGraph day =>
      have next := goes.begun?
      have build : task.duty = .build := (sound.tasks found).mayCall next
      obtain ⟨_, work⟩ := Task.work_of_call? next
      obtain ⟨_, active, _⟩ := staffed.checkers found (Task.checks_of_build build) ((sound.tasks found).running work)
      cases inactive.symm.trans active
    all_goals trivial
  case take own =>
    cases takes with
    | take active first =>
        rw [inactive] at active
        cases active
  case begin own =>
    obtain rfl := List.mem_singleton.1 member
    obtain ⟨_, _, rest, errands⟩ := goes.asked
    have caller := asks own (by rw [errands]; exact List.mem_cons_self)
    exact ⟨later, task?_setTask_of_found still, (caller ▸ goes.becomes).of_caller⟩
  case finish report outside =>
    obtain rfl := List.mem_singleton.1 member
    trivial
  case deed deed result =>
    cases deed
    case enqueue own =>
      cases result with
      | true =>
          obtain rfl := List.mem_singleton.1 member
          trivial
      | false => cases member
    all_goals cases member
  all_goals cases member

/-- A move on standby leaves the budget of each node as it is, or clears it. -/
theorem Takes.budget_of_inactive (takes : state.Takes id event act shared) (inactive : state.group = none)
    (node : Address) : shared.retries.find? node = state.retries.find? node ∨ shared.retries.find? node = none := by
  by_cases forgets : act.deed? = some (.forgetRetries node)
  · right
    cases takes with
    | deed wall draw happened =>
        cases forgets
        cases happened
        exact (Table.find?_erase _ _ _).trans (if_pos rfl)
    | _ => cases forgets
  · left
    by_cases schedules : act.deed? = some (.scheduleRetry node)
    · cases act with
      | deed own result =>
          cases schedules
          rw [takes.eq_of_standby inactive]
      | _ => cases schedules
    · refine takes.budget fun deed own => ⟨?_, ?_⟩
      · rintro rfl
        exact forgets own
      · rintro rfl
        exact schedules own

/-- Only the end of a change to active starts an activation. -/
theorem Takes.inactive (takes : state.Takes id event act shared) (inactive : state.group = none)
    (same : shared.activations = state.activations) : shared.group = none := by
  by_cases isEnd : ∃ leader, act = .changeEnd leader
  · obtain ⟨leader, rfl⟩ := isEnd
    obtain ⟨group, _, _, activations⟩ := takes.changed
    cases leader with
    | true =>
        rw [activations] at same
        exact absurd same (Nat.succ_ne_self _)
    | false => exact group
  · exact (takes.group fun leader is => isEnd ⟨leader, is⟩).trans inactive

end State

open State in
/-- A caller stays a caller. -/
theorem Happens.caller {state next : State} {event : Event} {id : TaskId} (happens : Happens state event next)
    (was : ∃ task, state.task? id = some task ∧ task.role = .caller) :
    ∃ task, next.task? id = some task ∧ task.role = .caller := by
  obtain ⟨task, found, caller⟩ := was
  cases happens with
  | spawned _ outside => exact ⟨task, task?_spawn found, caller⟩
  | @told _ other before role _ there told =>
      by_cases mine : other = id
      · subst mine
        cases there.symm.trans found
        refine ⟨_, task?_setTask_of_found there, ?_⟩
        exact (caller ▸ told.becomes).of_caller
      · exact ⟨task, (task?_setTask_ne mine).trans found, caller⟩
  | @moved _ other before later act shared there goes takes =>
      by_cases mine : other = id
      · subst mine
        cases there.symm.trans found
        obtain ⟨_, still⟩ := takes.there found
        exact ⟨later, task?_setTask_of_found still, (caller ▸ goes.becomes).of_caller⟩
      · rw [task?_setTask_ne mine]
        rcases takes.task? found with same | ⟨_, closed, _⟩
        · exact ⟨task, same, caller⟩
        · exact ⟨_, closed, caller⟩
  | passed millis => exact ⟨task, found, caller⟩
  | written entry wall => exact ⟨task, found, caller⟩

open State in
theorem Occurrence.Quiet.onward {state next : State} {event : Event} {occurrence : Occurrence}
    (quiet : occurrence.Quiet state) (happens : Happens state event next) : occurrence.Quiet next := by
  cases occurrence with
  | began id node => exact happens.caller quiet
  | called id request => cases request <;> exact quiet
  | _ => exact quiet

namespace State

variable {before state next shared : State} {event : Event} {events : List Event} {id other : TaskId}
  {task later : Task} {act : Act} {news : List Occurrence} {node : Address}

theorem Silent.onward (silent : Silent before news state) (happens : Happens state event next) :
    ∀ occurrence ∈ news, occurrence.Quiet next :=
  fun occurrence member => (silent.quiet occurrence member).onward happens

theorem Silent.lasts (silent : Silent before news state) (happens : Happens state event next)
    (isAt : state.IsAt id node) : (before.IsAt id node ∧ ∀ report, .finished id report ∉ news) ∨
      ∃ task, next.task? id = some task ∧ task.role = .caller :=
  (silent.ongoing isAt).imp_right happens.caller

theorem Silent.spawned {role : Role} {errands : List Errand} (silent : Silent before news state)
    (apart : event.mover = none) (outside : Outside role errands) :
    Silent before news (state.spawn (.fresh role errands)) where
  inactive := silent.inactive
  log := silent.log
  quiet := silent.onward (.spawned apart outside)
  ongoing := fun isAt => by
    rw [IsAt, look_spawn Task.sight_at? outside] at isAt
    exact silent.lasts (.spawned apart outside) isAt
  retries := fun found retries => by
    rcases of_task?_spawn found with was | rfl
    · exact silent.retries was retries
    · cases outside <;> cases retries
  budgets := silent.budgets

theorem Silent.told {role : Role} (silent : Silent before news state) (apart : event.mover = none)
    (found : state.task? id = some task) (told : task.role.Told role) :
    Silent before news (state.setTask id { task with role := role }) where
  inactive := silent.inactive
  log := silent.log
  quiet := silent.onward (.told apart found told)
  ongoing := fun isAt => by
    rw [IsAt, look_told Task.sight_at? found told] at isAt
    exact silent.lasts (.told apart found told) isAt
  retries := fun there retries => by
    rcases (task?_setTask_iff found).1 there with ⟨_, rfl⟩ | ⟨_, was⟩
    · generalize former : Task.role _ = role at told
      cases told <;> cases retries
    · exact silent.retries was retries
  budgets := silent.budgets

section Move

variable {one : Task}

/-- A takeover in progress after a move on standby was in progress before, unless a caller asked for it. -/
theorem Silent.ongoing_of_move (silent : Silent before news state) (sound : state.Sound fun _ => True)
    (found : state.task? id = some task) (goes : task.Goes state.settings act later)
    (takes : state.Takes id event act shared)
    (quiet : ∀ occurrence ∈ act.notes id, occurrence.Quiet (shared.setTask id later))
    (isAt : (shared.setTask id later).IsAt other node) :
    (before.IsAt other node ∧ ∀ report, .finished other report ∉ act.notes id ++ news) ∨
      ∃ one, (shared.setTask id later).task? other = some one ∧ one.role = .caller := by
  have notTake : ∀ node, act ≠ .take node := by
    rintro node rfl
    cases takes with
    | take active first =>
        rw [silent.inactive] at active
        cases active
  have still : state.IsAt other node → (∀ report, .finished other report ∉ act.notes id) →
      (before.IsAt other node ∧ ∀ report, .finished other report ∉ act.notes id ++ news) ∨
        ∃ one, (shared.setTask id later).task? other = some one ∧ one.role = .caller := by
    intro isAt notNow
    rcases silent.lasts (.moved found goes takes) isAt with ⟨was, notEarlier⟩ | caller
    · refine .inl ⟨was, fun report member => ?_⟩
      exact (List.mem_append.1 member).elim (notNow report) (notEarlier report)
    · exact .inr caller
  rw [IsAt, takes.look Task.sight_at? (fun _ _ active known =>
    ((sound.tasks known).of_checks (sound.checks active known)).1) found] at isAt
  split at isAt
  case isFalse apart =>
    exact still isAt fun report member => apart (Act.finished_mem member).1.symm
  case isTrue self =>
    subst self
    have brings : act.Brings task.at? later.at? := goes.at? (sound.tasks found)
    rcases brings.ongoing isAt (notTake node) with rfl | ⟨was, unfinished⟩
    · exact .inr (quiet (.began id node) List.mem_cons_self)
    · refine still ((look_of_found found).trans was) fun report member => ?_
      obtain ⟨_, outside, isFinish⟩ := Act.finished_mem member
      exact unfinished report outside isFinish

/-- A retry that there is after a move on standby was there before. -/
theorem Silent.retries_of_move (silent : Silent before news state) (found : state.task? id = some task)
    (goes : task.Goes state.settings act later) (takes : state.Takes id event act shared)
    (there : (shared.setTask id later).task? other = some one) (retries : one.role.retries? = some node) :
    ∃ former, before.task? other = some former ∧ former.role = one.role := by
  obtain ⟨_, still⟩ := takes.there found
  rcases (task?_setTask_iff still).1 there with ⟨rfl, rfl⟩ | ⟨_, after⟩
  · obtain ⟨activation, due, role⟩ := Role.eq_of_retries? retries
    have was : task.role = .retry activation node due := (role ▸ goes.becomes).eq_retry
    obtain ⟨former, known, same⟩ := silent.retries found (by rw [was]; rfl)
    exact ⟨former, known, same.trans (was.trans role.symm)⟩
  · rcases takes.of_task? after with was | ⟨_, role, rfl, raised⟩ | ⟨closed, _, was, rfl, _⟩
    · exact silent.retries was retries
    · cases raised with
      | retry active => cases silent.inactive.symm.trans active
      | _ => cases retries
    · obtain ⟨former, known, same⟩ := silent.retries was retries
      exact ⟨former, known, same⟩

theorem Silent.moved (silent : Silent before news state) (sound : state.Sound fun _ => True)
    (staffed : state.Staffed) (asks : task.Asks) (found : state.task? id = some task)
    (goes : task.Goes state.settings act later) (takes : state.Takes id event act shared)
    (same : shared.activations = state.activations) :
    Silent before (act.notes id ++ news) (shared.setTask id later) := by
  have quiet := takes.quiet_notes found goes sound staffed asks silent.inactive
  have log : (shared.setTask id later).log = act.notes id ++ state.log := takes.log
  exact {
    inactive := takes.inactive silent.inactive same
    log := by rw [log, silent.log, List.append_assoc]
    quiet := fun occurrence member => (List.mem_append.1 member).elim (quiet occurrence)
      (silent.onward (.moved found goes takes) occurrence)
    ongoing := silent.ongoing_of_move sound found goes takes quiet
    retries := silent.retries_of_move found goes takes
    budgets := fun node => by
      change shared.retries.find? node = _ ∨ shared.retries.find? node = none
      rcases takes.budget_of_inactive silent.inactive node with unchanged | cleared
      · rw [unchanged]
        exact silent.budgets node
      · exact .inr cleared }

end Move

/-- What one event adds on standby. -/
theorem Silent.step (silent : Silent before news state) (sound : state.Sound fun _ => True)
    (staffed : state.Staffed) (asks : ∀ id task, state.task? id = some task → task.Asks)
    (happens : Happens state event next) (same : next.activations = state.activations) :
    ∃ more, Silent before (more ++ news) next := by
  cases happens with
  | spawned apart outside => exact ⟨[], silent.spawned apart outside⟩
  | told apart found told => exact ⟨[], silent.told apart found told⟩
  | moved found goes takes =>
      exact ⟨_, silent.moved sound staffed (asks _ _ found) found goes takes same⟩
  | passed millis =>
      exact ⟨[], silent.inactive, silent.log, silent.onward (.passed millis), silent.lasts (.passed millis),
        silent.retries, silent.budgets⟩
  | written entry wall =>
      exact ⟨[], silent.inactive, silent.log, silent.onward (.written entry wall),
        silent.lasts (.written entry wall), silent.retries, silent.budgets⟩

/-! ## Told to go to standby -/

/-- A change of the leadership, asked for by the task, has come to its end with its next move. -/
structure Returns (state : State) (id : TaskId) (leader : Bool) (returned : State) : Prop where
  step : state.step (.proceed id) = some returned
  ends : ∃ task rest outcome, state.task? id = some task ∧ task.errands = .lead leader :: rest ∧
    returned.task? id = some (task.completed outcome)

/-- When a change to standby has come to its end, no activation is left, also where there
was nothing to change. -/
theorem Returns.inactive {returned : State} (returns : state.Returns id false returned) (staffed : state.Staffed) :
    returned.group = none := by
  obtain ⟨stepped, task, rest, outcome, found, errands, done⟩ := returns
  have moves : state.proceed id = some returned := stepped
  unfold proceed at moves
  simp only [found, errands, Option.bind_eq_bind, Option.bind_some] at moves
  split at moves
  case isTrue => cases moves
  case isFalse =>
    split at moves
    case h_1 _ _ _ _ _ _ same =>
      cases same
      cases Option.some.inj moves
      rfl
    case h_4 _ _ _ _ _ same =>
      cases same
      simp only [beginErrand] at moves
      split at moves
      case isTrue => cases moves
      case isFalse =>
        split at moves
        case isTrue same =>
          cases Option.some.inj moves
          have inactive : state.group.isSome = false := staffed.mode.symm.trans same.symm
          have none : state.group = none := by simpa using inactive
          exact none
        case isFalse =>
          -- the change only begins with this move
          cases Option.some.inj moves
          have begun : (state.setTask id (task.begin (toggleScript false))).task? id =
              some (task.begin (toggleScript false)) := task?_setTask_of_found found
          simpa [Task.begin, Task.completed] using begun.symm.trans done
    all_goals simp_all

/-! ## The laws together -/

structure Governed (state : State) : Prop where
  sound : state.Sound fun _ => True
  switched : state.Switched
  staffed : state.Staffed
  timed : state.Timed
  asks : ∀ id task, state.task? id = some task → task.Asks

theorem initial_governed (settings : Settings) (world : World) :
    (initial settings world).Governed where
  sound := ⟨initial_grouped _ _, nofun⟩
  switched := initial_switched settings world
  staffed := initial_staffed settings world
  timed := initial_timed settings world
  asks := nofun

theorem Governed.step (governed : state.Governed) (stepped : state.step event = some next) : next.Governed := by
  have happens := State.happens stepped
  exact {
    sound := happens.sound heeds_any governed.sound
    switched := happens.switched governed.sound governed.switched
    staffed := happens.staffed governed.sound governed.switched governed.staffed
    timed := governed.timed.step governed.sound stepped
    asks := happens.tasks (Task.asks_lasts _) heeds_any governed.sound.grouped governed.asks }

theorem Governed.run (governed : before.Governed) (run : before.run events = some state) : state.Governed :=
  run_induction (motive := fun _ after => after.Governed) governed
    (fun _ _ _ stepped governed => governed.step stepped) (along_of_forall fun _ _ => trivial) run

/-- Until the next activation a node on standby is silent. -/
theorem Governed.silent (governed : before.Governed) (inactive : before.group = none)
    (run : before.run events = some state) (same : state.activations = before.activations) :
    ∃ news, Silent before news state := by
  refine (run_induction (motive := fun _ after => after.Governed ∧ before.activations ≤ after.activations ∧
    (after.activations = before.activations → ∃ news, Silent before news after))
    ⟨governed, le_rfl, fun _ => ⟨[], .refl inactive⟩⟩ ?_ (along_of_forall fun _ _ => trivial) run).2.2 same
  rintro _ event middle next - - - stepped ⟨governed, counted, silent⟩
  have happens := State.happens stepped
  have grows := happens.activations_le
  refine ⟨governed.step stepped, counted.trans grows, fun same => ?_⟩
  have still : middle.activations = before.activations := by omega
  obtain ⟨news, silent⟩ := silent still
  obtain ⟨more, silent⟩ := silent.step governed.sound governed.staffed governed.asks happens (by omega)
  exact ⟨_, silent⟩

/-! ## The law -/

/-- What a node keeps to from the moment a change to standby has come to its end. -/
structure Quiet (returned : State) : Prop where
  /-- Until the next activation no report is taken, no build of the job graph begins, no retry
  is scheduled or counted, and of takeovers only the one in progress and those that callers ask
  for go on. -/
  silent : ∀ {events later}, returned.run events = some later → later.activations = returned.activations →
    ∃ news, Silent returned news later
  /-- The takeover in progress goes on until it is finished, also when the mode changes again. -/
  outlasts : ∀ {events later id node}, .abandon id ∉ events → returned.run events = some later →
    returned.IsAt id node → Outlasts id node returned later
  /-- Where its task moves again and again it is finished, unless its listings never get past the
  largest row id. -/
  ends : ∀ {course : Nat → State} {events : Nat → Event} {id node}, returned.IsAt id node →
    course 0 = returned → Unending course events → (∀ time other, events time ≠ .abandon other) →
      (∀ time, ∃ later, time ≤ later ∧ (events later).mover = some id) →
        Unhindered.Ends course id node ∨ RelistsForever course events id
  /-- A retry whose delay is not over never queues its node, not in a later activation either. -/
  cancels : ∀ {id task activation node due events}, returned.task? id = some task →
    task.role = .retry activation node due → returned.clock < due → returned.Along Patient events →
      returned.Along (fun state event => ∀ deed, state.deed? event ≠ some (id, deed)) events

theorem Governed.cancelled (governed : state.Governed) {activation due : Nat}
    (found : state.task? id = some task) (role : task.role = .retry activation node due)
    (stopped : state.isStopped activation = true) (early : task.ended = true ∨ state.clock < due) :
    state.Cancelled id := by
  have idle : task.work = none := by
    rcases early with ended | early
    · exact (governed.sound.tasks found).rests ended
    · by_contra busy
      exact absurd early (Nat.not_lt.2 (governed.timed _ _ _ _ _ found role (Option.isSome_iff_ne_none.2 busy)))
  exact ⟨task, activation, node, due, found, role, idle, early.imp_right fun early => ⟨early, stopped⟩⟩

private def granted (id : TaskId) : List Event := [.start id, .answer id none none]

end State

end Handover.Coordinator
