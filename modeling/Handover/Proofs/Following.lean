import Handover.Proofs.Shutdown

/-!
Contract: the mode follows what an election publishes.

Owns: what a watcher of an election hears, and how far it has come with it; that the value it
looked at last is the one that is applied; that nothing published is passed over; and that it
leaves the node on standby, with no worker left.

Publications are numbered, and the watcher knows the number of the one that it looked at last.
While it applies that one, later ones may come and replace each other. It looks again as soon as
it is done, and then it sees the latest.
-/

set_option autoImplicit false

namespace Handover.Coordinator

/-! ## What is published -/

/-- What is published to the watcher, the oldest first. -/
def published (id : TaskId) (events : List Event) : List Bool :=
  events.filterMap fun
    | .publish other leader => if other = id then some leader else none
    | _ => none

theorem published_append (id : TaskId) (first second : List Event) :
    published id (first ++ second) = published id first ++ published id second := by
  simp [published]

/-- What an event makes of the feed of the watcher, if it does not move it. -/
def Event.tells (id : TaskId) (feed : Feed) : Event → Feed
  | .publish other leader => if other = id then feed.publish leader else feed
  | .close other => if other = id then { feed with closed := true } else feed
  | .stop other => if other = id then { feed with stopped := true } else feed
  | _ => feed

/-- A watcher hears of a publication, or that there will be no more, or that it is to stop. -/
theorem Event.tells_cases (id : TaskId) (feed : Feed) (event : Event) :
    (∃ leader, event.tells id feed = feed.publish leader ∧ published id [event] = [leader]) ∨
      published id [event] = [] ∧
        (event.tells id feed = feed ∨ event.tells id feed = { feed with closed := true } ∨
          event.tells id feed = { feed with stopped := true }) := by
  cases event with
  | publish other leader =>
      by_cases same : other = id
      · exact .inl ⟨leader, by simp [tells, same], by simp [published, same]⟩
      · exact .inr ⟨by simp [published, same], .inl (by simp [tells, same])⟩
  | close other =>
      by_cases same : other = id
      · exact .inr ⟨rfl, .inr (.inl (by simp [tells, same]))⟩
      · exact .inr ⟨rfl, .inl (by simp [tells, same])⟩
  | stop other =>
      by_cases same : other = id
      · exact .inr ⟨rfl, .inr (.inr (by simp [tells, same]))⟩
      · exact .inr ⟨rfl, .inl (by simp [tells, same])⟩
  | _ => exact .inr ⟨rfl, .inl rfl⟩

/-- The feed shows the latest of the values, and counts those after the first. -/
structure Feed.Shows (values : List Bool) (feed : Feed) : Prop where
  latest : values.getLast? = some feed.leader
  count : values.length = feed.publications + 1
  seen : ∀ {number}, feed.seen = some number → number ≤ feed.publications

namespace Feed

variable {values : List Bool} {feed : Feed} {event : Event} {id : TaskId}

theorem hasUnseen_eq_false_iff : feed.hasUnseen = false ↔ feed.seen = some feed.publications := by
  simp [hasUnseen]

theorem of_mayLeave (may : feed.mayLeave = true) :
    feed.stopped = true ∨ feed.closed = true ∧ feed.hasUnseen = false := by
  simp only [mayLeave, Bool.and_eq_true, Bool.or_eq_true, Bool.not_eq_true'] at may
  exact may.2

theorem shows_opening (leader : Bool) : (opening leader).Shows [leader] where
  latest := rfl
  count := rfl
  seen := nofun

/-- The number of the latest value is that of the publications. -/
theorem Shows.getElem?_publications (shows : feed.Shows values) :
    values[feed.publications]? = values.getLast? := by
  rw [List.getLast?_eq_getElem?, shows.count, Nat.add_sub_cancel]

theorem Shows.look (shows : feed.Shows values) : feed.look.Shows values where
  latest := shows.latest
  count := shows.count
  seen := fun seen => (Option.some.inj seen).ge

theorem Shows.tells (shows : feed.Shows values) :
    (event.tells id feed).Shows (values ++ published id [event]) := by
  obtain ⟨leader, told, one⟩ | ⟨none, told | told | told⟩ := event.tells_cases id feed
  · rw [told, one]
    exact ⟨by simp [publish], by simp [publish, shows.count], fun seen => Nat.le_succ_of_le (shows.seen seen)⟩
  all_goals
    rw [told, none, List.append_nil]
    exact ⟨shows.latest, shows.count, shows.seen⟩

/-- Only the watcher itself looks; what was published stays so, and so does the request to stop. -/
theorem tells_keeps (id : TaskId) (feed : Feed) (event : Event) : (event.tells id feed).seen = feed.seen ∧
    feed.publications ≤ (event.tells id feed).publications ∧
      (feed.stopped = true → (event.tells id feed).stopped = true) := by
  obtain ⟨leader, told, _⟩ | ⟨_, told | told | told⟩ := event.tells_cases id feed
  · exact ⟨by rw [told]; rfl, by rw [told]; exact Nat.le_succ _, fun stopped => by rw [told]; exact stopped⟩
  · exact ⟨by rw [told], by rw [told], fun stopped => by rw [told]; exact stopped⟩
  · exact ⟨by rw [told], by rw [told], fun stopped => by rw [told]; exact stopped⟩
  · exact ⟨by rw [told], by rw [told], fun _ => by rw [told]⟩

end Feed

/-! ## How a watcher moves -/

namespace State

variable {state next : State} {event : Event} {id other : TaskId} {task : Task} {feed : Feed}
  {leaving : Bool} {allowed : Act → Prop}

theorem changeFeed_task? {change : Feed → Feed} (stepped : state.changeFeed other change = some next)
    (found : state.task? id = some task) (role : task.role = .watcher feed leaving) :
    next.task? id =
      some { task with role := .watcher (if other = id then change feed else feed) leaving } := by
  obtain ⟨one, there, stepped⟩ := Option.bind_eq_some_iff.1 stepped
  split at stepped
  case h_1 own left watches =>
    cases stepped
    by_cases same : other = id
    · subst same
      cases found.symm.trans there
      cases role.symm.trans watches
      rw [if_pos rfl]
      exact task?_setTask_of_found there
    · rw [if_neg same, task?_setTask_ne same, found, ← role]
  case h_2 => cases stepped

theorem askToStop_task? (stepped : state.askToStop other = some next)
    (found : state.task? id = some task) (role : task.role = .watcher feed leaving) :
    next.task? id = some { task with
      role := .watcher (if other = id then { feed with stopped := true } else feed) leaving } := by
  obtain ⟨one, there, stepped⟩ := Option.bind_eq_some_iff.1 stepped
  by_cases same : other = id
  · subst same
    cases found.symm.trans there
    rw [role] at stepped
    cases stepped
    rw [if_pos rfl]
    exact task?_setTask_of_found there
  · have still : next.task? id = state.task? id := by
      split at stepped <;> cases stepped <;> exact task?_setTask_ne same
    rw [still, found, if_neg same, ← role]

/-- A watcher that does not move goes on as it is, but it hears what concerns it. -/
theorem Sound.watcher_hears (sound : state.Sound allowed) (stepped : state.step event = some next)
    (found : state.task? id = some task) (role : task.role = .watcher feed leaving)
    (away : event.mover ≠ some id) :
    next.task? id = some { task with role := .watcher (event.tells id feed) leaving } := by
  have unchecked : ¬ task.role.Checks := by simp [Role.Checks, role]
  have same : ({ task with role := .watcher feed leaving } : Task) = task := by rw [← role]
  have still : (∃ mover, event.mover = some mover) → next.task? id = some task := by
    rintro ⟨mover, moves⟩
    cases State.happens stepped with
    | moved there goes takes =>
        rw [task?_setTask_ne (by rintro rfl; exact away takes.mover)]
        rcases takes.task? found with same | ⟨_, _, group, active, rfl⟩
        · exact same
        · exact absurd (sound.checks active found) unchecked
    | spawned none => cases none.symm.trans moves
    | told none => cases none.symm.trans moves
    | passed => cases moves
    | written => cases moves
  cases event with
  | publish other leader => exact changeFeed_task? stepped found role
  | close other => exact changeFeed_task? stepped found role
  | stop other => exact askToStop_task? stepped found role
  | arrive _ | follow _ | monitor _ | beat _ =>
      cases stepped
      exact (task?_spawn found).trans (congrArg some same.symm)
  | pass _ | write _ _ =>
      cases stepped
      exact found.trans (congrArg some same.symm)
  | _ => exact (still ⟨_, rfl⟩).trans (congrArg some same.symm)

/-- A watcher withdraws only while it has nothing to do, and only if it may. -/
theorem watcher_quits (stepped : state.quit id = some next) (found : state.task? id = some task)
    (role : task.role = .watcher feed leaving) (idle : task.work = none) (errands : task.errands = []) :
    leaving = false ∧ feed.mayLeave = true ∧
      next = state.setTask id { task with role := .watcher feed true, errands := Errand.shutdown } := by
  have moves : task.ended = false ∧ (leaving = false ∧ feed.mayLeave = true) ∧ state.setTask id
      { task with role := .watcher feed true, errands := Errand.shutdown } = next := by
    simpa [quit, found, idle, errands, role] using stepped
  exact ⟨moves.2.1.1, moves.2.1.2, moves.2.2.symm⟩

/-- A watcher that has nothing to do ends if it has withdrawn, or looks at what it has not
seen, or withdraws if it may. -/
theorem watcher_moves (stepped : state.step event = some next) (found : state.task? id = some task)
    (role : task.role = .watcher feed leaving) (idle : task.work = none) (errands : task.errands = [])
    (own : event.mover = some id) :
    (leaving = true ∧ next = state.setTask id task.close) ∨
      (leaving = false ∧ feed.hasUnseen = true ∧
        next = state.setTask id
          { task with role := .watcher feed.look false, errands := [.lead feed.leader] }) ∨
      (leaving = false ∧ feed.mayLeave = true ∧
        next = state.setTask id { task with role := .watcher feed true, errands := Errand.shutdown }) := by
  cases event <;> cases own
  case start => simp [step, found, idle] at stepped
  case answer => simp [step, found, idle] at stepped
  case effect => simp [step, found, idle] at stepped
  case abandon => simp [step, abandon, found, role] at stepped
  case proceed =>
    cases leaving with
    | true =>
        have moves : task.ended = false ∧ state.setTask id task.close = next := by
          simpa [step, proceed, found, idle, errands, beginRole, role] using stepped
        exact .inl ⟨rfl, moves.2.symm⟩
    | false =>
        have moves : task.ended = false ∧ feed.hasUnseen = true ∧ state.setTask id
            { task with role := .watcher feed.look false, errands := [.lead feed.leader] } = next := by
          simpa [step, proceed, found, idle, errands, beginRole, role] using stepped
        exact .inr (.inl ⟨rfl, moves.2.1, moves.2.2.symm⟩)
  case quit => exact .inr (.inr (watcher_quits stepped found role idle errands))

end State

/-! ## How far a watcher has come -/

namespace State

/-- What a watcher is at that follows the values. -/
inductive Watching (values : List Bool) (state : State) (task : Task) (feed : Feed) : Prop
  /-- It waits, and the value that it looked at last is applied. -/
  | waiting (role : task.role = .watcher feed false) (errands : task.errands = []) (idle : task.work = none)
      (running : task.ended = false)
      (applied : ∀ number, feed.seen = some number → values[number]? = some (state.mode == .active))
  /-- It applies the value that it looked at last. -/
  | applying {leader : Bool} {number : Nat} (role : task.role = .watcher feed false)
      (errands : task.errands = [.lead leader]) (running : task.ended = false)
      (seen : feed.seen = some number) (value : values[number]? = some leader)
  /-- It withdraws. -/
  | leaving {results : Nat} (role : task.role = .watcher feed true) (running : task.ended = false)
      (shutting : Shutting [] results state task)
  | withdrawn (role : task.role = .watcher feed true) (errands : task.errands = []) (idle : task.work = none)
      (drained : state.Drained)

/-- A watcher follows the values. -/
structure Watched (values : List Bool) (state : State) (id : TaskId) : Prop where
  tended : state.Tended
  watch : ∃ task feed, state.task? id = some task ∧ feed.Shows values ∧ state.Watching values task feed

section Watched

variable {values : List Bool} {state next : State} {event : Event} {id : TaskId} {task later : Task}
  {feed : Feed} {leader : Bool}

theorem Watching.role (watching : state.Watching values task feed) : ∃ leaving, task.role = .watcher feed leaving := by
  cases watching with
  | waiting role => exact ⟨_, role⟩
  | applying role => exact ⟨_, role⟩
  | leaving role => exact ⟨_, role⟩
  | withdrawn role => exact ⟨_, role⟩

/-- What a watcher is at while others move, and it hears more. -/
theorem Watching.hears {heard : Feed} {more : List Bool} {leaving : Bool}
    (watching : state.Watching values task feed) (role : task.role = .watcher feed leaving)
    (happens : Happens state event next) (heeds : state.Heeds Act.KeepsMode event)
    (seen : heard.seen = feed.seen) :
    next.Watching (values ++ more) { task with role := .watcher heard leaving } heard := by
  have longer : ∀ {number : Nat} {value : Bool}, values[number]? = some value → (values ++ more)[number]? = some value := by
    intro number value listed
    obtain ⟨inside, _⟩ := List.getElem?_eq_some_iff.1 listed
    rw [List.getElem?_append_left inside, listed]
  cases watching with
  | waiting own errands idle running applied =>
      cases role.symm.trans own
      refine .waiting rfl errands idle running fun number looked => ?_
      rw [(happens.group heeds).2]
      exact longer (applied number (seen ▸ looked))
  | applying own errands running looked value =>
      cases role.symm.trans own
      exact .applying rfl errands running (seen.trans looked) (longer value)
  | leaving own running shutting =>
      cases role.symm.trans own
      exact .leaving rfl running (shutting.still happens heeds rfl rfl)
  | withdrawn own errands idle drained =>
      cases role.symm.trans own
      exact .withdrawn rfl errands idle (drained.step happens heeds)

/-- What a watcher is at after it has moved. -/
theorem Watching.moves (watching : state.Watching values task feed) (tended : state.Tended)
    (uncontested : state.Uncontested id) (shows : feed.Shows values) (found : state.task? id = some task)
    (own : event.mover = some id) (stepped : state.step event = some next) :
    ∃ later, next.task? id = some later ∧
      (next.Watching values later feed ∨ next.Watching values later feed.look) := by
  have happens := State.happens stepped
  have sound := tended.governed.sound
  have moved : ¬ task.role.Checks → ∃ act later shared, task.Goes state.settings act later ∧
      state.Takes id event act shared ∧ next = shared.setTask id later ∧ next.task? id = some later := by
    intro unchecked
    obtain ⟨act, later, shared, _, goes⟩ | ⟨away, _⟩ := happens.own_or_still sound found unchecked
    · exact ⟨act, later, shared, goes⟩
    · exact absurd own away
  cases watching with
  | waiting role errands idle running applied =>
      rcases watcher_moves stepped found role idle errands own with
        ⟨impossible, _⟩ | ⟨_, _, rfl⟩ | ⟨_, _, rfl⟩
      · cases impossible
      · have latest := shows.getElem?_publications.trans shows.latest
        exact ⟨_, task?_setTask_of_found found, .inr (.applying rfl rfl running rfl latest)⟩
      · exact ⟨_, task?_setTask_of_found found, .inl (.leaving rfl running (.leading rfl rfl))⟩
  | applying role errands running seen value =>
      obtain ⟨act, later, shared, goes, takes, rfl, there⟩ := moved (by simp [Role.Checks, role])
      refine ⟨later, there, .inl ?_⟩
      rcases goes.of_lead errands with ⟨_, caller, _⟩ | ⟨_, same, _, kept, still⟩ | ⟨ends, _, outcome, rfl⟩
      · cases role.symm.trans caller
      · exact .applying (kept.trans role) (same.trans errands) (still.trans running) seen value
      · refine .waiting role (by simp [Task.completed, errands]) rfl running fun number looked => ?_
        cases seen.symm.trans looked
        exact value.trans (congrArg some (takes.mode_of_lead ends).symm)
  | leaving role running shutting =>
      obtain ⟨act, later, shared, goes, takes, rfl, there⟩ := moved (by simp [Role.Checks, role])
      refine ⟨later, there, .inl ?_⟩
      rcases shutting.goes tended.governed.staffed (tended.calm found) goes takes with
        ⟨_, caller, _⟩ | ⟨further, kept, ended⟩ | ⟨errands, inactive, emptied, rfl, _⟩
      · cases role.symm.trans caller
      · exact .leaving (kept.trans role) (ended.trans running) further
      · have nobody : task.awaited = [] := by rw [Task.awaited, errands]
        have drained := tended.drained uncontested found nobody inactive emptied
        exact .withdrawn role (by simp [Task.completed, errands]) rfl
          (drained.step happens (heeds_of_not_steers found own (Task.steers?_of_await errands)))
  | withdrawn role errands idle drained =>
      rcases watcher_moves stepped found role idle errands own with ⟨_, rfl⟩ | ⟨impossible, _⟩ | ⟨impossible, _⟩
      · have heeds := heeds_of_not_steers found own (Task.steers?_of_role errands)
        exact ⟨_, task?_setTask_of_found found, .inl (.withdrawn role rfl rfl (drained.step happens heeds))⟩
      · cases impossible
      · cases impossible

/-- Nobody gives up on a watcher. -/
theorem not_abandon_of_watcher {leaving : Bool} (stepped : state.step event = some next)
    (found : state.task? id = some task) (role : task.role = .watcher feed leaving) : event ≠ .abandon id := by
  rintro rfl
  simp [State.step, abandon, found, role] at stepped

theorem published_of_mover (own : event.mover = some id) (other : TaskId) : published other [event] = [] := by
  cases event
  case publish => cases own
  all_goals rfl

theorem Watched.step (watched : state.Watched values id) (uncontested : state.Uncontested id)
    (stepped : state.step event = some next) : next.Watched (values ++ published id [event]) id := by
  obtain ⟨tended, task, feed, found, shows, watching⟩ := watched
  obtain ⟨leaving, role⟩ := watching.role
  have kept := not_abandon_of_watcher stepped found role
  refine ⟨tended.step (uncontested.waits kept) stepped, ?_⟩
  by_cases own : event.mover = some id
  · rw [published_of_mover own, List.append_nil]
    obtain ⟨later, there, same | looked⟩ := watching.moves tended uncontested shows found own stepped
    · exact ⟨later, feed, there, shows, same⟩
    · exact ⟨later, feed.look, there, shows.look, looked⟩
  · have there := tended.governed.sound.watcher_hears stepped found role own
    exact ⟨_, _, there, shows.tells, watching.hears role (State.happens stepped) (uncontested.heeds own)
      (Feed.tells_keeps id feed event).1⟩

theorem Watched.run {events : List Event} (watched : state.Watched values id)
    (uncontested : state.Along (fun state _ => state.Uncontested id) events)
    (run : state.run events = some next) : next.Watched (values ++ published id events) id := by
  refine run_induction (motive := fun events after => after.Watched (values ++ published id events) id)
    ?_ ?_ uncontested run
  · rw [published, List.filterMap_nil, List.append_nil]
    exact watched
  · intro events event middle next _ _ uncontested stepped watched
    rw [published_append, ← List.append_assoc]
    exact watched.step uncontested stepped

/-- A watcher starts by looking at the first value. -/
theorem Tended.watched (tended : state.Tended) (starts : state.step (.follow leader) = some next) :
    next.Watched [leader] state.tasks.length where
  tended := tended.step (show state.Waits (.follow leader) from trivial) starts
  watch := by
    cases starts
    refine ⟨.fresh (.watcher (.opening leader) false) [], .opening leader, ?_, Feed.shows_opening leader,
      .waiting rfl rfl rfl rfl nofun⟩
    simp [task?, spawn]

end Watched

end State

/-! ## Nothing is passed over -/

/-- The watcher has looked at the value with the number or at a later one, or it was asked to
stop. -/
def Feed.Covers (feed : Feed) (number : Nat) : Prop :=
  feed.stopped = true ∨ ∃ looked, feed.seen = some looked ∧ number ≤ looked

/-- How many moves a watcher is from its next look, at most. -/
def Task.toLook (task : Task) : Nat :=
  match task.errands, task.work with
  | [], _ => 1
  | _, none => 5
  | _, some ⟨.call _ _, false⟩ => 4
  | _, some ⟨.call _ _, true⟩ => 3
  | _, some _ => 2

theorem Task.toLook_le (task : Task) : task.toLook ≤ 5 := by
  unfold toLook
  split <;> decide

/-- A task that changes the leadership comes closer to the end of it with every move. -/
theorem Task.Goes.nears {settings : Settings} {allowed : Act → Prop} {task later : Task} {act : Act}
    {leader : Bool} (goes : task.Goes settings act later) (sound : task.Sound settings allowed)
    (errands : task.errands = [.lead leader]) (notCaller : task.role ≠ .caller) :
    later.toLook < task.toLook := by
  have duty : task.duty = .lead leader := Task.duty_of_errands errands
  have toggles : ∀ {script started}, task.work = some ⟨script, started⟩ →
      script = .call (.activateGraph leader) (fun _ => .done .nothing) ∨ script = .done .nothing :=
    fun work => Duty.Underway.toggles (duty ▸ sound.underway _ _ work)
  cases goes
  case started work => simp [toLook, errands, work]
  case replied work reply =>
    rcases toggles work with same | same <;> cases same
    simp [toLook, errands, work, Task.begin, Work.on]
  case acted work result => rcases toggles work with same | same <;> cases same
  case errandBegun idle own begins =>
    cases errands.symm.trans own
    cases begins
    simp [toLook, errands, idle, Task.begin, Work.on, toggleScript, Script.ask]
  case errandEnded work own ends => simp [toLook, errands, work, Task.completed]
  case leadSkipped idle own => simp [toLook, errands, idle, Task.completed]
  case abandoned role => exact absurd role notCaller
  all_goals simp_all

namespace State

section Pursuit

variable {values : List Bool} {state next : State} {event : Event} {id : TaskId} {task : Task} {feed : Feed}
  {number : Nat}

/-- Counts the moves of a task. -/
def movesOf (id : TaskId) (_ : State) (event : Event) : Nat := if event.mover = some id then 1 else 0

/-- With each of its moves a watcher comes closer to looking at what it has not seen. -/
theorem Watching.nears (watching : state.Watching values task feed) (sound : state.Sound fun _ => True)
    (found : state.task? id = some task) (role : task.role = .watcher feed false)
    (published : number ≤ feed.publications) (own : event.mover = some id)
    (stepped : state.step event = some next) :
    ∃ later after leaving, next.task? id = some later ∧ later.role = .watcher after leaving ∧
      (after.Covers number ∨
        after = feed ∧ leaving = false ∧ later.toLook < task.toLook) := by
  cases watching with
  | waiting _ errands idle running _ =>
      rcases watcher_moves stepped found role idle errands own with
        ⟨impossible, _⟩ | ⟨_, _, rfl⟩ | ⟨_, may, rfl⟩
      · cases impossible
      · exact ⟨_, _, _, task?_setTask_of_found found, rfl, .inl (.inr ⟨_, rfl, published⟩)⟩
      · refine ⟨_, _, _, task?_setTask_of_found found, rfl, .inl ?_⟩
        rcases Feed.of_mayLeave may with stopped | ⟨_, seen⟩
        · exact .inl stopped
        · exact .inr ⟨_, Feed.hasUnseen_eq_false_iff.1 seen, published⟩
  | applying _ errands running seen value =>
      obtain ⟨act, later, shared, _, goes, takes, rfl, there⟩ | ⟨away, _⟩ :=
        (State.happens stepped).own_or_still sound found (by simp [Role.Checks, role])
      · have notCaller : task.role ≠ .caller := by simp [role]
        have nears := goes.nears (sound.tasks found) errands notCaller
        rcases goes.of_lead errands with ⟨_, caller, _⟩ | ⟨_, _, _, kept, _⟩ | ⟨_, _, outcome, rfl⟩
        · exact absurd caller notCaller
        · exact ⟨later, feed, false, there, kept.trans role, .inr ⟨rfl, rfl, nears⟩⟩
        · exact ⟨_, feed, false, there, role, .inr ⟨rfl, rfl, nears⟩⟩
      · exact absurd own away
  | leaving leaves => cases role.symm.trans leaves
  | withdrawn leaves => cases role.symm.trans leaves

/-- What is covered stays so. -/
theorem Watched.covered {leaving : Bool} (watched : state.Watched values id)
    (uncontested : state.Uncontested id) (found : state.task? id = some task)
    (role : task.role = .watcher feed leaving) (covers : feed.Covers number)
    (stepped : state.step event = some next) :
    ∃ later after left, next.task? id = some later ∧ later.role = .watcher after left ∧
      after.Covers number := by
  obtain ⟨tended, own, shown, known, shows, watching⟩ := watched
  cases found.symm.trans known
  obtain ⟨_, same⟩ := watching.role
  cases role.symm.trans same
  by_cases moves : event.mover = some id
  · obtain ⟨later, there, kept | looked⟩ := watching.moves tended uncontested shows found moves stepped
    · obtain ⟨left, after⟩ := kept.role
      exact ⟨later, feed, left, there, after, covers⟩
    · obtain ⟨left, after⟩ := looked.role
      refine ⟨later, feed.look, left, there, after, covers.imp_right ?_⟩
      rintro ⟨number', seen, reached⟩
      exact ⟨_, rfl, reached.trans (shows.seen seen)⟩
  · obtain ⟨seen, _, stopped⟩ := Feed.tells_keeps id feed event
    refine ⟨_, _, _, tended.governed.sound.watcher_hears stepped found role moves, rfl, ?_⟩
    rcases covers with stops | ⟨looked, sees, reached⟩
    · exact .inl (stopped stops)
    · exact .inr ⟨looked, seen.trans sees, reached⟩

/-- A watcher looks at what was published with five of its moves at the latest, unless it is
asked to stop. -/
theorem Watched.pursues (watched : state.Watched values id) (found : state.task? id = some task)
    (role : task.role = .watcher feed false) (published : number ≤ feed.publications) {events : List Event}
    (uncontested : state.Along (fun state _ => state.Uncontested id) events)
    (run : state.run events = some next) (moves : 5 ≤ state.tally (movesOf id) events) :
    ∃ later after leaving, next.task? id = some later ∧ later.role = .watcher after leaving ∧
      after.Covers number := by
  have pursued := run_induction (motive := fun events after => (∃ values, after.Watched values id) ∧
    ∃ later heard leaving, after.task? id = some later ∧ later.role = .watcher heard leaving ∧
      (heard.Covers number ∨
        leaving = false ∧ number ≤ heard.publications ∧
          later.toLook + state.tally (movesOf id) events ≤ 5))
    ⟨⟨values, watched⟩, task, feed, false, found, role, .inr ⟨rfl, published, task.toLook_le⟩⟩ ?_
    uncontested run
  · obtain ⟨_, later, heard, leaving, there, watches, covers | ⟨rfl, _, few⟩⟩ := pursued
    · exact ⟨later, heard, leaving, there, watches, covers⟩
    · have positive : 0 < later.toLook := by
        unfold Task.toLook
        split <;> decide
      omega
  · rintro events event middle next - ran uncontested stepped
      ⟨⟨values, watched⟩, later, heard, leaving, there, watches, covers | ⟨rfl, within, few⟩⟩
    · exact ⟨⟨_, watched.step uncontested stepped⟩, by
        obtain ⟨after, hears, left, known, still, covers⟩ :=
          watched.covered uncontested there watches covers stepped
        exact ⟨after, hears, left, known, still, .inl covers⟩⟩
    · refine ⟨⟨_, watched.step uncontested stepped⟩, ?_⟩
      rw [tally_snoc ran, movesOf]
      obtain ⟨tended, own, shown, known, shows, watching⟩ := watched
      cases there.symm.trans known
      obtain ⟨_, same⟩ := watching.role
      cases watches.symm.trans same
      by_cases mine : event.mover = some id
      · obtain ⟨after, hears, left, known, still, covers | ⟨rfl, rfl, nearer⟩⟩ :=
          watching.nears tended.governed.sound there watches within mine stepped
        · exact ⟨after, hears, left, known, still, .inl covers⟩
        · rw [if_pos mine]
          exact ⟨after, _, _, known, still, .inr ⟨rfl, within, by omega⟩⟩
      · obtain ⟨_, more, _⟩ := Feed.tells_keeps id heard event
        rw [if_neg mine]
        exact ⟨_, _, _, tended.governed.sound.watcher_hears stepped there watches mine, rfl,
          .inr ⟨rfl, within.trans more, few⟩⟩

/-- While one task alone sees to the leadership and has nothing under way, nobody changes the
mode. -/
theorem Uncontested.changing (uncontested : state.Uncontested id) (switched : state.Switched)
    (found : state.task? id = some task) (idle : task.work = none) : state.changing = none := by
  cases changing : state.changing with
  | none => rfl
  | some changer =>
      obtain ⟨leader, steers⟩ := Option.isSome_iff_exists.1 ((switched.changer changer).1 changing)
      cases known : state.task? changer with
      | none => simp [look, known] at steers
      | some other =>
          rw [look_of_found known] at steers
          obtain rfl := uncontested.eq known (Task.presides_of_steers steers)
          cases found.symm.trans known
          cases (Task.steers?_of_idle idle).symm.trans steers

/-- A watcher can move unless it waits and has seen all. -/
theorem Watching.canMove (watching : state.Watching values task feed) (governed : state.Governed)
    (uncontested : state.Uncontested id) (found : state.task? id = some task)
    (role : task.role = .watcher feed false) (busy : task.errands = [] → feed.hasUnseen = true) :
    state.CanMove id := by
  cases watching with
  | waiting _ errands idle running _ =>
      refine ⟨.proceed id, state.setTask id
        { task with role := .watcher feed.look false, errands := [.lead feed.leader] }, rfl, by simp, ?_⟩
      simp [step, proceed, found, running, idle, errands, beginRole, role, busy errands]
  | @applying leader _ _ errands running _ _ =>
      cases work : task.work with
      | none =>
          have still := uncontested.changing governed.switched found work
          have moves : ∃ next, state.beginErrand id task (.lead leader) = some next := by
            simp only [beginErrand, still, Option.isSome_none, Bool.false_eq_true, if_false]
            split <;> exact ⟨_, rfl⟩
          obtain ⟨next, moves⟩ := moves
          exact ⟨.proceed id, next, rfl, by simp, by simpa [step, proceed, found, running, work, errands] using moves⟩
      | some own =>
          refine governed.sound.canMove_of_work found work fun node schedules => ?_
          have takesOver := (governed.sound.tasks found).may schedules
          rw [Task.duty_of_errands errands] at takesOver
          cases takesOver
  | leaving leaves => cases role.symm.trans leaves
  | withdrawn leaves => cases role.symm.trans leaves

end Pursuit

/-! ## The law -/

/-- How a watcher with the number follows the values that were published to it. -/
structure Follows (values : List Bool) (id : TaskId) (state : State) : Prop where
  /-- It is there, and knows the latest value and how many there were. -/
  shows : ∃ task feed leaving, state.task? id = some task ∧ task.role = .watcher feed leaving ∧
    feed.Shows values
  /-- When it waits and has seen all, the mode is as the latest value says. -/
  agrees : ∀ {task feed}, state.task? id = some task → task.role = .watcher feed false →
    task.ended = false → task.errands = [] → task.work = none → feed.hasUnseen = false →
      (state.shownMode = .active ↔ values.getLast? = some true)
  /-- The value that it looked at last is applied, or being applied. -/
  applies : ∀ {task feed number}, state.task? id = some task → task.role = .watcher feed false →
    feed.seen = some number →
      (task.errands = [] ∧ values[number]? = some (state.shownMode == .active)) ∨
        ∃ leader, task.errands = [.lead leader] ∧ values[number]? = some leader
  /-- A value that was published is looked at, or a later one is, with five moves at the latest,
  unless the watcher is asked to stop. -/
  pursues : ∀ {task feed number events later}, state.task? id = some task →
    task.role = .watcher feed false → number < values.length →
      state.Along (fun state _ => state.Uncontested id) events → state.run events = some later →
        5 ≤ state.tally (movesOf id) events →
          ∃ task feed leaving, later.task? id = some task ∧ task.role = .watcher feed leaving ∧
            feed.Covers number
  /-- Until it has seen all, it can move. -/
  canMove : ∀ {task feed}, state.task? id = some task → task.role = .watcher feed false →
    state.Uncontested id → (task.errands = [] → feed.hasUnseen = true) → state.CanMove id
  /-- It withdraws only if it is asked to, or if there will be no more and it has seen all. -/
  withdraws : ∀ {task feed next}, state.task? id = some task → task.role = .watcher feed false →
    state.step (.quit id) = some next →
      feed.stopped = true ∨ feed.closed = true ∧ feed.hasUnseen = false
  /-- When it has returned, the node is on standby and no worker is left. -/
  returned : ∀ {task}, state.task? id = some task → task.ended = true → state.Withdrawn

section Law

variable {values : List Bool} {settings : Settings} {world : World}
  {begun start state : State} {before events : List Event} {id : TaskId} {leader : Bool}

theorem Watched.follows (watched : state.Watched values id) : state.Follows values id := by
  obtain ⟨tended, own, shown, known, shows, watching⟩ := watched
  have watched : state.Watched values id := ⟨tended, own, shown, known, shows, watching⟩
  have shownMode : (state.mode == .active) = (state.shownMode == .active) := by
    rw [Bool.eq_iff_iff, beq_iff_eq, beq_iff_eq]
    exact tended.governed.staffed.shownMode.symm
  have same : ∀ {task feed}, state.task? id = some task → task.role = .watcher feed false →
      feed.Shows values ∧ state.Watching values task feed := by
    intro task feed found role
    cases found.symm.trans known
    obtain ⟨_, own⟩ := watching.role
    cases role.symm.trans own
    exact ⟨shows, watching⟩
  have applies : ∀ {task feed number}, state.task? id = some task → task.role = .watcher feed false →
      feed.seen = some number →
        (task.errands = [] ∧ values[number]? = some (state.shownMode == .active)) ∨
          ∃ leader, task.errands = [.lead leader] ∧ values[number]? = some leader := by
    intro task feed number found role seen
    cases (same found role).2 with
    | waiting _ errands _ _ applied => exact .inl ⟨errands, shownMode ▸ applied number seen⟩
    | applying _ errands _ looked value =>
        cases looked.symm.trans seen
        exact .inr ⟨_, errands, value⟩
    | leaving leaves => cases role.symm.trans leaves
    | withdrawn leaves => cases role.symm.trans leaves
  refine ⟨?shows, ?agrees, applies, ?pursues, ?canMove, ?withdraws, ?returned⟩
  case shows =>
    obtain ⟨leaving, role⟩ := watching.role
    exact ⟨own, shown, leaving, known, role, shows⟩
  case agrees =>
    intro task feed found role _ errands _ seenAll
    have shows := (same found role).1
    have applied : values[feed.publications]? = some (state.shownMode == .active) := by
      rcases applies found role (Feed.hasUnseen_eq_false_iff.1 seenAll) with ⟨_, value⟩ | ⟨_, leads, _⟩
      · exact value
      · cases errands.symm.trans leads
    rw [← shows.getElem?_publications, applied, Option.some_inj, beq_iff_eq]
  case pursues =>
    intro task feed number events later found role among uncontested run moves
    have within : number ≤ feed.publications := by
      have count := (same found role).1.count
      omega
    exact watched.pursues found role within uncontested run moves
  case canMove =>
    exact fun found role uncontested => (same found role).2.canMove tended.governed uncontested found role
  case withdraws =>
    intro task feed next found role stepped
    cases (same found role).2 with
    | waiting _ errands idle _ _ =>
        exact Feed.of_mayLeave (watcher_quits stepped found role idle errands).2.1
    | applying _ errands => simp [State.step, quit, found, errands] at stepped
    | leaving leaves => cases role.symm.trans leaves
    | withdrawn leaves => cases role.symm.trans leaves
  case returned =>
    intro task found stopped
    cases found.symm.trans known
    cases watching with
    | waiting _ _ _ running => cases running.symm.trans stopped
    | applying _ _ running => cases running.symm.trans stopped
    | leaving _ running => cases running.symm.trans stopped
    | withdrawn _ _ _ drained => exact drained.withdrawn tended.governed

/-- The watcher of an election follows what is published to it, as long as nobody else changes
the leadership. -/
theorem run_follows (waits : (initial settings world).Along Waits before)
    (ran : (initial settings world).run before = some begun)
    (starts : begun.step (.follow leader) = some start)
    (uncontested : start.Along (fun state _ => state.Uncontested begun.tasks.length) events)
    (run : start.run events = some state) :
    state.Follows (leader :: published begun.tasks.length events) begun.tasks.length :=
  have tended := (initial_tended settings world).run waits ran
  ((tended.watched starts).run uncontested run).follows

end Law

/-! A node is reported, and then an election is followed. Values come while others are applied, so
that one of them is passed over, and a worker is still at the node when the watcher is told to stop. -/

private def reportedNode : List Event :=
  [.arrive [.report "a"], .proceed 0, .effect 0 ⟨1, 0⟩ 0, .effect 0 ⟨1, 0⟩ 0, .proceed 0]

private def electing : List Event :=
  [.proceed 1, .publish 1 true, .proceed 1, .proceed 1, .proceed 1, .start 1, .publish 1 false, .publish 1 true,
    .publish 1 false, .answer 1 none none, .proceed 1, .proceed 2, .proceed 2, .proceed 1, .proceed 1] ++
    carriedOut 1 ++ [.publish 1 true, .proceed 1, .proceed 1, .proceed 1] ++ carriedOut 1 ++ [.proceed 1]

private def stopping : List Event :=
  [.stop 1, .quit 1, .proceed 1] ++ carriedOut 1 ++ [.proceed 1, .proceed 1, .quit 4] ++ emptyTakeover 2 ++
    [.quit 2, .proceed 1, .proceed 1, .proceed 1, .proceed 1]

set_option maxRecDepth 4000 in
theorem run_follows_of_electing : ∃ begun start middle state watcher stopped feed worker,
    (initial default .initial).Along Waits reportedNode ∧
      (initial default .initial).run reportedNode = some begun ∧
      begun.step (.follow false) = some start ∧
      start.Along (fun state _ => state.Uncontested 1) (electing ++ stopping) ∧
      start.run electing = some middle ∧ middle.task? 1 = some watcher ∧
      watcher.role = .watcher feed false ∧ watcher.errands = [] ∧ feed.hasUnseen = false ∧
      feed.publications = 5 ∧ middle.shownMode = .active ∧
      middle.task? 2 = some worker ∧ worker.role = .worker 0 true (some ⟨"a"⟩) ∧
      middle.Follows [false, true, false, true, false, true] 1 ∧
      start.run (electing ++ stopping) = some state ∧ state.task? 1 = some stopped ∧ stopped.ended = true ∧
      state.Follows [false, true, false, true, false, true] 1 := by
  have waits : (initial default .initial).Along Waits reportedNode := along_of_tally (by decide +kernel)
  obtain ⟨begun, start, middle, state, watcher, stopped, feed, worker, ran, starts, ranFirst, found, role, idle, seen,
      count, active, atNode, takes, run, left, ended, oneAlone⟩ :
      ∃ begun start middle state watcher stopped feed worker,
        (initial default .initial).run reportedNode = some begun ∧
          begun.step (.follow false) = some start ∧
          start.run electing = some middle ∧ middle.task? 1 = some watcher ∧
          watcher.role = .watcher feed false ∧ watcher.errands = [] ∧ feed.hasUnseen = false ∧
          feed.publications = 5 ∧ middle.shownMode = .active ∧
          middle.task? 2 = some worker ∧ worker.role = .worker 0 true (some ⟨"a"⟩) ∧
          start.run (electing ++ stopping) = some state ∧ state.task? 1 = some stopped ∧ stopped.ended = true ∧
          begun.tasks.length = 1 :=
    ⟨_, _, _, _, _, _, _, _, rfl, rfl, rfl, rfl, rfl, rfl, rfl, rfl, rfl, rfl, rfl, rfl, rfl, rfl, rfl⟩
  have uncontested : start.Along (fun state _ => state.Uncontested 1) (electing ++ stopping) := by
    cases ran
    cases starts
    exact along_of_tally (by decide +kernel)
  have follows : ∀ {events after}, start.Along (fun state _ => state.Uncontested begun.tasks.length) events →
      start.run events = some after →
        after.Follows (false :: published begun.tasks.length events) begun.tasks.length :=
    fun uncontested run => run_follows waits ran starts uncontested run
  rw [oneAlone] at follows
  exact ⟨begun, start, middle, state, watcher, stopped, feed, worker, waits, ran, starts, uncontested, ranFirst,
    found, role, idle, seen, count, active, atNode, takes, follows (along_append.1 uncontested).1 ranFirst, run,
    left, ended, follows uncontested run⟩

end State

end Handover.Coordinator
