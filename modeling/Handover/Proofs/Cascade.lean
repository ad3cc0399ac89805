import Handover.Proofs.Accounts

/-!
Contract: a cascade of retries comes to an end.

Owns: that on every run the takeovers of a node that never reads as alive are no more than
its external starts, each with a whole budget of retries; and that a takeover which leaves
work behind, and comes to schedule a retry on standby, leaves the budget and the retries of
its node as they were; and that a retry may as well be counted some time after the activation
was read.
-/

set_option autoImplicit false

namespace Handover.Coordinator

open Takeover (Report)

namespace State

variable {start state next shared : State} {event : Event} {events : List Event} {allowed : Act → Prop}
  {id : TaskId} {node : Address} {task later : Task} {act : Act}

/-! ## The bound -/

/-- The node reads as alive with the event. -/
def readsAlive (node : Address) (state : State) : Event → Bool
  | .answer id _ none =>
      (state.task? id).bind Task.call? == some (.isAlive node, true) && state.world.members.isAlive node
  | _ => false

theorem heeds_of_dead (dead : state.readsAlive node event = false) :
    state.Heeds (Act.Spares node) event := by
  intro id task act later shared found goes takes
  cases takes with
  | reply request shares refused =>
      intro same
      have calls := goes.call?
      injection same with asked replied
      subst asked
      cases refused with
      | some detail => cases eq_of_heq replied
      | none =>
          have alive : state.world.members.isAlive node = true := Except.ok.inj (eq_of_heq replied)
          simp [readsAlive, found, calls, alive] at dead
  | _ => exact nofun

/-- Along a run what has begun and what is to come is paid for by the external starts. -/
theorem run_account (sound : start.Sound fun _ => True) (settles : start.Settles node)
    (dead : start.Along (fun state event => state.readsAlive node event = false) events)
    (run : start.run events = some state) :
    state.settings = start.settings ∧ state.Sound (fun _ => True) ∧ state.Settles node ∧
      (state.account node).begun + (state.account node).prospect start.settings.retryLimit ≤
        (start.account node).begun + (start.account node).prospect start.settings.retryLimit +
          start.tally (externals node) events * (1 + start.settings.retryLimit) := by
  refine run_induction (motive := fun events state => state.settings = start.settings ∧
    state.Sound (fun _ => True) ∧ state.Settles node ∧
      (state.account node).begun + (state.account node).prospect start.settings.retryLimit ≤
        (start.account node).begun + (start.account node).prospect start.settings.retryLimit +
          start.tally (externals node) events * (1 + start.settings.retryLimit))
    ⟨rfl, sound, settles, by simp [tally]⟩ ?_ dead run
  rintro events event state next - ran dead stepped ⟨settings, sound, settles, paid⟩
  have happens := State.happens stepped
  have heeds := heeds_of_dead dead
  have pays := (happens.account sound heeds settles).pays
  rw [settings] at pays
  refine ⟨happens.settings.trans settings, happens.sound heeds_any sound, happens.settles heeds settles, ?_⟩
  rw [tally_snoc ran, Nat.add_mul]
  omega

/-- Where no takeover of the node is in progress, only what waits is to begin. -/
theorem prospect_le (idle : ∀ id, ¬ state.IsAt id node) (limit : Nat) :
    (state.account node).prospect limit ≤ state.waiting node * (1 + limit) := by
  have none : state.total (Task.unsettled node) = 0 := by
    refine List.sum_eq_zero fun weight member => ?_
    obtain ⟨task, there, rfl⟩ := List.mem_map.1 member
    obtain ⟨id, found⟩ := List.getElem?_of_mem there
    exact Task.unsettled_of_away fun here => idle id (isAt_iff.2 ⟨task, found, here⟩)
  unfold Account.prospect account
  simp only [none, Nat.mul_zero, Nat.add_zero, Nat.add_comm limit 1, Nat.mul_comm (1 + limit)]
  split <;> omega

/-! ## On standby -/

/-- In the course of a run the task `id` takes over the work of the node, from just after the
takeover began to just after it was finished. -/
structure Cycle (start : State) (events : List Event) (node : Address) (id : TaskId) (report : Report)
    (begun : State) (during : List Event) (ended : State) : Prop where
  split : ∃ earlier before opening last closing rest,
    events = earlier ++ opening :: (during ++ closing :: rest) ∧
    start.run earlier = some before ∧ ¬ before.IsAt id node ∧ before.step opening = some begun ∧
    begun.run during = some last ∧
    last.step closing = some ended ∧ ended.log = .finished id report :: last.log
  isAt : begun.IsAt id node
  stays : begun.Along (fun state _ => state.IsAt id node) during
  isOf : report.node = node

/-- The budget of the node and its retries are as they were. -/
structure Untouched (node : Address) (before after : State) : Prop where
  retries : after.retries.find? node = before.retries.find? node
  /-- Whatever retries of the node there are came up before. -/
  tasks : ∀ {id task}, after.task? id = some task → task.role.retries? = some node →
    ∃ former, before.task? id = some former ∧ former.role.retries? = some node

theorem Untouched.refl (node : Address) (state : State) : Untouched node state state :=
  ⟨rfl, fun found retries => ⟨_, found, retries⟩⟩

theorem Untouched.trans {first second third : State} (early : Untouched node first second)
    (late : Untouched node second third) : Untouched node first third where
  retries := late.retries.trans early.retries
  tasks := fun found retries => by
    obtain ⟨_, before, same⟩ := late.tasks found retries
    exact early.tasks before same

end State

theorem Role.Becomes.retries? {role after : Role} (becomes : role.Becomes after) :
    after.retries? = role.retries? := by
  cases becomes <;> rfl

namespace State

variable {state next shared : State} {event : Event} {id : TaskId} {node : Address} {task later : Task}
  {act : Act}

/-- A task that moves leaves the budget of the node and its retries as they were, unless it
settles the budget; and then too, where it is to schedule a retry on standby. -/
theorem Takes.untouched (takes : state.Takes id event act shared) (found : state.task? id = some task)
    (goes : task.Goes state.settings act later) (notForgets : act.deed? ≠ some (.forgetRetries node))
    (standby : act.deed? = some (.scheduleRetry node) → state.group = none) :
    Untouched node state (shared.setTask id later) := by
  have still : act.deed? = some (.scheduleRetry node) → shared = state := by
    intro schedules
    cases act with
    | deed own result =>
        cases schedules
        exact takes.eq_of_standby (standby rfl)
    | _ => cases schedules
  constructor
  · change shared.retries.find? node = _
    by_cases schedules : act.deed? = some (.scheduleRetry node)
    · rw [still schedules]
    · refine takes.budget fun deed own => ⟨?_, ?_⟩
      · rintro rfl
        exact notForgets own
      · rintro rfl
        exact schedules own
  · intro other one there retries
    obtain ⟨_, stays⟩ := takes.there found
    rcases (task?_setTask_iff stays).1 there with ⟨rfl, rfl⟩ | ⟨_, there⟩
    · exact ⟨task, found, goes.becomes.retries? ▸ retries⟩
    · rcases takes.of_task? there with before | ⟨none, role, rfl, comesUp⟩ | ⟨before, _, was, rfl, _⟩
      · exact ⟨one, before, retries⟩
      · cases comesUp with
        | retry activation own due =>
            cases retries
            rw [still rfl, none] at there
            cases there
        | _ => cases retries
      · exact ⟨before, was, retries⟩

/-- Only a takeover of the node settles its budget. -/
theorem isAt_of_settles (sound : state.Sound fun _ => True) {deed : Effect}
    (found : state.task? id = some task) (next : task.effect? = some deed)
    (settles : deed = .forgetRetries node ∨ deed = .scheduleRetry node) : state.IsAt id node := by
  obtain ⟨_, _, work⟩ := Task.work_of_effect? next
  have takesOver : task.duty.node? = some node := by
    have may := (sound.tasks found).may next
    rcases settles with rfl | rfl <;> exact may
  exact isAt_iff.2 ⟨task, found, (Task.at?_of_work work).trans takesOver⟩

end State

open State in
/-- Where no takeover settles the budget of the node, or the coordinator is on standby, an event
leaves the budget and the retries of the node as they were. -/
theorem Happens.untouched {state next : State} {event : Event} {node : Address}
    (happens : Happens state event next)
    (notForgets : ∀ id, state.deed? event ≠ some (id, .forgetRetries node))
    (standby : ∀ id, state.deed? event = some (id, .scheduleRetry node) → state.group = none) :
    Untouched node state next := by
  cases happens with
  | spawned _ outside =>
      refine ⟨rfl, fun {id task} found retries => ?_⟩
      rcases of_task?_spawn found with before | rfl
      · exact ⟨task, before, retries⟩
      · cases outside <;> cases retries
  | told _ there told =>
      refine ⟨rfl, fun {id task} found retries => ?_⟩
      rcases (task?_setTask_iff there).1 found with ⟨_, rfl⟩ | ⟨_, before⟩
      · generalize former : Task.role _ = role at told
        cases told <;> cases retries
      · exact ⟨task, before, retries⟩
  | moved found goes takes =>
      have deed := takes.deed? found goes
      refine takes.untouched found goes (fun forgets => ?_) fun schedules => ?_
      · exact notForgets _ (by rw [deed, forgets]; rfl)
      · exact standby _ (by rw [deed, schedules]; rfl)
  | passed millis => exact ⟨rfl, fun found retries => ⟨_, found, retries⟩⟩
  | written entry wall => exact ⟨rfl, fun found retries => ⟨_, found, retries⟩⟩

open State in
/-- A takeover is left where it is while others move. -/
theorem Happens.isAt_of_away {state next : State} {event : Event} {allowed : Act → Prop} {id : TaskId}
    {node : Address} (happens : Happens state event next) (sound : state.Sound allowed)
    (isAt : state.IsAt id node) (away : event.mover ≠ some id) : next.IsAt id node := by
  obtain ⟨task, found, here⟩ := isAt_iff.1 isAt
  obtain ⟨later, still, there, _⟩ := happens.still_at sound found here away
  exact isAt_iff.2 ⟨later, still, there⟩

open State in
/-- While a node is taken over, no one else touches its budget or its retries. -/
theorem Happens.untouched_of_away {state next : State} {event : Event} {id : TaskId} {node : Address}
    (happens : Happens state event next) (sound : state.Sound fun _ => True) (held : state.Held)
    (isAt : state.IsAt id node) (away : event.mover ≠ some id) : Untouched node state next := by
  have others : ∀ other deed, state.deed? event = some (other, deed) →
      ¬ (deed = .forgetRetries node ∨ deed = .scheduleRetry node) := by
    intro other deed own settles
    obtain ⟨mover, task, found, next⟩ := of_deed? own
    have there : state.holder = some other := (isAt_of_settles sound found next settles).holder sound held
    cases (isAt.holder sound held).symm.trans there
    exact away mover
  refine happens.untouched (fun other forgets => ?_) fun other schedules => ?_
  · exact others other _ forgets (.inl rfl)
  · exact absurd (.inr rfl) (others other _ schedules)

namespace State

variable {start begun state next : State} {event : Event} {during : List Event} {id : TaskId}
  {node : Address} {report : Report}

/-- A takeover in progress, as far as it has come: unless it has cleared the budget, the budget
and the retries of the node are as they were when it began. -/
def Keeping (node : Address) (id : TaskId) (begun state : State) : Prop :=
  ∃ task phase, state.task? id = some task ∧ task.Settling node phase ∧
    (phase ≠ some false → Untouched node begun state)

theorem Keeping.step (sound : state.Sound fun _ => True) (held : state.Held)
    (keeping : Keeping node id begun state) (dead : state.readsAlive node event = false)
    (standby : state.deed? event = some (id, .scheduleRetry node) → state.group = none)
    (stepped : state.step event = some next) (still : next.IsAt id node) :
    Keeping node id begun next := by
  obtain ⟨task, phase, found, settling, untouched⟩ := keeping
  obtain ⟨later, there, here⟩ := isAt_iff.1 still
  have happens := State.happens stepped
  have isAt : state.IsAt id node := isAt_iff.2 ⟨task, found, settling.at?⟩
  have mine : ∀ other deed, state.deed? event = some (other, deed) →
      deed = .forgetRetries node ∨ deed = .scheduleRetry node → other = id := by
    intro other deed own settles
    obtain ⟨_, task, found, next⟩ := of_deed? own
    exact Option.some.inj (((isAt_of_settles sound found next settles).holder sound held).symm.trans
      (isAt.holder sound held))
  rcases happens.of_task? there with ⟨before, act, shared, _, known, goes, takes⟩ | idle |
    ⟨before, known, away, work, errands, role⟩
  · cases known.symm.trans found
    have deed := takes.deed? found goes
    have spares := heeds_of_dead dead _ _ _ _ _ found goes takes
    refine ⟨later, act.phase phase, there, goes.settling spares settling here, fun uncleared => ?_⟩
    have notForgets : ∀ other, state.deed? event ≠ some (other, .forgetRetries node) := by
      intro other forgets
      rw [deed, Option.map_eq_some_iff] at forgets
      obtain ⟨own, forgets, same⟩ := forgets
      cases same
      cases act <;> cases forgets
      exact uncleared rfl
    have notSettled : phase ≠ some false := by
      rintro rfl
      refine uncleared ?_
      cases act
      case deed own result =>
        have leaves := settling.not_settles goes.effect?
        exact Act.phase_of_leaves leaves
      all_goals rfl
    refine (untouched notSettled).trans (happens.untouched notForgets fun other schedules => ?_)
    obtain rfl := mine other _ schedules (.inr rfl)
    exact standby schedules
  · cases (Task.at?_of_idle idle).symm.trans here
  · cases known.symm.trans found
    exact ⟨later, phase, there, settling.of_same work errands role, fun uncleared =>
      (untouched uncleared).trans (happens.untouched_of_away sound held isAt away)⟩

/-- While others move, the budget and the retries of a node that is taken over stay as they are. -/
theorem untouched_of_run {later : State} (sound : state.Sound fun _ => True) (held : state.Held)
    (isAt : state.IsAt id node) (away : ∀ event ∈ during, event.mover ≠ some id)
    (run : state.run during = some later) : Untouched node state later := by
  refine (run_induction (motive := fun _ after => after.Sound (fun _ => True) ∧ after.Held ∧
    after.IsAt id node ∧ Untouched node state after) ⟨sound, held, isAt, .refl node state⟩ ?_
    (along_of_mem away) run).2.2.2
  rintro _ event middle next - - away stepped ⟨sound, held, isAt, untouched⟩
  have happens := State.happens stepped
  exact ⟨happens.sound heeds_any sound, happens.held sound held, happens.isAt_of_away sound isAt away,
    untouched.trans (happens.untouched_of_away sound held isAt away)⟩

/-- To read the activation and to count a retry under it are one event. A task that has read the
activation and counts only later, when others have moved, counts from the same number. If the
activation is not over by then, this is the event; if it is, the retry comes up stopped. -/
theorem countRetry_later {later : State} {task : Task} (sound : state.Sound fun _ => True)
    (held : state.Held) (found : state.task? id = some task)
    (next : task.effect? = some (.scheduleRetry node))
    (away : ∀ event ∈ during, event.mover ≠ some id) (run : state.run during = some later)
    (activation draw : Nat) :
    later.retriesOf node = state.retriesOf node ∧
      (later.countRetry activation node draw = later.scheduleRetry node draw ∨
        later.isStopped activation = true) := by
  constructor
  · have isAt : state.IsAt id node := isAt_of_settles sound found next (.inr rfl)
    rw [retriesOf, retriesOf, (untouched_of_run sound held isAt away run).retries]
  · cases ended : later.isStopped activation with
    | true => exact .inr rfl
    | false =>
        left
        have present : later.group.map Group.activation = some activation := by
          simpa [isStopped] using ended
        obtain ⟨group, there, rfl⟩ := Option.map_eq_some_iff.1 present
        rw [scheduleRetry, there]

/-- A takeover that begins has touched nothing yet. -/
theorem Keeping.begins {before : State} (stepped : before.step event = some begun)
    (away : ¬ before.IsAt id node) (isAt : begun.IsAt id node) : Keeping node id begun begun := by
  obtain ⟨later, there, here⟩ := isAt_iff.1 isAt
  refine ⟨later, none, there, ?_, fun _ => .refl node begun⟩
  rcases (State.happens stepped).of_task? there with ⟨task, _, _, _, known, goes, _⟩ | idle |
    ⟨task, known, _, work, errands, role⟩
  · exact goes.unsettled (fun was => away (isAt_iff.2 ⟨task, known, was⟩)) here
  · cases (Task.at?_of_idle idle).symm.trans here
  · refine absurd (isAt_iff.2 ⟨task, known, ?_⟩) away
    rw [← here, Task.at?, Task.at?, work, Task.duty_of_same errands role]

/-- A takeover is finished by the act that says so. -/
theorem finishes_of_log (stepped : state.step event = some next)
    (finished : next.log = .finished id report :: state.log) :
    ∃ task later outside shared, state.task? id = some task ∧
      task.Goes state.settings (.finish report outside) later ∧
      state.Takes id event (.finish report outside) shared := by
  cases State.happens stepped with
  | @moved _ mover task later act shared found goes takes =>
      have notes : act.notes mover = [.finished id report] :=
        List.append_cancel_right (takes.log.symm.trans finished)
      cases act
      case finish own outside =>
        cases notes
        exact ⟨task, later, outside, shared, found, goes, takes⟩
      case deed deed result =>
        cases deed
        case enqueue node => cases result <;> cases notes
        all_goals cases notes
      all_goals cases notes
  | _ => exact absurd finished (List.cons_ne_self _ _).symm

/-- A takeover that leaves work behind, and comes to schedule a retry only on standby, leaves
the budget and the retries of its node as they were. -/
theorem Cycle.untouched {events : List Event} {ended : State}
    (cycle : Cycle start events node id report begun during ended)
    (sound : start.Sound fun _ => True) (held : start.Held)
    (dead : start.Along (fun state event => state.readsAlive node event = false) events)
    (left : report.leftover = true)
    (standby : begun.Along (fun state event =>
      state.deed? event = some (id, .scheduleRetry node) → state.group = none) during) :
    Untouched node begun ended := by
  obtain ⟨earlier, before, opening, last, closing, rest, rfl, ranEarlier, away, opens, ran, closes,
    finished⟩ := cycle.split
  have deadDuring := (along_append.1 (((along_append.1 dead).2 before ranEarlier).2 begun opens)).1
  have ranBegun : start.run (earlier ++ [opening]) = some begun := by
    rw [run_snoc, ranEarlier]
    exact opens
  obtain ⟨soundBegun, heldBegun⟩ := run_held sound held ranBegun
  -- as long as the task is at the node, its takeover is the one that began
  obtain ⟨soundLast, heldLast, keeps⟩ : last.Sound (fun _ => True) ∧ last.Held ∧
      (last.IsAt id node → Keeping node id begun last) := by
    refine run_induction (motive := fun _ state => state.Sound (fun _ => True) ∧ state.Held ∧
      (state.IsAt id node → Keeping node id begun state))
      ⟨soundBegun, heldBegun, fun _ => .begins opens away cycle.isAt⟩ ?_
      ((deadDuring.and standby).and cycle.stays) ran
    rintro _ event state next - - ⟨⟨dead, standby⟩, isAt⟩ stepped ⟨sound, held, keeps⟩
    have happens := State.happens stepped
    exact ⟨happens.sound heeds_any sound, happens.held sound held,
      fun still => (keeps isAt).step sound held dead standby stepped still⟩
  obtain ⟨task, later, outside, shared, found, goes, takes⟩ := finishes_of_log closes finished
  obtain ⟨own, _⟩ : task.at? = some report.node ∧ later.at? = none := goes.at? (soundLast.tasks found)
  obtain ⟨_, phase, known, settling, untouched⟩ :=
    keeps (isAt_iff.2 ⟨task, found, own.trans (congrArg some cycle.isOf)⟩)
  cases known.symm.trans found
  obtain ⟨_, work⟩ := goes.finishes
  have phase : phase = some true := (settling.finished work).trans (congrArg some left)
  have quiet : last.deed? closing = none := takes.deed? found goes
  exact (untouched (by rw [phase]; nofun)).trans
    ((State.happens closes).untouched (by simp [quiet]) (by simp [quiet]))

/-! ## The law -/

/-- What the budget of retries of a node keeps to, from the start of a run to a later state. -/
structure Budgeted (start : State) (events : List Event) (node : Address) (state : State) : Prop where
  /-- No more takeovers begin than there are external starts, each with a whole budget. What
  waits at the start counts as started. -/
  bounded : state.begun node ≤ start.begun node +
    (start.waiting node + start.tally (externals node) events) * (1 + start.settings.retryLimit)
  /-- A takeover that leaves work behind, and comes to schedule a retry only on standby, schedules
  none and leaves what is used up of the budget as it was. -/
  standby : ∀ {id report begun during ended}, Cycle start events node id report begun during ended →
    report.leftover = true →
      begun.Along (fun state event =>
        state.deed? event = some (id, .scheduleRetry node) → state.group = none) during →
      Untouched node begun ended

/-- A cascade of retries comes to an end, on every run from a state in which the node is not being
taken over, as long as the node does not read as alive. -/
theorem run_budgeted {settings : Settings} {world : World} {before events : List Event}
    (ran : (initial settings world).run before = some start)
    (idle : ∀ id, ¬ start.IsAt id node)
    (dead : start.Along (fun state event => state.readsAlive node event = false) events)
    (run : start.run events = some state) : Budgeted start events node state := by
  obtain ⟨first, none⟩ := initial_held settings world
  obtain ⟨sound, held⟩ := run_held first none ran
  refine ⟨?_, fun cycle left standby => cycle.untouched sound held dead left standby⟩
  have settles : start.Settles node := fun found here => absurd (isAt_iff.2 ⟨_, found, here⟩) (idle _)
  obtain ⟨_, _, _, paid⟩ := run_account sound settles dead run
  have opening := prospect_le idle start.settings.retryLimit
  rw [Nat.add_mul]
  simp only [account] at paid opening
  omega

/-! A coordinator with a budget of one retry takes over a node whose job nobody can take. When
the retry comes to leave the job too, the coordinator is on standby. -/

private def oneRetry : Settings := { (default : Settings) with retryLimit := 1 }

private def stranded : World :=
  { World.initial with jobs := .ofList [⟨1, "j", ⟨"a"⟩, .running, .cron, none⟩] }

private def exchange (id : TaskId) : List Event := [.start id, .answer id none none]

/-- The rounds of the takeover up to the one that schedules a retry. -/
private def leaving (id : TaskId) : List Event :=
  exchange id ++ [.proceed id] ++ exchange id ++ exchange id ++ exchange id ++ [.proceed id] ++
    exchange id ++ exchange id ++ exchange id ++ [.proceed id] ++ exchange id ++ [.proceed id] ++
    exchange id ++ exchange id ++ [.proceed id]

private def asked : List Event :=
  [.arrive [.lead true, .lead false], .proceed 0] ++ exchange 0 ++
    [.proceed 0, .arrive [.takeOver ⟨"a"⟩], .proceed 3] ++ leaving 3 ++ [.effect 3 ⟨1, 0⟩ 0] ++
    exchange 3 ++ [.proceed 3, .pass 1000, .proceed 4, .effect 4 ⟨1, 0⟩ 0, .effect 4 ⟨1, 0⟩ 0, .proceed 1]

private def retried : List Event :=
  [.effect 1 ⟨1, 0⟩ 0] ++ leaving 1 ++ [.proceed 0] ++ exchange 0 ++ [.proceed 0, .effect 1 ⟨1, 0⟩ 0] ++
    exchange 1

private def cascade : List Event := asked ++ .proceed 1 :: (retried ++ [.proceed 1])

set_option maxRecDepth 4000 in
theorem run_budgeted_of_stranded : ∃ state report begun ended,
    (initial oneRetry stranded).run cascade = some state ∧
      state.begun ⟨"a"⟩ = 2 ∧ (initial oneRetry stranded).waiting ⟨"a"⟩ = 0 ∧
      (initial oneRetry stranded).tally (externals ⟨"a"⟩) cascade = 1 ∧
      Cycle (initial oneRetry stranded) cascade ⟨"a"⟩ 1 report begun retried ended ∧
      report.leftover = true ∧ Untouched ⟨"a"⟩ begun ended ∧
      Budgeted (initial oneRetry stranded) cascade ⟨"a"⟩ state := by
  have idle : ∀ id, ¬ (initial oneRetry stranded).IsAt id ⟨"a"⟩ := nofun
  have dead : (initial oneRetry stranded).Along
      (fun state event => state.readsAlive ⟨"a"⟩ event = false) cascade :=
    along_of_tally (by decide +kernel)
  obtain ⟨state, report, begun, ended, run, count, external, cycle, left, standby⟩ :
      ∃ state report begun ended, (initial oneRetry stranded).run cascade = some state ∧
        state.begun ⟨"a"⟩ = 2 ∧
        (initial oneRetry stranded).tally (externals ⟨"a"⟩) cascade = 1 ∧
        Cycle (initial oneRetry stranded) cascade ⟨"a"⟩ 1 report begun retried ended ∧
        report.leftover = true ∧ begun.Along (fun state event =>
          state.deed? event = some (1, .scheduleRetry ⟨"a"⟩) → state.group = none) retried := by
    refine ⟨_, _, _, _, rfl, rfl, rfl, ⟨⟨asked, _, .proceed 1, _, .proceed 1, [], rfl, rfl, nofun, rfl,
      rfl, rfl, rfl⟩, rfl, ?_, rfl⟩, rfl, ?_⟩
    · exact along_of_tally (by decide +kernel)
    · exact along_of_tally (by decide +kernel)
  have ran : (initial oneRetry stranded).run [] = some (initial oneRetry stranded) := rfl
  have budgeted := run_budgeted ran idle dead run
  exact ⟨state, report, begun, ended, run, count, rfl, external, cycle, left,
    budgeted.standby cycle left standby, budgeted⟩

end State

end Handover.Coordinator
