import Handover.Proofs.Effects
import Handover.Proofs.Holder

/-!
Contract: a task that has something under way is never stuck.

Owns: that whoever changes the mode is the one task at a change of leadership, and to the
other mode; that every task with something under way can move, or waits for the change of
the mode to schedule a retry, while the task that changes the mode can move.
-/

set_option autoImplicit false

namespace Handover.Coordinator

/-! ## Who changes the mode -/

/-- The leadership that a change of the mode is to bring. -/
def Duty.leader? : Duty → Option Bool
  | .lead leader => some leader
  | _ => none

theorem Role.not_leader? (role : Role) : role.duty.leader? = none := by
  cases role
  case worker activation holds node => cases node <;> rfl
  all_goals rfl

theorem Errand.not_leader? {errand : Errand} (notLead : ∀ leader, errand ≠ .lead leader) :
    errand.duty.leader? = none := by
  cases errand
  case lead leader => exact absurd rfl (notLead leader)
  all_goals rfl

/-- The leadership to which the task is changing the mode. -/
def Task.steers? (task : Task) : Option Bool := task.work.bind fun _ => task.duty.leader?

theorem Task.steers?_of_idle {task : Task} (idle : task.work = none) : task.steers? = none := by
  rw [steers?, idle]
  rfl

theorem Task.steers?_of_work {task : Task} {work : Work} (busy : task.work = some work) :
    task.steers? = task.duty.leader? := by
  rw [steers?, busy]
  rfl

/-- No role changes the mode. Only an errand does. -/
theorem Task.steers?_of_role {task : Task} (errands : task.errands = []) : task.steers? = none := by
  cases work : task.work with
  | none => exact Task.steers?_of_idle work
  | some busy =>
      rw [Task.steers?_of_work work, Task.duty_of_none errands]
      exact task.role.not_leader?

/-- To which leadership an act lets a task change the mode. With most acts it does as before. -/
def Act.Steers (before after : Option Bool) : Act → Prop
  | .changeBegin leader => before = none ∧ after = some leader
  | .changeEnd leader => before = some leader ∧ after = none
  | .abandon => after = none
  | _ => after = before

theorem Task.Goes.steers {settings : Settings} {task later : Task} {act : Act}
    (goes : task.Goes settings act later) : act.Steers task.steers? later.steers? := by
  have rests : ∀ {one other : Task}, one.steers? = none → other.steers? = none →
      other.steers? = one.steers? := fun before after => after.trans before.symm
  cases goes with
  | started work => exact (Task.steers?_of_work work).symm
  | replied work reply => exact (Task.steers?_of_work work).symm
  | acted work result => exact (Task.steers?_of_work work).symm
  | @errandBegun errand _ _ script running idle errands begins =>
      have now : (task.begin script).steers? = errand.duty.leader? :=
        congrArg Duty.leader? (Task.duty_of_errands errands)
      have before := Task.steers?_of_idle idle
      cases begins
      case lead leader => exact ⟨before, now⟩
      all_goals exact rests before now
  | @errandEnded errand _ _ _ _ running work errands ends =>
      have before : task.steers? = errand.duty.leader? :=
        (Task.steers?_of_work work).trans (congrArg Duty.leader? (Task.duty_of_errands errands))
      cases ends with
      | lead leader outcome => exact ⟨before, rfl⟩
      | takeOver node report => exact rests before rfl
      | other notLead _ => exact rests (before.trans (Errand.not_leader? notLead)) rfl
  | leadSkipped running idle errands => exact rests (Task.steers?_of_idle idle) rfl
  | drained workers running idle errands =>
      exact rests (Task.steers?_of_idle idle) (Task.steers?_of_idle idle)
  | awaited running idle errands => exact rests (Task.steers?_of_idle idle) (Task.steers?_of_idle idle)
  | awaitedAll running idle errands => exact rests (Task.steers?_of_idle idle) rfl
  | @roleBegun role _ script running idle errands begins =>
      have before := Task.steers?_of_idle idle
      have now : ({ task with role := role }.begin script).steers? = none := Task.steers?_of_role errands
      generalize task.role = former at begins
      cases begins <;> exact rests before now
  | errandRound running work errands unfinished => exact (Task.steers?_of_work work).symm
  | workerRound running work errands role unfinished => exact (Task.steers?_of_work work).symm
  | workerFinished running work errands role => exact rests (Task.steers?_of_role errands) rfl
  | workerAstray running work errands role _ => exact rests (Task.steers?_of_role errands) rfl
  | rested running work errands idle once => exact rests (Task.steers?_of_role errands) rfl
  | pushed running work errands role => exact rests (Task.steers?_of_role errands) rfl
  | looked running idle errands role => exact rests (Task.steers?_of_idle idle) (Task.steers?_of_idle idle)
  | left running idle errands role => exact rests (Task.steers?_of_idle idle) (Task.steers?_of_idle idle)
  | acquired running idle errands role =>
      exact rests (Task.steers?_of_idle idle) (Task.steers?_of_idle idle)
  | passed later running idle errands role =>
      exact rests (Task.steers?_of_idle idle) (Task.steers?_of_idle idle)
  | closed running idle errands free => exact rests (Task.steers?_of_idle idle) rfl
  | released running idle errands role => exact rests (Task.steers?_of_idle idle) rfl
  | abandoned role => rfl

theorem Task.sight_steers? : Task.Sight Task.steers? none where
  outside := fun _ => rfl
  raised := fun _ => rfl
  told := fun told => by simp only [Task.steers?, Task.duty_told told]
  closed := fun _ => rfl

theorem Task.Sound.not_steers {settings : Settings} {allowed : Act → Prop} {task : Task}
    (sound : task.Sound settings allowed) (checks : task.role.Checks) : task.steers? = none := by
  obtain ⟨_, _, role⟩ := checks
  exact Task.steers?_of_role (sound.unasked (by rw [role]; rfl))

namespace State

/-- Whoever changes the mode is the one task at a change of leadership, and that change is needed. -/
structure Switched (state : State) : Prop where
  changer : ∀ id, state.changing = some id ↔ (state.look Task.steers? none id).isSome = true
  needed : ∀ {id leader}, state.look Task.steers? none id = some leader → leader ≠ (state.mode == .active)

theorem initial_switched (settings : Settings) (world : World) :
    (initial settings world).Switched where
  changer := by simp [initial, look, task?]
  needed := nofun

end State

/-- An act keeps the law: no one begins to change the mode while another is at it. -/
theorem Act.changing_iff {act : Act} {id : TaskId} {before : Option TaskId} {steering : TaskId → Option Bool}
    {late : Option Bool} (changer : ∀ other, before = some other ↔ (steering other).isSome = true)
    (steers : act.Steers (steering id) late) (free : ∀ leader, act = .changeBegin leader → before = none)
    (other : TaskId) :
    act.changing id before = some other ↔ (if id = other then late else steering other).isSome = true := by
  have same : late = steering id → (before = some other ↔
      (if id = other then late else steering other).isSome = true) := by
    rintro rfl
    split
    case isTrue self => exact self ▸ changer id
    case isFalse => exact changer other
  cases act
  case changeBegin leader =>
    obtain rfl := free leader rfl
    obtain ⟨_, rfl⟩ := steers
    change some id = some other ↔ _
    split
    case isTrue self => simp [self]
    case isFalse apart => simpa [apart] using changer other
  case changeEnd leader =>
    obtain ⟨mine, rfl⟩ := steers
    obtain rfl := (changer id).2 (by rw [mine]; rfl)
    change none = some other ↔ _
    split
    case isTrue => simp
    case isFalse apart => simpa [apart] using changer other
  case abandon =>
    obtain rfl : late = none := steers
    simp only [Act.changing]
    split
    case isTrue mine =>
      subst mine
      split
      case isTrue => simp
      case isFalse apart => simpa [apart] using changer other
    case isFalse notMine =>
      split
      case isTrue self => simpa [self] using self ▸ notMine
      case isFalse => exact changer other
  all_goals exact same steers

open State in
theorem Happens.switched {state next : State} {event : Event} {allowed : Act → Prop}
    (happens : Happens state event next) (sound : state.Sound allowed) (switched : state.Switched) :
    next.Switched := by
  cases happens with
  | spawned _ outside =>
      refine ⟨fun other => ?_, fun {other leader} towards => ?_⟩
      · rw [look_spawn Task.sight_steers? outside]
        exact switched.changer other
      · rw [look_spawn Task.sight_steers? outside] at towards
        exact switched.needed towards
  | told _ found told =>
      refine ⟨fun other => ?_, fun {other leader} towards => ?_⟩
      · rw [look_told Task.sight_steers? found told]
        exact switched.changer other
      · rw [look_told Task.sight_steers? found told] at towards
        exact switched.needed towards
  | @moved _ id before later act shared found goes takes =>
      have looks : ∀ other, (shared.setTask id later).look Task.steers? none other =
          if id = other then later.steers? else state.look Task.steers? none other :=
        fun other => takes.look Task.sight_steers? (fun _ _ active known =>
          (sound.tasks known).not_steers (sound.checks active known)) found
      have seen : state.look Task.steers? none id = before.steers? := look_of_found found
      have steers : act.Steers (state.look Task.steers? none id) later.steers? := seen ▸ goes.steers
      refine ⟨fun other => ?_, fun {other leader} towards => ?_⟩
      · rw [looks other, ← Act.changing_iff switched.changer steers (fun leader begins => by
          cases takes <;> cases begins
          assumption) other]
        exact Eq.congr takes.changing rfl
      · rw [looks other] at towards
        have notEnd : ∀ own, act ≠ .changeEnd own := by
          rintro own rfl
          split at towards
          case isTrue => cases steers.2.symm.trans towards
          case isFalse apart =>
            -- only one task changes the mode, and it is the one whose change ends
            have one := (switched.changer id).2 (by rw [steers.1]; rfl)
            have two := (switched.changer other).2 (by rw [towards]; rfl)
            exact apart (Option.some.inj (one.symm.trans two))
        change leader ≠ (shared.mode == .active)
        rw [takes.mode notEnd]
        split at towards
        case isFalse => exact switched.needed towards
        case isTrue =>
          cases act
          case changeBegin own =>
            cases steers.2.symm.trans towards
            cases takes
            assumption
          case changeEnd own => exact absurd rfl (notEnd own)
          case abandon => cases Eq.trans (Eq.symm steers) towards
          all_goals exact switched.needed (Eq.trans (Eq.symm steers) towards)
  | passed millis => exact ⟨switched.changer, switched.needed⟩
  | written entry wall => exact ⟨switched.changer, switched.needed⟩

/-! ## Moving -/

namespace State

variable {state : State} {id : TaskId} {task : Task} {allowed : Act → Prop}

/-- The task can move, and not by being given up on. -/
def CanMove (state : State) (id : TaskId) : Prop :=
  ∃ event next, event.mover = some id ∧ (∀ other, event ≠ .abandon other) ∧
    state.step event = some next

/-- An effect happens at once, but one that needs the mode waits while someone changes it. -/
theorem afterEffect_isSome (deed : Effect) (wall : Time.Instant) (draw : Nat)
    (free : ∀ node, deed = .scheduleRetry node → state.changing = none) :
    ∃ result after, state.afterEffect wall draw deed = some (result, after) := by
  cases deed
  case scheduleRetry node => exact ⟨(), _, by rw [afterEffect, free node rfl]; rfl⟩
  case enqueue node =>
    unfold afterEffect
    split <;> exact ⟨_, _, rfl⟩
  all_goals exact ⟨_, _, rfl⟩

/-- A task that has something under way can move, unless it has to wait for the mode. -/
theorem Sound.canMove_of_work (sound : state.Sound allowed) (found : state.task? id = some task)
    {work : Work} (busy : task.work = some work)
    (free : ∀ node, task.effect? = some (.scheduleRetry node) → state.changing = none) :
    state.CanMove id := by
  obtain ⟨script, started⟩ := work
  cases script with
  | done outcome =>
      have running := (sound.tasks found).running busy
      cases errands : task.errands with
      | nil =>
          refine ⟨.proceed id, state.endRole id task outcome, rfl, by simp, ?_⟩
          simp [step, proceed, found, running, busy, errands]
      | cons errand rest =>
          refine ⟨.proceed id, state.endErrand id task outcome errand, rfl, by simp, ?_⟩
          simp [step, proceed, found, running, busy, errands]
  | call request next =>
      cases started with
      | false => exact ⟨.start id, _, rfl, by simp, by simp [step, found, busy]; rfl⟩
      | true => exact ⟨.answer id none none, _, rfl, by simp, by simp [step, found, busy]; rfl⟩
  | effect deed next =>
      obtain ⟨result, after, happened⟩ := state.afterEffect_isSome deed default 0
        fun node same => free node (by simp [Task.effect?, busy, same])
      refine ⟨.effect id default 0, after.setTask id (task.begin (next result)), rfl, by simp, ?_⟩
      simp [step, found, busy, happened]

/-- Whoever changes the mode can move. -/
theorem Switched.canMove (switched : state.Switched) (sound : state.Sound allowed)
    (changing : state.changing = some id) : state.CanMove id := by
  have seen := (switched.changer id).1 changing
  cases found : state.task? id with
  | none => simp [look, found] at seen
  | some task =>
      rw [look_of_found found] at seen
      cases work : task.work with
      | none =>
          rw [Task.steers?_of_idle work] at seen
          cases seen
      | some busy =>
          refine sound.canMove_of_work found work fun node next => ?_
          have takesOver : task.duty.node? = some node := (sound.tasks found).may next
          rw [Task.steers?_of_work work] at seen
          generalize task.duty = duty at seen takesOver
          cases duty <;> cases takesOver <;> cases seen

end State

end Handover.Coordinator
