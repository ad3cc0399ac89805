import Handover.Proofs.Holder

/-!
Contract: takeovers take turns, as the log tells them.

Owns: the takeover that a log leaves unfinished, the order of begins and ends in a log,
and the law that the unfinished takeover of the log is the one a task is at.

The law is about runs in which no caller is given up on: one that is given up on ends its
takeover without an entry.
-/

set_option autoImplicit false

namespace Handover.Coordinator

/-- The takeover that a log leaves unfinished. The latest entry is the first. -/
def unfinished : List Occurrence → Option (TaskId × Address)
  | [] => none
  | .began id node :: _ => some (id, node)
  | .finished _ _ :: _ => none
  | _ :: rest => unfinished rest

/-- No takeover begins before the one before it is finished, and each is finished by the
task that began it, with a report on its node. -/
def TakesTurns : List Occurrence → Prop
  | [] => True
  | .began _ _ :: rest => unfinished rest = none ∧ TakesTurns rest
  | .finished id report :: rest => unfinished rest = some (id, report.node) ∧ TakesTurns rest
  | _ :: rest => TakesTurns rest

theorem Task.Sound.holds_of_at? {settings : Settings} {allowed : Act → Prop} {task : Task}
    {node : Address} (sound : task.Sound settings allowed) (here : task.at? = some node) :
    task.holds = true := by
  obtain ⟨_, _, _, work⟩ := Task.work_of_at? here
  exact Task.holds_of_at? (sound.running work) here

namespace State

variable {state next : State} {event : Event} {allowed : Act → Prop} {id : TaskId} {node : Address}

/-- The task with the number is taking over the work of the node. -/
def IsAt (state : State) (id : TaskId) (node : Address) : Prop :=
  state.look Task.at? none id = some node

instance : Decidable (state.IsAt id node) := inferInstanceAs (Decidable (_ = _))

theorem isAt_iff : state.IsAt id node ↔ ∃ task, state.task? id = some task ∧ task.at? = some node := by
  unfold IsAt look
  cases state.task? id <;> simp

/-- Only the holder of the queue is at a takeover. -/
theorem IsAt.holder (sound : state.Sound allowed) (held : state.Held) (isAt : state.IsAt id node) :
    state.holder = some id := by
  obtain ⟨task, found, here⟩ := isAt_iff.1 isAt
  rw [held id, look_of_found found]
  exact (sound.tasks found).holds_of_at? here

/-- The log tells which takeover is in progress. -/
structure Logged (state : State) : Prop where
  turns : TakesTurns state.log
  unfinished : ∀ id node, unfinished state.log = some (id, node) ↔ state.IsAt id node

/-- Where the holder is at no takeover, none is in progress. -/
theorem Logged.unfinished_eq_none (logged : state.Logged) (sound : state.Sound allowed) (held : state.Held)
    (away : ∀ id, state.holder = some id → state.look Task.at? none id = none) :
    Coordinator.unfinished state.log = none := by
  refine Option.eq_none_iff_forall_ne_some.2 fun ⟨id, node⟩ same => ?_
  have isAt := (logged.unfinished id node).1 same
  cases (away id (isAt.holder sound held)).symm.trans isAt

end State

/-- What an act writes down, told from where it brings its task. -/
theorem Act.logged {act : Act} {id : TaskId} {log : List Occurrence} {seen : TaskId → Option Address}
    {late : Option Address} (notAbandon : act ≠ .abandon) (brings : act.Brings (seen id) late)
    (turns : TakesTurns log) (known : ∀ id node, unfinished log = some (id, node) ↔ seen id = some node)
    (free : (∃ node, act = .take node ∨ act = .begin node) → unfinished log = none) :
    TakesTurns (act.notes id ++ log) ∧ ∀ other node,
      unfinished (act.notes id ++ log) = some (other, node) ↔
        (if id = other then late else seen other) = some node := by
  have same : late = seen id → ∀ other node, unfinished log = some (other, node) ↔
      (if id = other then late else seen other) = some node := by
    rintro rfl other node
    split
    case isTrue self => exact self ▸ known id node
    case isFalse => exact known other node
  have begins : unfinished log = none → ∀ node, late = some node →
      ∀ other found, some (id, node) = some (other, found) ↔
        (if id = other then late else seen other) = some found := by
    rintro none node rfl other found
    split
    case isTrue self => simp [self]
    case isFalse apart =>
      have nobody := known other found
      simp_all
  cases act
  case take node =>
    have none := free ⟨node, .inl rfl⟩
    exact ⟨⟨none, turns⟩, begins none node brings.2⟩
  case begin node =>
    have none := free ⟨node, .inr rfl⟩
    exact ⟨⟨none, turns⟩, begins none node brings.2⟩
  case finish report outside =>
    have mine := (known id report.node).2 brings.1
    refine ⟨⟨mine, turns⟩, fun other node => ?_⟩
    obtain rfl := brings.2
    have others := known other node
    rw [mine] at others
    change none = some (other, node) ↔ _
    split
    case isTrue => simp
    case isFalse apart => simpa [apart] using others
  case abandon => exact absurd rfl notAbandon
  case deed deed result =>
    cases deed
    case enqueue node => cases result <;> exact ⟨turns, same brings⟩
    all_goals exact ⟨turns, same brings⟩
  all_goals exact ⟨turns, same brings⟩

open State in
theorem Happens.logged {state next : State} {event : Event}
    (happens : Happens state event next) (sound : state.Sound (· ≠ .abandon))
    (heeds : state.Heeds (· ≠ .abandon) event) (held : state.Held) (logged : state.Logged) : next.Logged := by
  cases happens with
  | spawned _ outside =>
      refine ⟨logged.turns, fun id node => ?_⟩
      rw [IsAt, look_spawn Task.sight_at? outside]
      exact logged.unfinished id node
  | told _ found isTold =>
      refine ⟨logged.turns, fun id node => ?_⟩
      rw [IsAt, look_told Task.sight_at? found isTold]
      exact logged.unfinished id node
  | @moved _ id before later act shared found goes takes =>
      have may := heeds _ _ _ _ _ found goes takes
      have seen : state.look Task.at? none id = before.at? := look_of_found found
      have brings := goes.at? (sound.tasks found)
      have free : (∃ node, act = .take node ∨ act = .begin node) → unfinished state.log = none := by
        rintro ⟨node, rfl | rfl⟩
        · -- whoever takes a report holds the queue, and is at no takeover
          have holding : before.holds = true := (goes.holds (sound.tasks found)).symm.trans
            (((sound.tasks found).goes may goes).holds_of_at? brings.2)
          have holder : state.holder = some id := (held id).2 ((look_of_found found).trans holding)
          refine logged.unfinished_eq_none sound held fun other same => ?_
          cases holder.symm.trans same
          rw [seen, brings.1]
        · refine logged.unfinished_eq_none sound held fun other same => ?_
          have free : state.holder = none := by cases takes; assumption
          cases free.symm.trans same
      obtain ⟨turns, known⟩ := Act.logged may (seen ▸ brings) logged.turns logged.unfinished free
      have log : (shared.setTask id later).log = act.notes id ++ state.log := takes.log
      refine ⟨log ▸ turns, fun other node => ?_⟩
      rw [log, IsAt, takes.look Task.sight_at? (fun _ _ active known =>
        ((sound.tasks known).of_checks (sound.checks active known)).1) found]
      exact known other node
  | passed millis => exact ⟨logged.turns, logged.unfinished⟩
  | written entry wall => exact ⟨logged.turns, logged.unfinished⟩

end Handover.Coordinator
