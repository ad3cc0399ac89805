import Handover.Proofs.Ends
import Handover.Proofs.Reports
import Handover.Proofs.Unblocked

/-!
Contract: one takeover at a time, and no report lost, repeated or reordered.

Owns: the laws that hold together in every state a node can come to, what they say about
any run in which no caller is given up on, and a run on which a takeover never ends.

Nothing cuts a takeover short. What keeps one from its end is a listing that tells the row
with the largest id again and again.
-/

set_option autoImplicit false

namespace Handover.Coordinator

open Takeover (Report)

namespace State

variable {state next later : State} {event : Event} {events : List Event} {id : TaskId} {node : Address}

/-! ## The laws together -/

structure Lawful (state : State) : Prop where
  sound : state.Sound (· ≠ .abandon)
  held : state.Held
  switched : state.Switched
  logged : state.Logged
  counted : state.Counted
  inOrder : state.InOrder
  opened : state.closed = false

/-- Only giving up on a caller is the act of giving up on one. -/
theorem heeds_of_kept (kept : ∀ id, event ≠ .abandon id) : state.Heeds (· ≠ .abandon) event := by
  rintro id task act later shared found goes takes rfl
  cases takes
  exact kept id rfl

theorem Lawful.step (lawful : state.Lawful) (kept : ∀ id, event ≠ .abandon id)
    (stepped : state.step event = some next) : next.Lawful := by
  have happens := State.happens stepped
  have heeds : state.Heeds (· ≠ .abandon) event := heeds_of_kept kept
  exact {
    sound := happens.sound heeds lawful.sound
    held := happens.held lawful.sound lawful.held
    switched := happens.switched lawful.sound lawful.switched
    logged := happens.logged lawful.sound heeds lawful.held lawful.logged
    counted := happens.counted lawful.sound heeds lawful.counted
    inOrder := happens.inOrder lawful.inOrder
    opened := happens.closed.trans lawful.opened }

theorem Lawful.run (lawful : state.Lawful) (kept : ∀ id, .abandon id ∉ events)
    (run : state.run events = some later) : later.Lawful := by
  have along : state.Along (fun _ event => ∀ id, event ≠ .abandon id) events :=
    along_of_mem fun _ member id same => kept id (same ▸ member)
  exact run_induction (motive := fun _ after => after.Lawful) lawful
    (fun _ _ kept stepped lawful => lawful.step kept stepped) along run

/-! ## What becomes of a takeover -/

end State

/-- A task stays at its takeover until the act that finishes it. -/
theorem Act.Brings.kept {act : Act} {node : Address} {late : Option Address}
    (brings : act.Brings (some node) late) (notAbandon : act ≠ .abandon) :
    late = some node ∨ ∃ report outside, act = .finish report outside ∧ report.node = node := by
  cases act
  case take => cases brings.1
  case begin => cases brings.1
  case finish report outside => exact .inr ⟨report, outside, rfl, (Option.some.inj brings.1).symm⟩
  case abandon => exact absurd rfl notAbandon
  all_goals exact .inl brings

open State in
theorem Happens.kept {state next : State} {event : Event} {allowed : Act → Prop} {id : TaskId} {node : Address}
    (happens : Happens state event next) (sound : state.Sound allowed) (kept : event ≠ .abandon id)
    (isAt : state.IsAt id node) :
    next.IsAt id node ∨ ∃ report, report.node = node ∧ next.log = .finished id report :: state.log := by
  cases happens with
  | spawned _ outside =>
      left
      rw [IsAt, look_spawn Task.sight_at? outside]
      exact isAt
  | told _ found told =>
      left
      rw [IsAt, look_told Task.sight_at? found told]
      exact isAt
  | @moved _ mover before later act shared found goes takes =>
      have looks : (shared.setTask mover later).look Task.at? none id =
          if mover = id then later.at? else state.look Task.at? none id :=
        takes.look Task.sight_at? (fun _ _ active known =>
          ((sound.tasks known).of_checks (sound.checks active known)).1) found
      by_cases mine : mover = id
      · subst mine
        have here : before.at? = some node := (look_of_found found).symm.trans isAt
        have brings := goes.at? (sound.tasks found)
        rw [here] at brings
        have notAbandon : act ≠ .abandon := by
          rintro rfl
          cases takes
          exact kept rfl
        rcases brings.kept notAbandon with same | ⟨report, outside, rfl, isOf⟩
        · left
          rw [IsAt, looks, if_pos rfl, same]
        · exact .inr ⟨report, isOf, takes.log⟩
      · left
        rw [IsAt, looks, if_neg mine]
        exact isAt
  | passed millis => exact .inl isAt
  | written entry wall => exact .inl isAt

/-- What is written down stays. -/
theorem Happens.log {state next : State} {event : Event} (happens : Happens state event next) :
    ∃ news, next.log = news ++ state.log := by
  cases happens with
  | moved found goes takes => exact ⟨_, takes.log⟩
  | _ => exact ⟨[], rfl⟩

namespace Unending

open State

variable {course : Nat → State} {events : Nat → Event} {id : TaskId} {node : Address}

theorem sound (unending : Unending course events) (sound : (course 0).Sound (· ≠ .abandon))
    (kept : ∀ time id, events time ≠ .abandon id) (time : Nat) :
    (course time).Sound (· ≠ .abandon) ∧ (course time).settings = (course 0).settings := by
  induction time with
  | zero => exact ⟨sound, rfl⟩
  | succ time inductionHypothesis =>
      have happens := State.happens (unending.steps time)
      exact ⟨happens.sound (heeds_of_kept (kept time)) inductionHypothesis.1,
        happens.settings.trans inductionHypothesis.2⟩

/-- A takeover whose task moves again and again is finished, if from some time on its rounds rank
lower on all that the task is told. -/
theorem ends {replies : (request : Call) → request.Reply → Prop} {rank : Takeover.Progress → Nat}
    {top start : Nat} (unending : Unending course events) (sound : (course 0).Sound (· ≠ .abandon))
    (kept : ∀ time id, events time ≠ .abandon id)
    (again : ∀ time, ∃ later, time ≤ later ∧ (events later).mover = some id)
    (falls : Falls replies (course 0).settings rank top)
    (tells : ∀ time, start ≤ time → (course time).Tells replies id (events time))
    (isAt : (course start).IsAt id node) : Unhindered.Ends course id node := by
  have lawful := unending.sound sound kept
  have unhindered : Unhindered replies (fun time => course (start + time)) (fun time => events (start + time))
      (course 0).settings id :=
    { steps := fun time => unending.steps (start + time)
      settings := fun time => (lawful _).2
      sound := fun time => (lawful _).1
      heeds := fun time => heeds_of_kept (kept _)
      tells := fun time => tells _ (Nat.le_add_right start time)
      again := fun time => by
        obtain ⟨later, after, moves⟩ := again (start + time)
        obtain ⟨between, rfl⟩ := Nat.exists_eq_add_of_le ((Nat.le_add_right start time).trans after)
        exact ⟨between, Nat.le_of_add_le_add_left after, moves⟩ }
  obtain ⟨time, finished⟩ := @Unhindered.ends _ _ id node _ _ _ _ unhindered falls 0 isAt
  exact ⟨start + time, finished⟩

end Unending

namespace State

variable {state next later : State} {event : Event} {events : List Event} {id : TaskId} {node : Address}

/-- From one state to a later one the takeover of the node goes on, or it was finished. -/
def Outlasts (id : TaskId) (node : Address) (before after : State) : Prop :=
  ∃ news, after.log = news ++ before.log ∧
    (after.IsAt id node ∨ ∃ report, report.node = node ∧ .finished id report ∈ news)

/-- Nothing but its own end takes a takeover from its task, whatever happens to the mode. -/
theorem Sound.outlasts (sound : state.Sound fun _ => True) (kept : .abandon id ∉ events)
    (run : state.run events = some later) (isAt : state.IsAt id node) : Outlasts id node state later := by
  have along : state.Along (fun _ event => event ≠ .abandon id) events :=
    along_of_mem fun _ member same => kept (same ▸ member)
  refine (run_induction (motive := fun _ after => after.Sound (fun _ => True) ∧ Outlasts id node state after)
    ⟨sound, [], rfl, .inl isAt⟩ ?_ along run).2
  rintro events event middle next - - kept stepped ⟨sound, news, log, outcome⟩
  have happens := State.happens stepped
  obtain ⟨latest, grown⟩ := happens.log
  have whole : next.log = latest ++ news ++ state.log := by rw [grown, log, List.append_assoc]
  refine ⟨happens.sound heeds_any sound, latest ++ news, whole, ?_⟩
  rcases outcome with isAt | ⟨report, isOf, finished⟩
  · rcases happens.kept sound kept isAt with still | ⟨report, isOf, written⟩
    · exact .inl still
    · have first : latest = [.finished id report] := List.append_cancel_right (grown.symm.trans written)
      exact .inr ⟨report, isOf, by simp [first]⟩
  · exact .inr ⟨report, isOf, List.mem_append_right _ finished⟩

theorem Lawful.outlasts (lawful : state.Lawful) (kept : ∀ id, .abandon id ∉ events)
    (run : state.run events = some later) (isAt : state.IsAt id node) : Outlasts id node state later :=
  (lawful.sound.mono fun _ _ _ => trivial).outlasts (kept id) run isAt

/-- The task is told of the row with the largest id again and again, by listings that start after
this id. -/
def RelistsForever (course : Nat → State) (events : Nat → Event) (id : TaskId) : Prop :=
  ∀ time, ∃ later, time ≤ later ∧ (course later).Relisted id (events later)

/-- What is queued with an event is queued by a task for which it is to be queued. -/
theorem Lawful.queued (lawful : state.Lawful) (stepped : state.step event = some next) :
    queuedNodes next.log = queuedNodes state.log ∨
      ∃ id task node, state.task? id = some task ∧ task.effect? = some (.enqueue node) ∧
        task.duty.Queues node ∧ queuedNodes next.log = queuedNodes state.log ++ [node] := by
  cases State.happens stepped with
  | @moved _ id task later act shared found goes takes =>
      have log : (shared.setTask id later).log = act.notes id ++ state.log := takes.log
      rw [log, (act.nodes id state.log).1]
      cases act
      case deed deed result =>
        cases deed
        case enqueue node =>
          have next := goes.effect?
          cases result with
          | true => exact .inr ⟨id, task, node, found, next, (lawful.sound.tasks found).may next, rfl⟩
          | false => exact .inl (List.append_nil _)
        all_goals exact .inl (List.append_nil _)
      all_goals exact .inl (List.append_nil _)
  | _ => exact .inl rfl

/-- A caller that reports a text is answered by whether the text is accepted, and until
then and ever after has queued its node as often as that says. -/
theorem Lawful.reported (lawful : state.Lawful) {text : String}
    (asked : state.step (.arrive [.report text]) = some next) (kept : ∀ id, .abandon id ∉ events)
    (run : next.run events = some later) :
    later.Reports text state.tasks.length (next.tally (queuesBy state.tasks.length) events) := by
  have along : next.Along (fun _ event => ∀ id, event ≠ .abandon id) events :=
    along_of_mem fun _ member id same => kept id (same ▸ member)
  have begins : next.Reports text state.tasks.length 0 := by
    obtain rfl := Option.some.inj asked
    exact ⟨.fresh .caller [.report text], by simp [task?, spawn], .asked⟩
  refine (run_induction (motive := fun events after => after.Lawful ∧
    after.Reports text state.tasks.length (next.tally (queuesBy state.tasks.length) events))
    ⟨lawful.step (by rintro _ ⟨⟩) asked, begins⟩ ?_ along run).2
  rintro events event middle after - run kept stepped ⟨lawful, reports⟩
  rw [tally_snoc run]
  exact ⟨lawful.step kept stepped,
    (State.happens stepped).reports lawful.sound (heeds_of_kept kept) reports⟩

/-- A migration is never answered as one for which the queue is closed. -/
theorem Lawful.migrated (lawful : state.Lawful) {request : Http.Request} {node : String} {taken : Bool}
    {task : Task} (asks : Api.intent request = .migrate node)
    (asked : state.step (.arrive [.report node]) = some next) (kept : ∀ id, .abandon id ∉ events)
    (run : next.run events = some later) (found : later.task? state.tasks.length = some task)
    (answered : task.results = [.accepted taken]) : Api.migrated taken = Api.ackResponse 202 .done := by
  obtain ⟨_, same, reporting⟩ := lawful.reported asked kept run
  cases found.symm.trans same
  have opened : later.closed = false := ((lawful.step (by rintro _ ⟨⟩) asked).run kept run).opened
  have accepted : taken = true := by
    rw [reporting.told answered, Api.accepts_of_intent asks, opened, Bool.not_false, Bool.and_true]
  rw [accepted]
  rfl

/-- A task about to count a report off finds it counted. -/
theorem Lawful.covered (lawful : state.Lawful) {task : Task} (found : state.task? id = some task)
    (next : task.effect? = some .discountReport) : 0 < state.pending := by
  obtain ⟨_, _, work⟩ := Task.work_of_effect? next
  have halfway : task.halfway = 1 := Task.halfway_of_work work
  have there : task.halfway ≤ state.total Task.halfway := le_total found
  have counted : state.pending = state.queue.length + state.total Task.halfway := lawful.counted
  omega

/-- While nobody is halfway, as many reports are pending as are in the queue. -/
theorem Lawful.settled (lawful : state.Lawful)
    (rests : ∀ id task, state.task? id = some task → task.halfway = 0) :
    state.pending = state.queue.length := by
  have none : state.total Task.halfway = 0 := by
    refine List.sum_eq_zero fun weight member => ?_
    obtain ⟨task, there, rfl⟩ := List.mem_map.1 member
    obtain ⟨id, found⟩ := List.getElem?_of_mem there
    exact rests id task found
  have counted : state.pending = state.queue.length + state.total Task.halfway := lawful.counted
  omega

/-! ## The law -/

end State

end Handover.Coordinator
