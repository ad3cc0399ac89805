import Handover.Api.Route
import Handover.Proofs.Ledger
import Handover.Proofs.Texts

/-!
Contract: what becomes of a report of a dead node.

Owns: which texts are accepted; that an order to migrate always names a node that is
accepted; that a report is answered by whether it is accepted, and is queued once if it
is, and not at all if not.
-/

set_option autoImplicit false

namespace Handover

/-! ## Which reports are accepted -/

/-- Every text is accepted as a report but a blank one. -/
theorem Intake.accepts_iff (text : String) : accepts text = true ↔ Text.isBlank text = false := by
  simp only [accepts, Address.isBlank, Address.trim, Text.isBlank_trim, Bool.not_eq_true']

/-- A request that comes down to a migration names a node that is accepted. -/
theorem Api.accepts_of_intent {request : Http.Request} {node : String}
    (asks : intent request = .migrate node) : Intake.accepts node = true := by
  rw [Intake.accepts_iff]
  unfold intent at asks
  split at asks
  case h_1 => cases asks
  case h_2 route _ =>
    split at asks
    case isFalse => cases asks
    case isTrue =>
      cases route
      case trigger => cases asks
      case status => cases asks
      case migrate =>
        simp only [migration] at asks
        split at asks
        case isFalse => cases asks
        case isTrue =>
          split at asks
          case h_1 order _ =>
            split at asks
            case isTrue => cases asks
            case isFalse named =>
              cases asks
              simpa [Address.isBlank] using named
          all_goals cases asks

namespace Coordinator

-- To compare scripts that submit a report, Lean would trim a text that it does not know.
attribute [local irreducible] Intake.accepts

/-! ## The way of a report -/

/-- What is left of the script of a report, and how often the node was queued so far. -/
inductive Submitting (closed : Bool) (text : String) : Script Outcome → Nat → Prop
  | counting (accepted : Intake.accepts text = true) {rest : Bool → Script Outcome}
      (queued : rest true = .done (.accepted true))
      (refused : rest false = .effect .discountReport fun _ => .done (.accepted false)) :
      Submitting closed text
        (.effect .countReport fun _ => .effect (.enqueue (Address.mk text).trim) rest) 0
  | queueing (accepted : Intake.accepts text = true) {rest : Bool → Script Outcome}
      (queued : rest true = .done (.accepted true))
      (refused : rest false = .effect .discountReport fun _ => .done (.accepted false)) :
      Submitting closed text (.effect (.enqueue (Address.mk text).trim) rest) 0
  | queued (accepted : Intake.accepts text = true) (opened : closed = false) :
      Submitting closed text (.done (.accepted true)) 1
  | refusing (shut : closed = true) :
      Submitting closed text (.effect .discountReport fun _ => .done (.accepted false)) 0
  | refused (turnedDown : Intake.accepts text = false ∨ closed = true) :
      Submitting closed text (.done (.accepted false)) 0

theorem Submitting.begun (closed : Bool) (text : String) : Submitting closed text (submitScript text) 0 := by
  cases accepted : Intake.accepts text with
  | true =>
      rw [submitScript, Intake.submit, if_pos accepted]
      exact .counting accepted rfl rfl
  | false =>
      rw [submitScript, Intake.submit, if_neg (by simp [accepted])]
      exact .refused (.inl accepted)

/-- A caller that reports a text, and how often it has queued a node so far. It is told whether
the text is accepted and the queue open. -/
inductive Task.Reporting (closed : Bool) (text : String) : Task → Nat → Prop
  | asked : Reporting closed text (.fresh .caller [.report text]) 0
  | submitting {script : Script Outcome} {count : Nat} (started : Bool)
      (submitting : Submitting closed text script count) :
      Reporting closed text ⟨.caller, [.report text], some ⟨script, started⟩, [], false⟩ count
  | answered (ended : Bool) :
      Reporting closed text ⟨.caller, [], none, [.accepted (Intake.accepts text && !closed)], ended⟩
        (if Intake.accepts text && !closed then 1 else 0)

/-- What a caller is told that has reported a text. -/
theorem Task.Reporting.told {closed taken : Bool} {text : String} {task : Task} {count : Nat}
    (reporting : task.Reporting closed text count) (answered : task.results = [.accepted taken]) :
    taken = (Intake.accepts text && !closed) := by
  cases reporting with
  | asked => cases answered
  | submitting started submitting => cases answered
  | answered ended =>
      obtain ⟨same, _⟩ := List.cons.inj answered
      exact (Outcome.accepted.inj same).symm

/-- How often an act queues a node. -/
def Act.queues : Act → Nat
  | .deed (.enqueue _) true => 1
  | _ => 0

/-- A caller whose report has come to its end is told the outcome. -/
theorem Task.Goes.of_reported {settings : Settings} {task later : Task} {act : Act} {text : String}
    {outcome : Outcome} {started : Bool} {rest : List Errand} (goes : task.Goes settings act later)
    (notAbandon : act ≠ .abandon) (work : task.work = some ⟨.done outcome, started⟩)
    (errands : task.errands = .report text :: rest) : act = .quiet ∧ later = task.completed outcome := by
  cases goes
  case errandEnded same errand ends =>
    cases same.symm.trans work
    cases errand.symm.trans errands
    cases ends
    exact ⟨rfl, rfl⟩
  case abandoned => exact absurd rfl notAbandon
  all_goals simp_all

/-- What becomes of a report that is under way. -/
theorem Task.Goes.submitting {settings : Settings} {task later : Task} {act : Act} {closed started : Bool}
    {text : String} {script : Script Outcome} {count : Nat} (goes : task.Goes settings act later)
    (notAbandon : act ≠ .abandon) (told : ∀ node taken, act = .deed (.enqueue node) taken → taken = !closed)
    (submitting : Submitting closed text script count)
    (same : task = ⟨.caller, [.report text], some ⟨script, started⟩, [], false⟩) :
    later.Reporting closed text (count + act.queues) := by
  have answered : Task.Reporting closed text _ _ := .answered false
  subst same
  cases submitting with
  | counting accepted queued refused =>
      obtain ⟨_, rfl, rfl⟩ := goes.of_effect notAbandon rfl
      exact .submitting false (.queueing accepted queued refused)
  | queueing accepted queued refused =>
      obtain ⟨taken, rfl, rfl⟩ := goes.of_effect notAbandon rfl
      obtain rfl : taken = !closed := told _ _ rfl
      cases closed with
      | false =>
          have now := Submitting.queued accepted rfl
          rw [← queued] at now
          exact .submitting false now
      | true =>
          have now : Submitting true text _ 0 := .refusing rfl
          rw [← refused] at now
          exact .submitting false now
  | queued accepted opened =>
      obtain ⟨rfl, rfl⟩ := goes.of_reported notAbandon rfl rfl
      subst opened
      rw [accepted] at answered
      exact answered
  | refusing shut =>
      obtain ⟨_, rfl, rfl⟩ := goes.of_effect notAbandon rfl
      exact .submitting false (.refused (.inr shut))
  | refused turnedDown =>
      obtain ⟨rfl, rfl⟩ := goes.of_reported notAbandon rfl rfl
      have not : (Intake.accepts text && !closed) = false := by
        rcases turnedDown with blank | shut
        · rw [blank, Bool.false_and]
        · rw [shut, Bool.not_true, Bool.and_false]
      rw [not] at answered
      exact answered

theorem Task.Goes.reporting {settings : Settings} {task later : Task} {act : Act} {closed : Bool}
    {text : String} {count : Nat} (goes : task.Goes settings act later) (notAbandon : act ≠ .abandon)
    (told : ∀ node taken, act = .deed (.enqueue node) taken → taken = !closed)
    (reporting : task.Reporting closed text count) : later.Reporting closed text (count + act.queues) := by
  cases reporting with
  | asked =>
      cases goes
      case errandBegun errands begins =>
        cases errands
        cases begins
        exact .submitting false (.begun closed text)
      case abandoned => exact absurd rfl notAbandon
      all_goals simp_all [Task.fresh]
  | submitting started submitting => exact goes.submitting notAbandon told submitting rfl
  | answered ended =>
      cases goes
      case closed => exact .answered true
      case roleBegun begins => cases begins
      case abandoned => exact absurd rfl notAbandon
      all_goals simp_all

namespace State

/-- How often the task with the number queues a node with an event. -/
def queuesBy (id : TaskId) (state : State) (event : Event) : Nat :=
  match state.deed? event with
  | some (own, .enqueue _) => if own = id ∧ state.closed = false then 1 else 0
  | _ => 0

/-- The task with the number is a caller that reports a text. -/
def Reports (text : String) (id : TaskId) (count : Nat) (state : State) : Prop :=
  ∃ task, state.task? id = some task ∧ task.Reporting state.closed text count

end State

open State in
theorem Happens.reports {state next : State} {event : Event} {allowed : Act → Prop} {text : String}
    {id : TaskId} {count : Nat} (happens : Happens state event next) (sound : state.Sound allowed)
    (heeds : state.Heeds (· ≠ .abandon) event) (reports : state.Reports text id count) :
    next.Reports text id (count + state.queuesBy id event) := by
  obtain ⟨task, found, reporting⟩ := reports
  have caller : task.role = .caller := by cases reporting <;> rfl
  by_cases mine : event.mover = some id
  · cases happens with
    | @moved _ mover before later act shared there goes takes =>
        obtain rfl : mover = id := Option.some.inj (takes.mover.symm.trans mine)
        cases there.symm.trans found
        obtain ⟨_, still⟩ := takes.there found
        have told : ∀ node taken, act = .deed (.enqueue node) taken → taken = !state.closed := by
          rintro node taken rfl
          exact takes.taken
        have queues : state.queuesBy mover event = act.queues := by
          rw [queuesBy, takes.deed? there goes]
          cases act
          case deed deed result =>
            cases deed
            case enqueue node =>
              rw [told node result rfl]
              cases state.closed <;> simp [Act.deed?, Act.queues]
            all_goals rfl
          all_goals rfl
        rw [queues, Reports, (Happens.moved there goes takes).closed]
        exact ⟨later, task?_setTask_of_found still,
          goes.reporting (heeds _ _ _ _ _ there goes takes) told reporting⟩
    | spawned apart _ => cases apart.symm.trans mine
    | told apart _ _ => cases apart.symm.trans mine
    | passed => cases mine
    | written => cases mine
  · have none : state.queuesBy id event = 0 := by
      unfold queuesBy
      split
      case h_2 => rfl
      case h_1 own node queues =>
        rw [if_neg]
        rintro ⟨rfl, _⟩
        exact mine (of_deed? queues).1
    obtain ⟨role, still, same | told⟩ := happens.still sound found mine (by
      rintro ⟨_, _, checks⟩
      cases caller.symm.trans checks)
    · rw [none, Reports, happens.closed]
      exact ⟨task, by rw [still, same], reporting⟩
    · rw [caller] at told
      cases told

end Coordinator

end Handover
