import Handover.Proofs.Course

/-!
Contract: which effects a task may have, by what it is at.

Owns: the effects of each duty, and the law that no script under way has another. So a
node is queued only for an accepted report or for a retry, and the budget of retries of a
node is settled only by a takeover of that node.
-/

set_option autoImplicit false

namespace Handover

/-- The terms let a script queue the node, and count it off again if the queue is closed. -/
structure Terms.Queue (terms : Terms) (node : Address) : Prop where
  counts : terms.deeds .countReport
  queues : terms.deeds (.enqueue node)
  discounts : terms.deeds .discountReport

namespace Coordinator

-- To compare scripts that submit a report, Lean would trim a text that it does not know.
attribute [local irreducible] Intake.accepts

namespace Duty

/-- The duty queues the node: it was reported, or found dead, or is to be tried again. -/
inductive Queues : Duty → Address → Prop
  | report {text : String} (accepted : Intake.accepts text = true) :
      Queues (.report text) (Address.mk text).trim
  | check {timeoutMillis : Nat} {now : Time.Instant} {found : Address}
      (accepted : Intake.accepts found.text = true) : Queues (.check timeoutMillis now) found.trim
  | monitor {timeoutMillis : Nat} {found : Address}
      (accepted : Intake.accepts found.text = true) : Queues (.monitor timeoutMillis) found.trim
  | push (node : Address) : Queues (.push node) node

/-- The timeout of a duty that checks the heartbeats. -/
def timeout? : Duty → Option Nat
  | .check timeoutMillis _ => some timeoutMillis
  | .monitor timeoutMillis => some timeoutMillis
  | _ => none

/-- The effects that a duty may have. -/
def May (duty : Duty) : Effect → Prop
  | .readClock => ∀ timeoutMillis now, duty ≠ .check timeoutMillis now
  | .readLocalClock => duty = .build
  | .countReport => True
  | .enqueue node => duty.Queues node
  | .discountReport => ∃ node, duty = .work node ∨ duty.Queues node
  | .forgetRetries node => duty.node? = some node
  | .scheduleRetry node => duty.node? = some node
  | .heartbeat node => duty = .beat node

/-- The calls that a duty may make. Only checks of the heartbeats swap records, only a takeover
writes over one, that of its node, or moves jobs, only a checker has the job graph built, and only a
change of the mode switches the graph, to that mode. Jobs are marked only as ones that could not
be submitted. -/
def MayCall (duty : Duty) : Call → Prop
  | .liveness => duty.timeout?.isSome = true
  | .swap _ _ _ => duty.timeout?.isSome = true
  | .reset node record _ => duty.node? = some node ∧ record = .neverAlive
  | .reassignJobs _ _ => duty.node?.isSome = true
  | .markJob jobId status error => Takeover.RecordsFailure jobId status error
  | .buildGraph _ => duty = .build
  | .activateGraph leader => duty = .lead leader
  | _ => True

/-- The terms of a duty: its own effects and calls, on any replies. -/
def terms (duty : Duty) : Terms := ⟨duty.May, duty.MayCall, fun _ _ => True⟩

theorem Queues.may {duty : Duty} {node : Address} (queues : duty.Queues node) : duty.terms.Queue node :=
  ⟨trivial, queues, node, .inr queues⟩

end Duty

section Scripts

variable {terms : Terms}

theorem push_keeps {node : Address} (may : terms.Queue node) :
    (Intake.push node).Keeps terms fun _ => True := by
  refine ⟨may.counts, fun _ => ⟨may.queues, fun taken => ?_⟩⟩
  cases taken with
  | true => exact trivial
  | false => exact ⟨may.discounts, fun _ => trivial⟩

theorem submit_keeps (text : String)
    (may : Intake.accepts text = true → terms.Queue (Address.mk text).trim) :
    (Intake.submit text).Keeps terms fun _ => True := by
  unfold Intake.submit
  split
  case isTrue accepted => exact push_keeps (may accepted)
  case isFalse => exact trivial

theorem submitScript_keeps (text : String)
    (may : Intake.accepts text = true → terms.Queue (Address.mk text).trim) :
    (submitScript text).Keeps terms fun _ => True := by
  unfold submitScript
  exact (submit_keeps text may).bind fun _ _ => trivial

theorem sweep_keeps
    (may : ∀ found : Address, Intake.accepts found.text = true → terms.Queue found.trim)
    (swaps : ∀ node expected record, terms.calls (.swap node expected record))
    (timeoutMillis : Nat) (now : Time.Instant) (listed : List (Address × Liveness)) :
    (Detection.sweep timeoutMillis now listed).run.Keeps terms fun _ => True := by
  induction listed with
  | nil => exact trivial
  | cons entry rest inductionHypothesis =>
      unfold Detection.sweep
      split
      case isFalse => exact inductionHypothesis
      case isTrue =>
        refine .attemptAsk (swaps _ _ _) (fun _ => trivial) fun applied _ => ?_
        split
        case isFalse => exact inductionHypothesis
        case isTrue =>
          refine .attemptOf (submit_keeps entry.1.text (may entry.1)) fun accepted _ => ?_
          exact .attempt inductionHypothesis (fun _ _ => trivial) fun _ _ => .ok trivial

theorem checkScript_keeps
    (may : ∀ found : Address, Intake.accepts found.text = true → terms.Queue found.trim)
    (lists : terms.calls .liveness)
    (swaps : ∀ node expected record, terms.calls (.swap node expected record))
    (timeoutMillis : Nat) (now : Time.Instant) :
    (checkScript timeoutMillis now).Keeps terms fun _ => True := by
  have passes : (Detection.pass timeoutMillis now).run.Keeps terms fun _ => True :=
    .attemptAsk lists (fun _ => trivial) fun listed _ => sweep_keeps may swaps timeoutMillis now listed
  exact passes.bind fun _ _ => .done trivial

theorem roundOf_keeps {settings : Settings} {node : Address} {progress : Takeover.Progress}
    (calls : ∀ request, Takeover.Asks node request → terms.calls request)
    (clock : terms.deeds .readClock) (forgets : terms.deeds (.forgetRetries node))
    (schedules : terms.deeds (.scheduleRetry node))
    (unfinished : ∀ report, progress ≠ .finished report) :
    (roundOf settings node progress).Keeps terms fun _ => True :=
  .bind (Takeover.round_keeps (fun request asks => calls request asks.asks) clock
    (fun _ _ _ => ⟨forgets, schedules⟩) unfinished) fun _ _ => trivial

end Scripts

namespace Duty

theorem mayCall_of_asks {duty : Duty} {node : Address} (takesOver : duty.node? = some node)
    (request : Call) (asks : Takeover.Asks node request) : duty.MayCall request := by
  cases request
  case reset other record synchronized =>
    obtain ⟨rfl, rfl⟩ := asks
    exact ⟨takesOver, rfl⟩
  case reassignJobs dest ids => exact congrArg Option.isSome takesOver
  case markJob jobId status error => exact asks
  all_goals first | exact trivial | cases asks

theorem script_keeps (settings : Settings) (duty : Duty) :
    (duty.script settings).Keeps duty.terms fun _ => True := by
  cases duty with
  | idle => exact trivial
  | report text => exact submitScript_keeps text fun accepted => (Queues.report accepted).may
  | lead leader => exact ⟨rfl, fun _ _ => trivial⟩
  | takeOver node => exact roundOf_keeps (mayCall_of_asks rfl) nofun rfl rfl fun _ => nofun
  | recordFailure jobId detail =>
      exact .bind (Takeover.recordFailure_keeps (fun _ _ => nofun) jobId detail trivial fun _ => ⟨rfl, _, _, rfl⟩)
        fun _ _ => trivial
  | check timeoutMillis now =>
      exact checkScript_keeps (fun _ accepted => (Queues.check accepted).may) rfl (fun _ _ _ => rfl)
        timeoutMillis now
  | trigger => exact ⟨trivial, fun _ _ => trivial⟩
  | work node =>
      exact ⟨⟨node, .inl rfl⟩, fun _ =>
        roundOf_keeps (mayCall_of_asks rfl) nofun rfl rfl fun _ => nofun⟩
  | build => exact ⟨rfl, fun _ => ⟨rfl, fun _ _ => trivial⟩⟩
  | push node => exact (push_keeps (Queues.push node).may).bind fun _ _ => trivial
  | monitor timeoutMillis =>
      exact ⟨nofun, fun now =>
        checkScript_keeps (fun _ accepted => (Queues.monitor accepted).may) rfl (fun _ _ _ => rfl)
          timeoutMillis now⟩
  | beat node => exact ⟨rfl, fun _ => trivial⟩

variable {settings : Settings} {allowed : Act → Prop} {duty : Duty} {script : Script Outcome}

/-- What is under way for a duty has only effects and calls of that duty. -/
theorem Underway.may (underway : duty.Underway settings allowed script) :
    script.Keeps duty.terms fun _ => True := by
  refine underway.keeps (fun _ _ _ => trivial) (duty.script_keeps settings) ?_
  exact fun node progress takesOver unfinished _ =>
    roundOf_keeps (mayCall_of_asks takesOver) (by rintro _ _ rfl; cases takesOver) takesOver takesOver
      unfinished

end Duty

theorem Task.work_of_effect? {task : Task} {deed : Effect} (next : task.effect? = some deed) :
    ∃ rest started, task.work = some ⟨.effect deed rest, started⟩ := by
  unfold Task.effect? at next
  split at next
  case h_1 own rest started work =>
    obtain rfl : own = deed := Option.some.inj next
    exact ⟨rest, started, work⟩
  case h_2 => cases next

theorem Task.work_of_call? {task : Task} {request : Call} {started : Bool}
    (next : task.call? = some (request, started)) :
    ∃ rest, task.work = some ⟨.call request rest, started⟩ := by
  unfold Task.call? at next
  split at next
  case h_1 own rest started work =>
    cases next
    exact ⟨rest, work⟩
  case h_2 => cases next

/-- The effect that comes next in a task is one of its duty. -/
theorem Task.Sound.may {settings : Settings} {allowed : Act → Prop} {task : Task}
    (sound : task.Sound settings allowed) {deed : Effect} (next : task.effect? = some deed) :
    task.duty.May deed := by
  obtain ⟨rest, started, work⟩ := Task.work_of_effect? next
  exact (sound.underway _ _ work).may.1

/-- The call that comes next in a task is one of its duty. -/
theorem Task.Sound.mayCall {settings : Settings} {allowed : Act → Prop} {task : Task}
    (sound : task.Sound settings allowed) {request : Call} {started : Bool}
    (next : task.call? = some (request, started)) : task.duty.MayCall request := by
  obtain ⟨rest, work⟩ := Task.work_of_call? next
  exact (sound.underway _ _ work).may.1

end Coordinator

end Handover
