import Handover.Proofs.Effects

/-!
Contract: which records a check of the heartbeats swaps.

Owns: the law that every swap of a task goes back to a listing that the same task made
before, as of the moment its check began, and is of a record that was listed and due.
-/

set_option autoImplicit false

namespace Handover

open Time (Instant)

/-! ## Scripts -/

/-- What was listed last, after a reply. -/
def Call.listedAfter : (request : Call) → request.Reply → List (Address × Liveness) →
    List (Address × Liveness)
  | .liveness, .ok rows, _ => rows
  | _, _, listed => listed

/-- What the clock showed last, after an effect. -/
def Effect.clockAfter : (deed : Effect) → deed.Result → Instant → Instant
  | .readClock, moment, _ => moment
  | _, _, now => now

/-- If the call is a swap, it turns a record that was listed and due dead. -/
def Call.SwapsDue (timeoutMillis : Nat) (now : Instant) (listed : List (Address × Liveness)) :
    Call → Prop
  | .swap node expected record => ∃ seen, (node, seen) ∈ listed ∧
      Detection.isDue timeoutMillis now seen = true ∧ expected = seen.version ∧ record = seen.markedDead
  | _ => True

/-- Wherever the script goes on, its swaps turn records dead that were listed and due. -/
def Script.Sweeps {α : Type} (timeoutMillis : Nat) : Instant → List (Address × Liveness) → Script α → Prop
  | _, _, .done _ => True
  | now, listed, .call request next => request.SwapsDue timeoutMillis now listed ∧
      ∀ reply, (next reply).Sweeps timeoutMillis now (request.listedAfter reply listed)
  | now, listed, .effect deed next =>
      ∀ result, (next result).Sweeps timeoutMillis (deed.clockAfter result now) listed

namespace Script

variable {α β : Type} {timeoutMillis : Nat} {now : Instant} {listed : List (Address × Liveness)}

namespace Sweeps

theorem bind {script : Script α} {later : α → Script β} (first : script.Sweeps timeoutMillis now listed)
    (second : ∀ value now listed, (later value).Sweeps timeoutMillis now listed) :
    (script >>= later).Sweeps timeoutMillis now listed := by
  induction script generalizing now listed with
  | done value => exact second value now listed
  | call request next inductionHypothesis =>
      exact ⟨first.1, fun reply => inductionHypothesis reply (first.2 reply)⟩
  | effect deed next inductionHypothesis => exact fun result => inductionHypothesis result (first result)

/-- An attempt that ends after its first part but for what it makes of the result. -/
theorem attempt {script : Attempt α} {later : α → β} (first : script.run.Sweeps timeoutMillis now listed) :
    (script >>= fun value => (pure (later value) : Attempt β)).run.Sweeps timeoutMillis now listed := by
  change (script.run >>= ExceptT.bindCont fun value => pure (later value)).Sweeps timeoutMillis now listed
  refine first.bind fun result _ _ => ?_
  cases result <;> exact trivial

end Sweeps

end Script

-- To compare scripts that submit a report, Lean would trim a text that it does not know.
attribute [local irreducible] Intake.accepts

section Checks

variable {timeoutMillis : Nat} {now : Instant} {listed : List (Address × Liveness)}

/-- A report that is submitted in between changes nothing for the swaps. -/
theorem submit_sweeps {α : Type} {text : String} {later : Bool → Attempt α}
    (rest : ∀ accepted, (later accepted).run.Sweeps timeoutMillis now listed) :
    (Attempt.of (Intake.submit text) >>= later).run.Sweeps timeoutMillis now listed := by
  unfold Intake.submit
  split
  · intro _ taken
    cases taken with
    | true => exact rest true
    | false => exact fun _ => rest false
  · exact rest false

theorem sweep_sweeps {rest : List (Address × Liveness)} (among : ∀ entry ∈ rest, entry ∈ listed) :
    (Detection.sweep timeoutMillis now rest).run.Sweeps timeoutMillis now listed := by
  induction rest with
  | nil => exact trivial
  | cons entry rest inductionHypothesis =>
      have others := inductionHypothesis fun other member => among other (List.mem_cons_of_mem _ member)
      unfold Detection.sweep
      split
      case isFalse => exact others
      case isTrue due =>
        refine ⟨⟨entry.2, among entry List.mem_cons_self, due, rfl, rfl⟩, fun reply => ?_⟩
        cases reply with
        | error fault => exact trivial
        | ok applied =>
            cases applied with
            | false => exact others
            | true => exact submit_sweeps fun accepted => others.attempt

theorem checkScript_sweeps : (Coordinator.checkScript timeoutMillis now).Sweeps timeoutMillis now listed := by
  have passes : (Detection.pass timeoutMillis now).run.Sweeps timeoutMillis now listed := by
    refine ⟨trivial, fun reply => ?_⟩
    cases reply with
    | error fault => exact trivial
    | ok rows => exact sweep_sweeps fun _ member => member
  exact passes.bind fun _ _ _ => trivial

end Checks

namespace Coordinator

/-! ## Runs -/

section History

variable (start : State) (events : List Event) (id : TaskId)

/-- What the task listed in its present script: the table as it was when the call was answered. -/
def Listed (listed : List (Address × Liveness)) : Prop :=
  ∃ before shares between middle, events = before ++ .answer id shares none :: between ∧
    start.run before = some middle ∧ middle.world.members.rows = listed ∧
    (middle.task? id).bind Task.call? = some (.liveness, true) ∧ .proceed id ∉ between

/-- The moment as of which a duty checks: the one it was given, or the one at which the task
read the clock in its present script. -/
def AsOf (now : Instant) : Duty → Prop
  | .check _ given => now = given
  | .monitor _ => ∃ before draw between middle, events = before ++ .effect id now draw :: between ∧
      start.run before = some middle ∧ middle.deed? (.effect id now draw) = some (id, .readClock) ∧
      .proceed id ∉ between
  | _ => False

/-- How far the script of a check has come. -/
inductive Checking (timeoutMillis : Nat) (duty : Duty) : Script Outcome → Prop
  | begun (monitors : duty = .monitor timeoutMillis) :
      Checking timeoutMillis duty (monitorScript timeoutMillis)
  | sweeping {now : Instant} {listed : List (Address × Liveness)} {script : Script Outcome}
      (asOf : AsOf start events id now duty) (known : listed = [] ∨ Listed start events id listed)
      (sweeps : script.Sweeps timeoutMillis now listed) : Checking timeoutMillis duty script

end History

section History

variable {start state next : State} {events : List Event} {event : Event} {id : TaskId}

theorem Listed.later {listed : List (Address × Liveness)} (known : Listed start events id listed)
    (same : event ≠ .proceed id) : Listed start (events ++ [event]) id listed := by
  obtain ⟨before, shares, between, middle, rfl, run, rows, calls, still⟩ := known
  exact ⟨before, shares, between ++ [event], middle, by simp, run, rows, calls, by simp [still, same.symm]⟩

theorem AsOf.later {now : Instant} {duty : Duty} (asOf : AsOf start events id now duty)
    (same : event ≠ .proceed id) : AsOf start (events ++ [event]) id now duty := by
  cases duty
  case check => exact asOf
  case monitor =>
    obtain ⟨before, draw, between, middle, rfl, run, reads, still⟩ := asOf
    exact ⟨before, draw, between ++ [event], middle, by simp, run, reads, by simp [still, same.symm]⟩
  all_goals exact asOf

theorem Checking.later {timeoutMillis : Nat} {duty : Duty} {script : Script Outcome}
    (checking : Checking start events id timeoutMillis duty script) (same : event ≠ .proceed id) :
    Checking start (events ++ [event]) id timeoutMillis duty script := by
  cases checking with
  | begun monitors => exact .begun monitors
  | sweeping asOf known sweeps =>
      exact .sweeping (asOf.later same) (known.imp_right fun listed => listed.later same) sweeps

/-- The script of a check as it begins. -/
theorem Checking.script {settings : Settings} {timeoutMillis : Nat} {duty : Duty}
    (checks : duty.timeout? = some timeoutMillis) :
    Checking start events id timeoutMillis duty (duty.script settings) := by
  cases duty <;> cases checks
  · exact .sweeping rfl (.inl rfl) checkScript_sweeps
  · exact .begun rfl

theorem Checking.of_call {timeoutMillis : Nat} {duty : Duty} {request : Call}
    {rest : request.Reply → Script Outcome}
    (checking : Checking start events id timeoutMillis duty (.call request rest)) :
    ∃ now listed, AsOf start events id now duty ∧ (listed = [] ∨ Listed start events id listed) ∧
      (Script.call request rest).Sweeps timeoutMillis now listed := by
  generalize same : Script.call request rest = script at checking
  cases checking with
  | begun monitors => cases same
  | sweeping asOf known sweeps => exact ⟨_, _, asOf, known, sweeps⟩

theorem Checking.acted {timeoutMillis : Nat} {duty : Duty} {deed : Effect} {wall : Instant} {draw : Nat}
    {result : deed.Result} {after : State} {rest : deed.Result → Script Outcome}
    (checking : Checking start events id timeoutMillis duty (.effect deed rest))
    (run : start.run events = some state)
    (happened : state.afterEffect wall draw deed = some (result, after))
    (reads : state.deed? (.effect id wall draw) = some (id, deed)) (may : duty.May deed) :
    Checking start (events ++ [.effect id wall draw]) id timeoutMillis duty (rest result) := by
  have readsNow : deed = .readClock → (∃ timeoutMillis, duty = .monitor timeoutMillis) →
      AsOf start (events ++ [.effect id wall draw]) id wall duty := by
    rintro rfl ⟨_, rfl⟩
    exact ⟨events, draw, [], state, rfl, run, reads, List.not_mem_nil⟩
  generalize same : Script.effect deed rest = script at checking
  cases checking with
  | begun monitors =>
      cases same
      cases happened
      exact .sweeping (readsNow rfl ⟨_, monitors⟩) (.inl rfl) checkScript_sweeps
  | @sweeping now listed _ asOf known sweeps =>
      subst same
      have still : listed = [] ∨ Listed start (events ++ [.effect id wall draw]) id listed :=
        known.imp_right fun listed => listed.later nofun
      have later := sweeps result
      cases deed
      case readClock =>
        cases happened
        refine .sweeping (readsNow rfl ?_) still later
        cases duty
        case check => exact absurd rfl (may _ _)
        case monitor => exact ⟨_, rfl⟩
        all_goals exact asOf.elim
      all_goals exact .sweeping (asOf.later nofun) still later

theorem Task.Goes.checking {task later : Task} {act : Act} {shared : State} {allowed : Act → Prop}
    {timeoutMillis : Nat} (goes : task.Goes state.settings act later)
    (takes : state.Takes id event act shared) (run : start.run events = some state)
    (found : state.task? id = some task) (sound : task.Sound state.settings allowed)
    (checks : later.duty.timeout? = some timeoutMillis)
    (before : ∀ script started, task.work = some ⟨script, started⟩ →
      task.duty.timeout? = some timeoutMillis →
        Checking start events id timeoutMillis task.duty script) :
    ∀ script started, later.work = some ⟨script, started⟩ →
      Checking start (events ++ [event]) id timeoutMillis later.duty script := by
  intro script started busy
  cases goes with
  | started work =>
      cases busy
      cases takes
      exact (before _ _ work checks).later nofun
  | @replied request rest work reply =>
      cases busy
      cases takes with
      | reply _ shares refused =>
          obtain ⟨now, listed, asOf, known, sweeps⟩ := (before _ _ work checks).of_call
          refine .sweeping (asOf.later nofun) ?_ (sweeps.2 _)
          have still : listed = [] ∨ Listed start (events ++ [.answer id shares refused]) id listed :=
            known.imp_right fun listed => listed.later nofun
          cases request
          case liveness =>
            cases refused with
            | some detail => exact still
            | none =>
                refine .inr ⟨events, shares, [], state, rfl, run, rfl, ?_, List.not_mem_nil⟩
                rw [found, Option.bind_some, Task.call?, work]
          all_goals exact still
  | @acted deed rest _ work result =>
      cases busy
      have next : task.effect? = some deed := by rw [Task.effect?, work]
      have may := sound.may next
      have reads : state.deed? event = some (id, deed) := takes.deed? found (.acted work result)
      cases takes with
      | deed wall draw happened =>
          exact (before _ _ work checks).acted run happened reads may
  | errandBegun running idle errands begins =>
      cases busy
      have duty : task.duty = _ := Task.duty_of_errands errands
      change Checking start (events ++ [event]) id timeoutMillis task.duty script
      change task.duty.timeout? = some timeoutMillis at checks
      rw [duty] at checks ⊢
      rw [begins.script]
      exact .script checks
  | @roleBegun role _ _ running idle errands begins =>
      cases busy
      have duty : ({ task with role := role }.begin script).duty = role.duty := Task.duty_of_none errands
      rw [duty] at checks ⊢
      rw [begins.script]
      exact .script checks
  | errandRound running work errands unfinished =>
      cases (congrArg Duty.timeout? (Task.duty_of_errands errands)).symm.trans checks
  | workerRound running work errands role unfinished =>
      have duty : task.duty = _ := Task.duty_of_none errands
      rw [role] at duty
      cases (congrArg Duty.timeout? duty).symm.trans checks
  | leadSkipped => cases busy
  | drained workers running idle => cases idle.symm.trans busy
  | awaited running idle => cases idle.symm.trans busy
  | awaitedAll => cases busy
  | looked running idle => cases idle.symm.trans busy
  | left running idle => cases idle.symm.trans busy
  | acquired running idle => cases idle.symm.trans busy
  | passed _ running idle => cases idle.symm.trans busy
  | _ => cases busy

end History

namespace State

variable {settings : Settings} {world : World} {events : List Event} {state : State}
  {id : TaskId} {task : Task}

/-- What a check has under way goes on as its script has come. -/
theorem run_checking (run : (initial settings world).run events = some state) :
    state.Sound (fun _ => True) ∧ ∀ id task script started timeoutMillis, state.task? id = some task →
      task.work = some ⟨script, started⟩ → task.duty.timeout? = some timeoutMillis →
        Checking (initial settings world) events id timeoutMillis task.duty script := by
  refine run_induction (motive := fun events state => state.Sound (fun _ => True) ∧
    ∀ id task script started timeoutMillis, state.task? id = some task →
      task.work = some ⟨script, started⟩ → task.duty.timeout? = some timeoutMillis →
        Checking (initial settings world) events id timeoutMillis task.duty script)
    ⟨⟨initial_grouped _ _, nofun⟩, nofun⟩ ?_ (along_of_forall fun _ _ => trivial) run
  rintro events event middle next - run - stepped ⟨sound, checking⟩
  have happens := State.happens stepped
  refine ⟨happens.sound (fun _ _ _ _ _ _ _ _ => trivial) sound, ?_⟩
  intro id later script started timeoutMillis found busy checks
  rcases happens.of_task? found with ⟨task, act, shared, _, before, goes, takes⟩ | idle |
    ⟨task, before, away, work, errands, role⟩
  · exact goes.checking takes run before (sound.tasks before) checks
      (fun script started work => checking id task script started _ before work) script started busy
  · cases idle.symm.trans busy
  · rw [Task.duty_of_same errands role] at checks ⊢
    refine (checking id task script started _ before (work ▸ busy) checks).later ?_
    rintro rfl
    exact away rfl

/-- A swap goes back to what the task listed, and is of a record that was listed and due. -/
theorem run_swaps (run : (initial settings world).run events = some state)
    (found : state.task? id = some task) {node : Address} {expected : Nat} {record : Liveness}
    {started : Bool} (swaps : task.call? = some (.swap node expected record, started)) :
    ∃ timeoutMillis now listed seen, task.duty.timeout? = some timeoutMillis ∧
      AsOf (initial settings world) events id now task.duty ∧
      Listed (initial settings world) events id listed ∧ (node, seen) ∈ listed ∧
      Detection.isDue timeoutMillis now seen = true ∧ expected = seen.version ∧
      record = seen.markedDead := by
  obtain ⟨sound, checking⟩ := run_checking run
  obtain ⟨timeoutMillis, checks⟩ := Option.isSome_iff_exists.1 ((sound.tasks found).mayCall swaps)
  obtain ⟨rest, work⟩ := Task.work_of_call? swaps
  obtain ⟨now, listed, asOf, known, sweeps⟩ := (checking _ _ _ _ _ found work checks).of_call
  obtain ⟨seen, member, due, sameVersion, sameRecord⟩ := sweeps.1
  rcases known with rfl | known
  · cases member
  · exact ⟨timeoutMillis, now, listed, seen, checks, asOf, known, member, due, sameVersion, sameRecord⟩

end State

end Coordinator

end Handover
