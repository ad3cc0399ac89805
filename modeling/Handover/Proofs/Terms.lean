import Handover.Proofs.Duties

/-!
Contract: what a script does and ends with, whoever answers and whatever happens meanwhile.

Owns: the terms of a script, that is, the effects it may have and the replies it reckons
with; and the rules by which a law on these terms is put together from laws about parts.

Playing a script fixes what comes from outside. A script that is under way in a run has
other tasks and other actors between its calls, so laws about it go by its tree alone.
-/

set_option autoImplicit false

namespace Handover

structure Terms where
  /-- The effects that the script may have. -/
  deeds : Effect → Prop
  /-- The calls that the script may make. -/
  calls : Call → Prop
  /-- The replies that are reckoned with. -/
  replies : (request : Call) → request.Reply → Prop

/-- Any effect, any call, any reply. -/
def Terms.any : Terms := ⟨fun _ => True, fun _ => True, fun _ _ => True⟩

/-- The script has only effects and calls of the terms, and ends as `goal` says. -/
def Script.Keeps {α : Type} (terms : Terms) (goal : α → Prop) : Script α → Prop
  | .done value => goal value
  | .call request next =>
      terms.calls request ∧ ∀ reply, terms.replies request reply → (next reply).Keeps terms goal
  | .effect deed next => terms.deeds deed ∧ ∀ result, (next result).Keeps terms goal

namespace Script.Keeps

variable {terms : Terms} {α β : Type}

theorem mono {script : Script α} {goal weaker : α → Prop} (keeps : script.Keeps terms goal)
    (implies : ∀ value, goal value → weaker value) : script.Keeps terms weaker := by
  induction script with
  | done value => exact implies value keeps
  | call request next inductionHypothesis =>
      exact ⟨keeps.1, fun reply replied => inductionHypothesis reply (keeps.2 reply replied)⟩
  | effect deed next inductionHypothesis =>
      exact ⟨keeps.1, fun result => inductionHypothesis result (keeps.2 result)⟩

/-- Fewer replies are reckoned with, and more effects and calls are allowed. -/
theorem widen {script : Script α} {goal : α → Prop} {other : Terms} (keeps : script.Keeps terms goal)
    (deeds : ∀ deed, terms.deeds deed → other.deeds deed)
    (calls : ∀ request, terms.calls request → other.calls request)
    (replies : ∀ request reply, other.replies request reply → terms.replies request reply) :
    script.Keeps other goal := by
  induction script with
  | done value => exact keeps
  | call request next inductionHypothesis =>
      exact ⟨calls _ keeps.1, fun reply replied =>
        inductionHypothesis reply (keeps.2 reply (replies _ _ replied))⟩
  | effect deed next inductionHypothesis =>
      exact ⟨deeds deed keeps.1, fun result => inductionHypothesis result (keeps.2 result)⟩

theorem bind {script : Script α} {later : α → Script β} {middle : α → Prop} {goal : β → Prop}
    (first : script.Keeps terms middle)
    (second : ∀ value, middle value → (later value).Keeps terms goal) :
    (script >>= later).Keeps terms goal := by
  induction script with
  | done value => exact second value first
  | call request next inductionHypothesis =>
      exact ⟨first.1, fun reply replied => inductionHypothesis reply (first.2 reply replied)⟩
  | effect deed next inductionHypothesis =>
      exact ⟨first.1, fun result => inductionHypothesis result (first.2 result)⟩

theorem ask {request : Call} (may : terms.calls request) :
    (Script.ask request).Keeps terms fun _ => True := ⟨may, fun _ _ => trivial⟩

theorem act {deed : Effect} (may : terms.deeds deed) :
    (Script.act deed).Keeps terms fun _ => True := ⟨may, fun _ => trivial⟩

theorem done {value : α} {goal : α → Prop} (reached : goal value) :
    (Script.done value).Keeps terms goal := reached

/-- An attempt that does not break off. -/
theorem ok {value : α} {goal : Except Fault α → Prop} (reached : goal (.ok value)) :
    (pure value : Attempt α).run.Keeps terms goal := reached

/-- An attempt goes on where its first part did not break off. -/
theorem attempt {script : Attempt α} {later : α → Attempt β} {middle : Except Fault α → Prop}
    {goal : Except Fault β → Prop} (first : script.run.Keeps terms middle)
    (broken : ∀ fault, middle (.error fault) → goal (.error fault))
    (second : ∀ value, middle (.ok value) → (later value).run.Keeps terms goal) :
    (script >>= later).run.Keeps terms goal := by
  change (script.run >>= ExceptT.bindCont later).Keeps terms goal
  apply bind first
  intro result reached
  cases result with
  | ok value => exact second value reached
  | error fault => exact broken fault reached

theorem attemptAsk {request : Call} {later : request.Result → Attempt β}
    {goal : Except Fault β → Prop} (may : terms.calls request) (broken : ∀ fault, goal (.error fault))
    (second : ∀ result, terms.replies request (.ok result) → (later result).run.Keeps terms goal) :
    (Attempt.ask request >>= later).run.Keeps terms goal := by
  have asked : (Attempt.ask request).run.Keeps terms fun reply => terms.replies request reply :=
    ⟨may, fun _ replied => replied⟩
  exact attempt asked (fun fault _ => broken fault) second

theorem attemptOf {script : Script α} {later : α → Attempt β} {middle : α → Prop}
    {goal : Except Fault β → Prop} (first : script.Keeps terms middle)
    (second : ∀ value, middle value → (later value).run.Keeps terms goal) :
    (Attempt.of script >>= later).run.Keeps terms goal := by
  have whole : (Attempt.of script).run.Keeps terms fun result =>
      ∃ value, result = .ok value ∧ middle value := by
    change (script >>= fun value => Script.done (Except.ok value)).Keeps terms _
    exact bind first fun value reached => ⟨value, rfl, reached⟩
  apply attempt whole
  · rintro fault ⟨_, impossible, _⟩
    cases impossible
  · rintro value ⟨_, same, reached⟩
    cases same
    exact second value reached

end Script.Keeps

/-! ## Scripts under way -/

namespace Coordinator

open Takeover (Progress)

/-- A law that holds of the script a duty begins with, and of every further round, holds of
what is under way. -/
theorem Duty.Underway.keeps {settings : Settings} {allowed : Act → Prop} {duty : Duty}
    {script : Script Outcome} {terms : Terms} {goal : Outcome → Prop}
    (underway : duty.Underway settings allowed script)
    (replies : ∀ request reply, allowed (.reply request reply) → terms.replies request reply)
    (begun : (duty.script settings).Keeps terms goal)
    (round : ∀ node progress, duty.node? = some node → (∀ report, progress ≠ .finished report) →
      goal (.progress progress) → (roundOf settings node progress).Keeps terms goal) :
    script.Keeps terms goal := by
  induction underway with
  | begun => exact begun
  | replied reply may _ inductionHypothesis => exact inductionHypothesis.2 reply (replies _ _ may)
  | acted result _ _ inductionHypothesis => exact inductionHypothesis.2 result
  | round takesOver unfinished _ inductionHypothesis =>
      exact round _ _ takesOver unfinished inductionHypothesis

/-- A law that holds of the scripts with which takeovers of a node begin, and of every further
round, is kept by every task while only allowed acts happen, whatever its task was at before. -/
theorem Task.keeps_lasts {settings : Settings} {allowed : Act → Prop} {node : Address} {terms : Terms}
    {goal : Outcome → Prop}
    (replies : ∀ request reply, allowed (.reply request reply) → terms.replies request reply)
    (begun : ∀ duty : Duty, duty.node? = some node → (duty.script settings).Keeps terms goal)
    (round : ∀ progress, (∀ report, progress ≠ .finished report) → goal (.progress progress) →
      (roundOf settings node progress).Keeps terms goal) :
    Task.Lasts settings allowed fun task => ∀ script started, task.work = some ⟨script, started⟩ →
      task.duty.node? = some node → script.Keeps terms goal where
  outside := nofun
  raised := nofun
  told := by
    intro task role told keeps script started work takesOver
    have duty : Task.duty { task with role := role } = task.duty := Task.duty_of_same rfl (.inr told)
    exact keeps script started work (duty ▸ takesOver)
  goes := by
    intro task act later may goes keeps script started work takesOver
    cases goes with
    | started busy =>
        cases work
        exact keeps _ _ busy takesOver
    | replied busy reply =>
        cases work
        exact (keeps _ _ busy takesOver).2 reply (replies _ _ may)
    | acted busy result =>
        cases work
        exact (keeps _ _ busy takesOver).2 result
    | errandBegun running idle errands begins =>
        cases work
        have duty : task.duty = _ := Task.duty_of_errands errands
        rw [begins.script, ← duty]
        exact begun _ takesOver
    | @roleBegun role _ _ running idle errands begins =>
        cases work
        have duty : ({ task with role := role }.begin script).duty = role.duty := Task.duty_of_none errands
        rw [begins.script, ← duty]
        exact begun _ takesOver
    | @errandRound other progress _ _ running busy errands unfinished =>
        cases work
        have duty : task.duty = .takeOver other := Task.duty_of_errands errands
        obtain rfl : other = node := Option.some.inj ((congrArg Duty.node? duty).symm.trans takesOver)
        exact round progress unfinished (keeps _ _ busy takesOver)
    | @workerRound activation holds other progress _ running busy errands role unfinished =>
        cases work
        have duty : task.duty = .work other := by rw [Task.duty_of_none errands, role]; rfl
        obtain rfl : other = node := Option.some.inj ((congrArg Duty.node? duty).symm.trans takesOver)
        exact round progress unfinished (keeps _ _ busy takesOver)
    | drained workers running free => cases free.symm.trans work
    | awaited running free => cases free.symm.trans work
    | looked running free => cases free.symm.trans work
    | left running free => cases free.symm.trans work
    | acquired running free => cases free.symm.trans work
    | passed _ running free => cases free.symm.trans work
    | _ => cases work
  cut := nofun

end Coordinator

end Handover
