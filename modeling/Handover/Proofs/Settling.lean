import Handover.Proofs.Effects
import Handover.Proofs.Holder

/-!
Contract: how a takeover settles the budget of retries, whatever else happens meanwhile.

Owns: the phases of a takeover, before and after it settles the budget; and the law that a
takeover of a node that never reads as alive settles it once, clearing it where no work is
left and using it up a little where its report tells that work is left.
-/

set_option autoImplicit false

namespace Handover

open Coordinator (Act Outcome)
open Takeover (Progress Turns)

/-! ## Scripts -/

/-- Clears the budget of a node or uses it up. -/
def Effect.settles : Effect → Bool
  | .forgetRetries _ => true
  | .scheduleRetry _ => true
  | _ => false

/-- The budgets are left alone, and the node does not read as alive. -/
def Terms.unsettling (node : Address) : Terms where
  deeds deed := deed.settles = false
  calls _ := True
  replies request reply := Act.reply request reply ≠ .reply (.isAlive node) (.ok true)

/-- The takeover goes on to another round, and neither stage found the node alive. -/
def Takeover.Progress.Unskipped : Progress → Prop
  | .opening => True
  | .jobPage _ jobs => jobs.skippedAlive = false
  | .opened jobs => jobs.skippedAlive = false
  | .cachePage jobs _ cache => jobs.skippedAlive = false ∧ cache.skippedAlive = false
  | .closing jobs cache => jobs.skippedAlive = false ∧ cache.skippedAlive = false
  | .finished _ => False

namespace Script

/-- The script leaves the budgets alone, and ends with a report of work left or not. -/
def Settled (node : Address) (left : Bool) (script : Script Outcome) : Prop :=
  script.Keeps (.unsettling node) fun outcome =>
    ∃ report, outcome = .progress (.finished report) ∧ report.leftover = left

/-- The script has yet to settle the budget, unless another round does. -/
def Unsettled (node : Address) : Script Outcome → Prop
  | .done outcome => ∃ progress, outcome = .progress progress ∧ progress.Unskipped
  | .call request next =>
      ∀ reply, (Terms.unsettling node).replies request reply → (next reply).Unsettled node
  | .effect deed next => ∀ result, match deed with
      | .forgetRetries _ => (next result).Settled node false
      | .scheduleRetry _ => (next result).Settled node true
      | _ => (next result).Unsettled node

variable {node : Address}

theorem Unsettled.effect {deed : Effect} {next : deed.Result → Script Outcome}
    (leaves : deed.settles = false) :
    (Script.effect deed next).Unsettled node ↔ ∀ result, (next result).Unsettled node := by
  cases deed <;> first | rfl | cases leaves

theorem Keeps.unsettled {α : Type} {script : Script α} {later : α → Script Outcome} {goal : α → Prop}
    (first : script.Keeps (.unsettling node) goal)
    (second : ∀ value, goal value → (later value).Unsettled node) :
    (script >>= later).Unsettled node := by
  induction script with
  | done value => exact second value first
  | call request next inductionHypothesis =>
      exact fun reply replied => inductionHypothesis reply (first.2 reply replied)
  | effect deed next inductionHypothesis =>
      exact (Unsettled.effect first.1).2 fun result => inductionHypothesis result (first.2 result)

/-- Before a takeover settles the budget, and after it, with work left or not. -/
def InPhase (node : Address) (script : Script Outcome) : Option Bool → Prop
  | none => script.Unsettled node
  | some left => script.Settled node left

end Script

/-! ## Rounds -/

/-- As long as a node does not read as alive, no stage is skipped. -/
theorem Takeover.Turns.unskipped {node : Address} {pageSize : Nat} {progress next : Progress}
    (turns : Turns (.unsettling node) pageSize node progress next)
    (goesOn : ∀ jobs cache, progress ≠ .closing jobs cache) (unskipped : progress.Unskipped) :
    next.Unskipped := by
  cases turns with
  | jobsAlive told => exact absurd rfl told
  | cacheAlive told => exact absurd rfl told
  | finished => exact absurd rfl (goesOn _ _)
  | jobsDead => rfl
  | unopened => rfl
  | jobsBroken => rfl
  | jobsPaged => exact unskipped
  | jobsClear => exact unskipped
  | jobsLeft => exact unskipped
  | cacheDead => exact ⟨unskipped, rfl⟩
  | unlisted => exact ⟨unskipped, rfl⟩
  | cacheBroken => exact ⟨unskipped.1, rfl⟩
  | cachePaged => exact unskipped
  | cacheClear => exact unskipped
  | cacheLeft => exact unskipped

/-- Where no stage was skipped, the budget is settled in one go. -/
theorem Takeover.settle_unskipped {node : Address} {jobs cache : Tally}
    (jobsRead : jobs.skippedAlive = false) (cacheRead : cache.skippedAlive = false) :
    settle node jobs cache = if jobs.leftover || cache.leftover then Script.act (.scheduleRetry node)
      else Script.act (.forgetRetries node) := by
  unfold settle
  cases jobs.leftover || cache.leftover with
  | true => simp [jobsRead, cacheRead]
  | false =>
      simp only [jobsRead, cacheRead]
      rfl

namespace Coordinator

/-- A round of a takeover that goes on has yet to settle the budget; the last round does. -/
theorem roundOf_unsettled {settings : Settings} {node : Address} {progress : Progress}
    (unskipped : progress.Unskipped) : (roundOf settings node progress).Unsettled node := by
  have calls : ∀ request, Takeover.Asks node request → (Terms.unsettling node).calls request :=
    fun _ _ => trivial
  have goesOn (notClosing : ∀ jobs cache, progress ≠ .closing jobs cache) :
      (roundOf settings node progress).Unsettled node := by
    have unfinished : ∀ report, progress ≠ .finished report := by
      rintro report rfl
      exact unskipped
    refine (Takeover.round_keeps (fun request asks => calls request asks.asks) rfl
      (fun jobs cache same => absurd same (notClosing jobs cache)) unfinished).unsettled fun next turns => ?_
    exact ⟨next, rfl, turns.unskipped notClosing unskipped⟩
  cases progress with
  | closing jobs cache =>
      have reports : ∀ left, (jobs.leftover || cache.leftover) = left →
          (Takeover.broadcast settings.localAddress >>= fun reached => Script.done (Progress.finished
            { node := node
              skippedAlive := jobs.skippedAlive && cache.skippedAlive
              jobsReassigned := jobs.reassigned
              cacheReassigned := cache.reassigned
              cacheFailed := cache.failed
              leftover := jobs.leftover || cache.leftover
              notified := reached.1
              notifyFailures := reached.2 })).Keeps (.unsettling node)
            fun progress => ∃ report, progress = .finished report ∧ report.leftover = left :=
        fun left told => (Takeover.broadcast_keeps trivial trivial (fun _ => trivial) settings.localAddress).bind
          fun _ _ => ⟨_, rfl, told⟩
      have ends : ∀ {left progress}, (∃ report, progress = .finished report ∧ report.leftover = left) →
          (Script.done (Outcome.progress progress)).Settled node left := by
        rintro left progress ⟨report, rfl, told⟩
        exact ⟨report, rfl, told⟩
      simp only [roundOf, Takeover.round, Takeover.close, Takeover.settle_unskipped unskipped.1 unskipped.2]
      split
      case isTrue left => exact fun _ => (reports true left).bind fun _ => ends
      case isFalse clear => exact fun _ => (reports false (by simpa using clear)).bind fun _ => ends
  | _ => exact goesOn nofun

theorem Duty.script_unsettled {settings : Settings} {duty : Duty} {node : Address}
    (takesOver : duty.node? = some node) : (duty.script settings).Unsettled node := by
  cases duty <;> cases takesOver
  · exact roundOf_unsettled trivial
  · exact fun _ => roundOf_unsettled trivial

/-- A takeover that goes on to another round stays in its phase. -/
theorem roundOf_inPhase {settings : Settings} {node : Address} {progress : Progress}
    {phase : Option Bool} (unfinished : ∀ report, progress ≠ .finished report)
    (inPhase : (Script.done (.progress progress)).InPhase node phase) :
    (roundOf settings node progress).InPhase node phase := by
  cases phase with
  | none =>
      obtain ⟨_, same, unskipped⟩ := inPhase
      cases same
      exact roundOf_unsettled unskipped
  | some left =>
      obtain ⟨report, same, _⟩ := inPhase
      exact absurd (Outcome.progress.inj same) (unfinished report)

/-! ## Tasks -/

/-- The node does not read as alive with the act. -/
def Act.Spares (node : Address) (act : Act) : Prop := act ≠ .reply (.isAlive node) (.ok true)

/-- The phase of a takeover after an act of its task. -/
def Act.phase (before : Option Bool) : Act → Option Bool
  | .deed (.forgetRetries _) _ => some false
  | .deed (.scheduleRetry _) _ => some true
  | _ => before

theorem Act.phase_of_leaves {deed : Effect} {result : deed.Result} {before : Option Bool}
    (leaves : deed.settles = false) : (Act.deed deed result).phase before = before := by
  cases deed <;> first | rfl | cases leaves

namespace Task

/-- The task takes over the work of the node, and is before or after settling the budget. -/
def Settling (node : Address) (phase : Option Bool) (task : Task) : Prop :=
  task.duty.node? = some node ∧
    ∃ script started, task.work = some ⟨script, started⟩ ∧ script.InPhase node phase

theorem Settling.at? {node : Address} {phase : Option Bool} {task : Task}
    (settling : task.Settling node phase) : task.at? = some node := by
  obtain ⟨takesOver, _, _, work, _⟩ := settling
  rw [Task.at?_of_work work, takesOver]

end Task

/-- How the script of a duty moves with an act of its task. -/
inductive Duty.Moves (settings : Settings) (duty : Duty) : Script Outcome → Act → Script Outcome → Prop
  | started (script : Script Outcome) (request : Call) : Moves settings duty script (.call request) script
  | replied {request : Call} (next : request.Reply → Script Outcome) (reply : request.Reply) :
      Moves settings duty (.call request next) (.reply request reply) (next reply)
  | acted {deed : Effect} (next : deed.Result → Script Outcome) (result : deed.Result) :
      Moves settings duty (.effect deed next) (.deed deed result) (next result)
  | round {node : Address} {progress : Progress} (takesOver : duty.node? = some node)
      (unfinished : ∀ report, progress ≠ .finished report) :
      Moves settings duty (.done (.progress progress)) .quiet (roundOf settings node progress)

namespace Task

variable {settings : Settings} {node : Address} {phase : Option Bool} {task later : Task} {act : Act}

/-- A script that is under way was begun just now, or moved. -/
theorem Goes.moves (goes : task.Goes settings act later) {after : Script Outcome} {started : Bool}
    (busy : later.work = some ⟨after, started⟩) :
    (task.work = none ∧ after = later.duty.script settings) ∨
      (later.duty = task.duty ∧ ∃ before begun, task.work = some ⟨before, begun⟩ ∧
        task.duty.Moves settings before act after) := by
  cases goes with
  | @started request next work =>
      cases busy
      exact .inr ⟨rfl, _, _, work, .started _ request⟩
  | replied work reply =>
      cases busy
      exact .inr ⟨rfl, _, _, work, .replied _ reply⟩
  | acted work result =>
      cases busy
      exact .inr ⟨rfl, _, _, work, .acted _ result⟩
  | errandRound _ work errands unfinished =>
      cases busy
      exact .inr ⟨rfl, _, _, work,
        .round (congrArg Duty.node? (Task.duty_of_errands errands)) unfinished⟩
  | workerRound _ work errands role unfinished =>
      cases busy
      have duty : task.duty = .work _ := (Task.duty_of_none errands).trans (congrArg Role.duty role)
      exact .inr ⟨rfl, _, _, work, .round (congrArg Duty.node? duty) unfinished⟩
  | errandBegun _ idle errands begins =>
      cases busy
      exact .inl ⟨idle, begins.script.trans
        (congrArg (Duty.script settings) (Task.duty_of_errands errands).symm)⟩
  | @roleBegun role _ _ _ idle errands begins =>
      cases busy
      have duty : Task.duty { task with role := role } = role.duty := Task.duty_of_none errands
      exact .inl ⟨idle, begins.script.trans (congrArg (Duty.script settings) duty.symm)⟩
  | drained _ _ idle => cases idle.symm.trans busy
  | awaited _ idle => cases idle.symm.trans busy
  | looked _ idle => cases idle.symm.trans busy
  | left _ idle => cases idle.symm.trans busy
  | acquired _ idle => cases idle.symm.trans busy
  | passed _ _ idle => cases idle.symm.trans busy
  | _ => cases busy

/-- A takeover goes from phase to phase as its acts say. -/
theorem Goes.settling (goes : task.Goes settings act later) (spares : act.Spares node)
    (settling : task.Settling node phase) (still : later.at? = some node) :
    later.Settling node (act.phase phase) := by
  obtain ⟨takesOver, before, _, work, inPhase⟩ := settling
  obtain ⟨stillTakesOver, after, _, busy⟩ := work_of_at? still
  refine ⟨stillTakesOver, after, _, busy, ?_⟩
  rcases goes.moves busy with ⟨idle, _⟩ | ⟨_, script, _, known, moves⟩
  · cases idle.symm.trans work
  · cases known.symm.trans work
    cases moves with
    | started => exact inPhase
    | replied next reply =>
        cases phase with
        | none => exact inPhase reply spares
        | some left => exact inPhase.2 reply spares
    | @acted deed next result =>
        cases phase with
        | none => cases deed <;> exact inPhase result
        | some left =>
            rw [Act.phase_of_leaves inPhase.1]
            exact inPhase.2 result
    | round own unfinished =>
        cases own.symm.trans takesOver
        exact roundOf_inPhase unfinished inPhase

/-- A takeover that begins has yet to settle the budget. -/
theorem Goes.unsettled (goes : task.Goes settings act later) (before : task.at? ≠ some node)
    (still : later.at? = some node) : later.Settling node none := by
  obtain ⟨takesOver, after, _, busy⟩ := work_of_at? still
  refine ⟨takesOver, after, _, busy, ?_⟩
  rcases goes.moves busy with ⟨_, rfl⟩ | ⟨same, _, _, work, _⟩
  · exact Duty.script_unsettled takesOver
  · exact absurd ((Task.at?_of_work work).trans (same ▸ takesOver)) before

/-- A takeover that has settled the budget does not do so again. -/
theorem Settling.not_settles {left : Bool} (settling : task.Settling node (some left)) {deed : Effect}
    (next : task.effect? = some deed) : deed.settles = false := by
  obtain ⟨_, _, _, work, settled⟩ := settling
  obtain ⟨_, _, known⟩ := Task.work_of_effect? next
  cases work.symm.trans known
  exact settled.1

/-- A takeover that finishes has settled the budget as its report tells. -/
theorem Settling.finished (settling : task.Settling node phase) {report : Takeover.Report}
    {started : Bool} (work : task.work = some ⟨.done (.progress (.finished report)), started⟩) :
    phase = some report.leftover := by
  obtain ⟨_, _, _, known, inPhase⟩ := settling
  cases known.symm.trans work
  cases phase with
  | none =>
      obtain ⟨_, same, unskipped⟩ := inPhase
      cases same
      exact unskipped.elim
  | some left =>
      obtain ⟨own, same, left⟩ := inPhase
      cases same
      rw [left]

end Task

end Coordinator

end Handover
