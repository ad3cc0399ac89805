import Handover.Call

/-!
Contract: what a task still has to do, as a tree of calls.

A script ends with a value, makes a call and goes on with the reply, or does
something within the coordinator and goes on with the result. Nothing is fixed
about who answers, when, and what happens in between: that is up to whoever runs
the script, step by step or in one go.

Owns: scripts, their sequencing, and its laws.
-/

set_option autoImplicit false

namespace Handover

/-- What a script does within the coordinator. -/
inductive Effect where
  | readClock
  /-- The clock is read in local time. -/
  | readLocalClock
  /-- A report is about to be queued, and is counted as pending. -/
  | countReport
  /-- A queue that is closed takes no node. -/
  | enqueue (node : Address)
  /-- A report that was taken from the queue, or that the queue did not take, no
  longer counts as pending. -/
  | discountReport
  /-- The node gets a fresh budget of retries. -/
  | forgetRetries (node : Address)
  /-- The node is queued again later, if the budget of retries allows. -/
  | scheduleRetry (node : Address)
  | heartbeat (node : Address)
deriving DecidableEq, Repr

/-- What the script learns from an effect. -/
@[reducible] def Effect.Result : Effect → Type
  | .readClock => Time.Instant
  | .readLocalClock => Time.Instant
  | .enqueue _ => Bool
  | _ => Unit

/-- A tree of calls and effects with a value at the end of every branch. -/
inductive Script (α : Type) where
  | done (value : α)
  | call (request : Call) (next : request.Reply → Script α)
  | effect (deed : Effect) (next : deed.Result → Script α)

namespace Script

variable {α β γ : Type}

/-- Goes on with `later` where the script ends. -/
def bind : Script α → (α → Script β) → Script β
  | .done value, later => later value
  | .call request next, later => .call request fun reply => (next reply).bind later
  | .effect deed next, later => .effect deed fun result => (next result).bind later

instance : Monad Script where
  pure := .done
  bind := bind

@[simp] theorem pure_eq (value : α) : (pure value : Script α) = .done value := rfl

@[simp] theorem done_bind (value : α) (later : α → Script β) :
    (Script.done value >>= later) = later value := rfl

@[simp] theorem call_bind (request : Call) (next : request.Reply → Script α)
    (later : α → Script β) :
    (Script.call request next >>= later) = .call request fun reply => next reply >>= later := rfl

@[simp] theorem effect_bind (deed : Effect) (next : deed.Result → Script α)
    (later : α → Script β) :
    (Script.effect deed next >>= later) = .effect deed fun result => next result >>= later := rfl

theorem bind_done (script : Script α) : (script >>= Script.done) = script := by
  induction script with
  | done _ => rfl
  | call request next inductionHypothesis =>
      exact congrArg (Script.call request) (funext inductionHypothesis)
  | effect deed next inductionHypothesis =>
      exact congrArg (Script.effect deed) (funext inductionHypothesis)

theorem bind_bind (script : Script α) (middle : α → Script β) (later : β → Script γ) :
    (script >>= middle >>= later) = script >>= fun value => middle value >>= later := by
  induction script with
  | done _ => rfl
  | call request next inductionHypothesis =>
      exact congrArg (Script.call request) (funext inductionHypothesis)
  | effect deed next inductionHypothesis =>
      exact congrArg (Script.effect deed) (funext inductionHypothesis)

instance : LawfulMonad Script :=
  LawfulMonad.mk' Script bind_done (fun _ _ => rfl) bind_bind

/-- Makes a call and ends with its reply. -/
def ask (request : Call) : Script request.Reply := .call request .done

/-- Does something within the coordinator and ends with its result. -/
def act (deed : Effect) : Script deed.Result := .effect deed .done

end Script

/-- A script that may break off with a fault. -/
abbrev Attempt (α : Type) := ExceptT Fault Script α

namespace Attempt

/-- Makes a call; a refusal breaks off. -/
def ask (request : Call) : Attempt request.Result := ExceptT.mk (Script.ask request)

/-- Runs a script that cannot break off. -/
def of {α : Type} (script : Script α) : Attempt α := ExceptT.lift script

end Attempt

end Handover
