import Handover.Api.Route
import Handover.Rehearsal.Run

/-!
Contract: a rehearsed node answers the requests to its API.
-/

set_option autoImplicit false

namespace Handover.Rehearsal

open Coordinator (Outcome)

/-- Whether the last errand was a report that was accepted. -/
def lastAccepted (outcomes : List Outcome) : Bool :=
  match outcomes.getLast? with
  | some (.accepted yes) => yes
  | _ => false

/-- What the last errand attempted ended with. -/
def lastAttempt (outcomes : List Outcome) : Except Fault Unit :=
  match outcomes.getLast? with
  | some (.attempted result) => result
  | _ => .ok ()

/-- Answers a request, and does what it asks for. -/
def serve (run : Rehearsal) (request : Http.Request) : Http.Response × Rehearsal :=
  match Api.intent request with
  | .answer response => (response, run)
  | .trigger =>
      let (outcomes, after) := run.perform [.trigger]
      (Api.triggered (lastAttempt outcomes), after)
  | .migrate node =>
      let (outcomes, after) := run.perform [.report node]
      (Api.migrated (lastAccepted outcomes), after)
  | .status withBody => (Api.shown (.ofState run.state) withBody, run)

end Handover.Rehearsal
