import Handover.Api.Route
import Handover.Command.Line
import Handover.Http.Endpoint

/-!
Contract: the commands that talk to a running node.

Owns: the request of a command, and what is shown of the answer.

Does not own: sending the request.
-/

set_option autoImplicit false

namespace Handover.Command

open Api (Ack Route Standing)

structure Errand where
  method : String
  url : String
  body : Option String
deriving DecidableEq, Repr

structure Ending where
  output : String
  complaint : Option String
  code : Nat
deriving DecidableEq, Repr

namespace Ending

def shown (output : String) : Ending := ⟨output, none, 0⟩

def failed (complaint : String) : Ending := ⟨"", some complaint, 1⟩

end Ending

/-- The request that asks a client's node for a route. -/
def Client.errand (client : Client) (method : String) (route : Route) (body : Option String) :
    Errand :=
  ⟨method, Http.serviceUrl client.address route.path, body⟩

/-- The lines that show an acknowledgement of `action`. -/
def ackText (display : Display) (action : String) (ack : Ack) : String :=
  match display with
  | .json => Ack.layout.writeIndented ack ++ "\n"
  | .table =>
      if ack.success then action ++ ": ok\n"
      else action ++ ": failed (" ++ ack.error.getD "unknown error" ++ ")\n"

/-- The lines that show where a coordinator stands. -/
def standingText (display : Display) (standing : Standing) : String :=
  match display with
  | .json => Standing.layout.writeIndented standing ++ "\n"
  | .table =>
      "Coordinator Status\n" ++ String.ofList (List.replicate 40 '=') ++ "\n" ++
        "Address:         " ++ standing.localAddress ++ "\n" ++
        "State:           " ++ standing.state ++ "\n" ++
        "Pending reports: " ++ toString standing.pendingReports ++ "\n"

/-- What is shown of an answer whose body should have the given layout. -/
def showBody {α : Type} (layout : Json.Layout α) (text : α → String)
    (response : Http.Response) : Ending :=
  match layout.form.readAll response.body with
  | .ok value => .shown (text value)
  | .error failure => .failed ("error decoding response body: " ++ failure.name)

/-- What a command that talks to a running node came to, given the answer or why there
is none. An acknowledgement is shown whatever the status is. -/
def ending : Command → Except String Http.Response → Ending
  | _, .error detail => .failed detail
  | .migrate client node, .ok response =>
      showBody Ack.layout (ackText client.display ("Migrate " ++ node)) response
  | .trigger client, .ok response =>
      showBody Ack.layout (ackText client.display "Recovery trigger") response
  | .status client, .ok response =>
      if response.status.isError then .failed response.status.text
      else showBody Standing.layout (standingText client.display) response
  | .server _, .ok _ => .shown ""

end Handover.Command
