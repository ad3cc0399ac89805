import Handover.Api.Message
import Handover.Http.Message

/-!
Contract: the API of a node.

Owns: the routes, which requests are refused and how, what the others ask for, and
the answers to them.

Does not own: doing what a request asks for, which takes a running coordinator.
-/

set_option autoImplicit false

namespace Handover.Api

open Http (Request Response)

inductive Route where
  | trigger
  | migrate
  | status
deriving DecidableEq, Repr

namespace Route

def all : List Route := [.trigger, .migrate, .status]

def path : Route → String
  | .trigger => "/node/recover/trigger"
  | .migrate => "/node/migrate"
  | .status => "/node/status"

/-- The methods of the route. What can be had can also be had without its body. -/
def methods : Route → List String
  | .trigger => ["POST"]
  | .migrate => ["POST"]
  | .status => ["GET", "HEAD"]

def ofPath? (path : String) : Option Route := all.find? fun route => route.path == path

theorem ofPath?_path (route : Route) : ofPath? route.path = some route := by
  cases route <;> decide

end Route

inductive Intent where
  /-- There is nothing to do but to answer. -/
  | answer (response : Response)
  | trigger
  | migrate (node : String)
  | status (withBody : Bool)
deriving DecidableEq, Repr

def ackResponse (code : Nat) (ack : Ack) : Response := ⟨⟨code⟩, none, Ack.layout.form.write ack⟩

/-- What the body of a migration comes down to. It is read from the front: what
follows the order is not looked at. -/
def migration (request : Request) : Intent :=
  if request.hasJson then
    match Migration.layout.form.readFront request.body with
    | .ok order =>
        if (Address.mk order.node).isBlank then
          .answer (ackResponse 400 (.refused "node address is required"))
        else .migrate order.node
    | .error .mismatched => .answer (.bare 422)
    | .error _ => .answer (.bare 400)
  else .answer (.bare 415)

/-- What a request comes down to. The path is looked at first, then the method. -/
def intent (request : Request) : Intent :=
  match Route.ofPath? request.path with
  | none => .answer (.bare 404)
  | some route =>
      if route.methods.contains request.method then
        match route with
        | .trigger => .trigger
        | .migrate => migration request
        | .status => .status (request.method != "HEAD")
      else .answer { Response.bare 405 with allow := some (",".intercalate route.methods) }

def triggered : Except Fault Unit → Response
  | .ok () => ackResponse 200 .done
  | .error fault => ackResponse 500 (.refused fault.message)

/-- The answer to a migration whose report was accepted or not. -/
def migrated (accepted : Bool) : Response :=
  if accepted then ackResponse 202 .done
  else ackResponse 503 (.refused "intake queue unavailable")

def shown (standing : Standing) (withBody : Bool) : Response :=
  ⟨⟨200⟩, none, if withBody then Standing.layout.form.write standing else ""⟩

end Handover.Api
