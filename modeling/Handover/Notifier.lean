import Handover.Api.Route
import Handover.Http.Endpoint

/-!
Contract: how a peer is told over HTTP to scan its work.

Owns: the request, and what its answer means.

Does not own: sending it.
-/

set_option autoImplicit false

namespace Handover.Notifier

/-- An answer, or why there is none. -/
abbrev Exchanged := Except String Http.Response

/-- The URL to which the trigger of `node` is posted. -/
def url (node : Address) : String := Http.peerUrl node Api.Route.trigger.path

def outcome (node : Address) : Exchanged → Except Fault Unit
  | .error detail => .error (.transport detail)
  | .ok response =>
      if response.status.isSuccess then .ok ()
      else .error (.notify node ("status " ++ response.status.text ++ ": " ++ response.body))

end Handover.Notifier
