import Handover.Coordinator.State
import Handover.Json.Record

/-!
Contract: what the API of a node says and is told.
-/

set_option autoImplicit false

namespace Handover.Api

open Json (Layout)

/-- The order to move all work off a node. -/
structure Migration where
  node : String
deriving DecidableEq, Repr

def Migration.layout : Layout Migration where
  fields := [.required "node" .text]
  toRow migration := (migration.node, ())
  ofRow | (node, ()) => ⟨node⟩

/-- Whether an order was taken, and why it was not. -/
structure Ack where
  success : Bool
  error : Option String
deriving DecidableEq, Repr

namespace Ack

def done : Ack := ⟨true, none⟩

def refused (reason : String) : Ack := ⟨false, some reason⟩

def layout : Layout Ack where
  fields := [.required "success" .flag, .optional "error" .text]
  toRow ack := (ack.success, ack.error, ())
  ofRow | (success, error, ()) => ⟨success, error⟩

end Ack

/-- Where the coordinator of a node stands. -/
structure Standing where
  localAddress : String
  state : String
  pendingReports : Nat
deriving DecidableEq, Repr

namespace Standing

def layout : Layout Standing where
  fields :=
    [.required "local_address" .text, .required "state" .text,
      .required "pending_reports" (.count (UInt64.size - 1))]
  toRow standing := (standing.localAddress, standing.state, standing.pendingReports, ())
  ofRow | (localAddress, state, pendingReports, ()) => ⟨localAddress, state, pendingReports⟩

def ofState (state : Coordinator.State) : Standing :=
  ⟨state.settings.localAddress.text, state.shownMode.name, state.pending⟩

end Standing

end Handover.Api
