import Handover.Address
import Handover.RowId

/-!
Contract: what can go wrong, by cause.

Owns: the type of faults and their one wording.
-/

set_option autoImplicit false

namespace Handover

/-- The cause of a failed operation. -/
inductive Fault where
  /-- A job store, cache store, weigher, graph or local trigger refused. -/
  | store (detail : String)
  | membership (detail : String)
  /-- A peer answered a recovery trigger with something other than success. -/
  | notify (node : Address) (detail : String)
  | transport (detail : String)
  | invalidRecord (id : RowId) (reason : String)
  | config (detail : String)
deriving DecidableEq, Repr

def Fault.message : Fault → String
  | .store detail => "Store error: " ++ detail
  | .membership detail => "Membership error: " ++ detail
  | .notify node detail => "Failed to notify node " ++ node.text ++ ": " ++ detail
  | .transport detail => "HTTP error: " ++ detail
  | .invalidRecord id reason => "Invalid record " ++ toString id.val ++ ": " ++ reason
  | .config detail => "Configuration error: " ++ detail

end Handover
