import Handover.Script

/-!
Contract: how a report of a dead node comes into the queue.

A report is accepted unless it is blank or the queue is closed, and is queued without
the white space around it. It counts as pending from just before it is queued until
just after it was taken from the queue, or until the queue turned out to be closed.
-/

set_option autoImplicit false

namespace Handover.Intake

/-- Whether a report names a node. -/
def accepts (report : String) : Bool := !(Address.mk report).trim.isBlank

/-- Queues the node and tells whether the queue took it. -/
def push (node : Address) : Script Bool := do
  Script.act .countReport
  let taken ← Script.act (.enqueue node)
  if taken then return true
  else do
    Script.act .discountReport
    return false

/-- Queues the reported node and tells whether the report was accepted. -/
def submit (report : String) : Script Bool :=
  if accepts report then push (Address.mk report).trim else return false

end Handover.Intake
