import Handover.World

/-!
Contract: how rehearsed collaborators take their calls.

Owns: rules, which delay a call, refuse it or let something else happen first, and
the choice of the rule that a call goes by.

Rules are tried in order. A rule that fits but is still to be skipped is skipped
once less from then on; a rule that is used up is passed over. The first other
rule that fits is used, and it alone.
-/

set_option autoImplicit false

namespace Handover.Rehearsal

/-- Something that happens while a call is under way. -/
inductive Deed where
  | write (entry : Write)
  | report (text : String)
deriving DecidableEq, Repr

structure Rule where
  /-- The name of the calls it is for. -/
  name : String
  /-- The subject of the calls it is for; none for every subject. -/
  subject : Option String
  /-- How many calls are still to pass before it is used. -/
  skip : Nat
  /-- How often it can still be used; none for always. -/
  times : Option Nat
  delayMillis : Nat
  /-- What happens once the delay is over, before the call is carried out. -/
  deeds : List Deed
  /-- The text with which the call is refused, if it is. -/
  refused : Option String
deriving DecidableEq, Repr

namespace Rule

def fits (rule : Rule) (call : Call) : Bool :=
  rule.name == call.name && rule.subject.all fun wanted => wanted == call.subject

/-- The rule after one more use. -/
def used (rule : Rule) : Rule := { rule with times := rule.times.map (· - 1) }

/-- The rule that a call goes by, if any, and the rules afterwards. -/
def choose (call : Call) : List Rule → Option Rule × List Rule
  | [] => (none, [])
  | rule :: rest =>
      if rule.fits call then
        if 0 < rule.skip then
          let (chosen, later) := choose call rest
          (chosen, { rule with skip := rule.skip - 1 } :: later)
        else if rule.times = some 0 then
          let (chosen, later) := choose call rest
          (chosen, rule :: later)
        else (some rule, rule.used :: rest)
      else
        let (chosen, later) := choose call rest
        (chosen, rule :: later)

end Rule

end Handover.Rehearsal
