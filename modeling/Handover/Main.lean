import Handover.Command.Course

/-!
Contract: the program.

It reads its command line, shows what a command came to, and ends with the exit
code. There is no network beneath it: a command that needs one ends as it does
when its node cannot be reached.
-/

set_option autoImplicit false

open Handover in
def main (arguments : List String) : IO UInt32 := do
  let ending := match Command.courseOf arguments with
    | .ended ending => ending
    | .ask command _ => command.ending (.error "Error: the node cannot be reached\n")
    | .run _ _ => .failed "Error: there is no network to listen on\n"
  IO.print ending.output
  if let some complaint := ending.complaint then IO.eprint complaint
  return ending.code.toUInt32
