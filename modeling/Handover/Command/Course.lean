import Handover.Command.Client
import Handover.Command.Peers
import Handover.NodeSettings

/-!
Contract: what becomes of a command line.

Owns: the settings of the node that its switches stand for, how a failure to start
is told, and the course that a command line takes.
-/

set_option autoImplicit false

namespace Handover.Command

/-- A node listens on all interfaces, and is known by its loopback address unless
another one is given. -/
def Server.settings (server : Server) : Except Fault NodeSettings := do
  let peers ← Peers.read server.peers
  let known := server.advertise.getD ("127.0.0.1:" ++ toString server.portNumber)
  let base := ((NodeSettings.listening (.v4 [0, 0, 0, 0] server.portNumber)).advertising ⟨known⟩).withPeers
    peers
  return { base with
    coordinator := base.coordinator.withPageSize server.pageSize
    monitor := { base.monitor with timeoutMillis := server.timeoutMillis } }

/-- A fault by its cause, with its texts quoted. -/
def causeText : Fault → String
  | .store detail => "Store(" ++ Text.quoted detail ++ ")"
  | .membership detail => "Membership(" ++ Text.quoted detail ++ ")"
  | .notify node detail => "Notify(" ++ Text.quoted node.text ++ ", " ++ Text.quoted detail ++ ")"
  | .transport detail => "Http(" ++ Text.quoted detail ++ ")"
  | .invalidRecord id reason =>
      "InvalidRecord(" ++ toString id.val ++ ", " ++ Text.quoted reason ++ ")"
  | .config detail => "Config(" ++ Text.quoted detail ++ ")"

/-- The end of a command that a fault keeps from being carried out. -/
def Ending.ofFault (fault : Fault) : Ending := .failed ("Error: " ++ causeText fault ++ "\n")

/-- The end of a command line that is not carried out. -/
def Ending.ofRefusal (refusal : Refusal) : Ending :=
  match refusal with
  | .version program => .shown (versionLine program)
  | _ => ⟨"", none, refusal.exitCode⟩

/-- What is left to do once a command line is read. -/
inductive Course where
  | ended (ending : Ending)
  | ask (command : Command) (errand : Errand)
  | run (settings : NodeSettings) (leader : Bool)

def course (command : Command) : Course :=
  match command with
  | .server options =>
      match options.settings with
      | .ok settings => .run settings options.leader
      | .error fault => .ended (.ofFault fault)
  | .migrate client node =>
      .ask command (client.errand "POST" .migrate (some (Api.Migration.layout.form.write ⟨node⟩)))
  | .trigger client => .ask command (client.errand "POST" .trigger none)
  | .status client => .ask command (client.errand "GET" .status none)

def courseOf (arguments : List String) : Course :=
  match read arguments with
  | .ok command => course command
  | .error refusal => .ended (.ofRefusal refusal)

end Handover.Command
