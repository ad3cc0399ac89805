import Handover.Settings
import Handover.Socket

/-!
Contract: the settings of a whole node.
-/

set_option autoImplicit false

namespace Handover

structure NodeSettings where
  listen : Socket
  peers : List Address
  /-- How long a peer may take to answer a recovery trigger. -/
  notifyMillis : Nat
  coordinator : Settings
  monitor : MonitorSettings
deriving DecidableEq, Repr

namespace NodeSettings

instance : Inhabited NodeSettings :=
  ⟨{ listen := .v4 [127, 0, 0, 1] 8090
     peers := []
     notifyMillis := 3000
     coordinator := default
     monitor := default }⟩

/-- A node that is known by the address at which it listens. -/
def listening (socket : Socket) : NodeSettings :=
  { (default : NodeSettings) with listen := socket, coordinator := .forNode ⟨socket.text⟩ }

def advertising (settings : NodeSettings) (address : Address) : NodeSettings :=
  { settings with coordinator := { settings.coordinator with localAddress := address } }

def withPeers (settings : NodeSettings) (peers : List Address) : NodeSettings :=
  { settings with peers := settings.peers ++ peers }

def localAddress (settings : NodeSettings) : Address := settings.coordinator.localAddress

end NodeSettings

end Handover
