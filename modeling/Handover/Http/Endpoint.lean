import Handover.Address

/-!
Contract: the URLs at which nodes are reached.

An address may be written with or without a scheme, and with slashes at its end.
-/

set_option autoImplicit false

namespace Handover.Http

/-- The text without the slashes at its end. -/
def withoutSlashes (text : String) : String :=
  String.ofList ((text.toList.reverse.dropWhile (· == '/')).reverse)

def contains (part whole : List Char) : Bool :=
  match whole with
  | [] => part.isEmpty
  | _ :: rest => part.isPrefixOf whole || contains part rest

def withPlainScheme (base : String) : String := "http://" ++ base

/-- The URL of a path of a peer. Only web schemes count as schemes. -/
def peerUrl (node : Address) (path : String) : String :=
  let base := withoutSlashes node.text
  let hasScheme := base.startsWith "http://" || base.startsWith "https://"
  (if hasScheme then base else withPlainScheme base) ++ path

/-- The URL of a path of the service at `address`. Any scheme counts. -/
def serviceUrl (address path : String) : String :=
  let base := withoutSlashes address
  (if contains "://".toList base.toList then base else withPlainScheme base) ++ path

end Handover.Http
