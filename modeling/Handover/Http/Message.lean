import Handover.Http.MediaType
import Handover.Http.Status

/-!
Contract: HTTP requests and answers, as far as the node has to do with them.
-/

set_option autoImplicit false

namespace Handover.Http

structure Request where
  method : String
  target : String
  contentType : Option String
  body : String
deriving DecidableEq, Repr

namespace Request

/-- What stands behind the scheme and the authority of a target that has them. -/
def behindAuthority : List Char → List Char
  | [] => []
  | ':' :: '/' :: '/' :: rest => rest.dropWhile fun char => !(['/', '?', '#'].contains char)
  | _ :: rest => behindAuthority rest

/-- The path that the request is for, without query and fragment. -/
def path (request : Request) : String :=
  let target := request.target.toList
  let whole := if target.head? = some '/' ∨ target = ['*'] then target else behindAuthority target
  let found := whole.takeWhile fun char => char != '?' && char != '#'
  if found.isEmpty then "/" else String.ofList found

/-- Whether the body is said to be JSON. -/
def hasJson (request : Request) : Bool :=
  ((request.contentType.bind MediaType.read?).map MediaType.isJson).getD false

end Request

structure Response where
  status : Status
  /-- The methods that there are, where another one was used. -/
  allow : Option String
  body : String
deriving DecidableEq, Repr

def Response.bare (code : Nat) : Response := ⟨⟨code⟩, none, ""⟩

end Handover.Http
