/-!
Contract: media types as they stand in a content type header.

A media type is `kind/subtype`, where what follows the last `+` of the subtype is
its suffix. Parameters may follow; they must be in order, and are not kept. Letter
case plays no part.
-/

set_option autoImplicit false

namespace Handover.Http

structure MediaType where
  kind : String
  subtype : String
  suffix : Option String
deriving DecidableEq, Repr

namespace MediaType

/-- Whether a character may stand in a name: printable ASCII without separators. -/
def isNameChar (char : Char) : Bool :=
  char.isAlphanum || "!#$%&'*+-.^_`|~".toList.contains char

/-- Whether a character may stand between quotes. -/
def isQuotable (char : Char) : Bool := 32 ≤ char.toNat && char.toNat != 127

def nameSpan (chars : List Char) : List Char × List Char :=
  (chars.takeWhile isNameChar, chars.dropWhile isNameChar)

/-- Where the reading of parameters stands. -/
inductive Within where
  /-- Before a name. Blanks may come, and the text may end. -/
  | before
  | name
  /-- Before a value. The text may end. -/
  | value
  /-- In a value that is not quoted. -/
  | plain
  /-- Behind an opening quote, where one character has to come. -/
  | opened
  | inQuotes
  | closed
deriving DecidableEq, Repr

def validParameters : Within → List Char → Bool
  | .before, [] => true
  | .before, char :: rest =>
      if char = ' ' then validParameters .before rest
      else isNameChar char && validParameters .name rest
  | .name, [] => false
  | .name, char :: rest =>
      if char = '=' then validParameters .value rest
      else isNameChar char && validParameters .name rest
  | .value, [] => true
  | .value, char :: rest =>
      if char = '"' then validParameters .opened rest
      else isNameChar char && validParameters .plain rest
  | .plain, [] => true
  | .plain, char :: rest =>
      if char = ';' then validParameters .before rest
      else isNameChar char && validParameters .plain rest
  | .opened, [] => false
  | .opened, char :: rest => isQuotable char && validParameters .inQuotes rest
  | .inQuotes, [] => false
  | .inQuotes, char :: rest =>
      if char = '"' then validParameters .closed rest
      else isQuotable char && validParameters .inQuotes rest
  | .closed, [] => true
  | .closed, char :: rest =>
      if char = ';' then validParameters .before rest
      else if char = ' ' then validParameters .closed rest
      else false

/-- A subtype and its suffix. A `+` at the start does not set off a suffix. -/
def splitSuffix (subtype : List Char) : List Char × Option (List Char) :=
  let suffix := (subtype.reverse.takeWhile (· != '+')).reverse
  let front := subtype.take (subtype.length - suffix.length - 1)
  if suffix.length < subtype.length ∧ front ≠ [] then (front, some suffix) else (subtype, none)

def lower (chars : List Char) : String := String.ofList (chars.map Char.toLower)

def read? (text : String) : Option MediaType :=
  let (kind, behind) := nameSpan text.toList
  match kind, behind with
  | [], _ => none
  | _, '/' :: after =>
      let (subtype, parameters) := nameSpan after
      let (front, suffix) := splitSuffix subtype
      let found : MediaType := ⟨lower kind, lower front, suffix.map lower⟩
      match parameters with
      | [] => some found
      | ';' :: rest =>
          if subtype ≠ [] ∧ validParameters .before rest then some found else none
      | _ => none
  | _, _ => none

/-- Whether the type is JSON, or another type that is written in JSON. -/
def isJson (type : MediaType) : Bool :=
  type.kind == "application" && (type.subtype == "json" || type.suffix == some "json")

end MediaType

end Handover.Http
