import Handover.Json.Form

/-!
Contract: the JSON text of records.

A record is written as an object with its fields in order. It is read from an
object with the fields in any order, where unknown keys are passed over, or from
an array with the values of all fields in order. No key may come twice.

Owns: fields, the rows of their values, and the reading and writing of rows in
both layouts, on one line and indented.
-/

set_option autoImplicit false

namespace Handover.Json

structure Field where
  name : String
  Content : Type
  form : Form Content
  /-- What an object that does not have the key means, if it may go without. -/
  missing : Option Content

namespace Field

/-- A field that an object has to have. -/
def required {α : Type} (name : String) (form : Form α) : Field := ⟨name, α, form, none⟩

/-- A field that may also be `null`, and be left out of an object. -/
def optional {α : Type} (name : String) (form : Form α) : Field :=
  ⟨name, Option α, form.optional, some none⟩

end Field

/-- The values of some fields, in order. -/
def Row : List Field → Type
  | [] => Unit
  | field :: rest => field.Content × Row rest

/-- The values of the fields that were found so far. -/
def Found : List Field → Type
  | [] => Unit
  | field :: rest => Option field.Content × Found rest

def Found.nothing : (fields : List Field) → Found fields
  | [] => ()
  | _ :: rest => (none, nothing rest)

/-- All values, unless one is missing that must be there. -/
def Found.row? : (fields : List Field) → Found fields → Option (Row fields)
  | [], _ => some ()
  | field :: rest, (value, others) => do
      let first ← value <|> field.missing
      let row ← row? rest others
      return (first, row)

/-! ## Reading -/

/-- Reads the values of all fields from behind the bracket of an array. -/
def readElements : (fields : List Field) → (fresh : Bool) → List Char →
    Except Failure (Row fields × List Char)
  | [], _, chars => .ok ((), chars)
  | field :: rest, fresh, chars => do
      let start ← match skipBlanks chars with
        | [] => .error .truncated
        | ']' :: _ => .error .mismatched
        | ',' :: after =>
            if fresh then .ok (',' :: after)
            else match skipBlanks after with
              | [] => .error .truncated
              | ']' :: _ => .error .malformed
              | value => .ok value
        | value => if fresh then .ok value else .error .malformed
      let (first, after) ← field.form.read start
      let (row, after) ← readElements rest false after
      return ((first, row), after)

def passArrayEnd (chars : List Char) : Except Failure (List Char) :=
  match skipBlanks chars with
  | [] => .error .truncated
  | ']' :: rest => .ok rest
  | _ :: _ => .error .malformed

def readMember : (fields : List Field) → Found fields → String → List Char →
    Except Failure (Found fields × List Char)
  | [], _, _, chars => do
      let after ← passValue (← Form.passColon chars)
      return ((), after)
  | field :: rest, (value, others), name, chars =>
      if name = field.name then
        match value with
        | some _ => .error .mismatched
        | none => do
            let (read, after) ← field.form.read (← Form.passColon chars)
            return ((some read, others), after)
      else do
        let (others, after) ← readMember rest others name chars
        return ((value, others), after)

/-- Reads the members of an object, up to and without its closing brace. Each round
reads a member, so as many rounds as characters are enough. -/
def readMembers (fields : List Field) : Nat → (fresh : Bool) → Found fields → List Char →
    Except Failure (Found fields × List Char)
  | 0, _, _, _ => .error .truncated
  | rounds + 1, fresh, found, chars =>
      let member (start : List Char) : Except Failure (Found fields × List Char) :=
        match start with
        | [] => .error .truncated
        | '"' :: rest => do
            let (name, rest) ← stringText rest
            let (found, rest) ← readMember fields found name rest
            readMembers fields rounds false found rest
        | _ :: _ => .error .malformed
      match skipBlanks chars with
      | [] => .error .truncated
      | '\x7d' :: rest => .ok (found, '\x7d' :: rest)
      | ',' :: rest => if fresh then .error .malformed else member (skipBlanks rest)
      | start => if fresh then member start else .error .malformed

/-- Reads the values of all fields from an object or an array. -/
def readRow (fields : List Field) (chars : List Char) : Except Failure (Row fields × List Char) := do
  match skipBlanks chars with
  | [] => .error .truncated
  | '[' :: rest => do
      let (row, rest) ← readElements fields true rest
      return (row, ← passArrayEnd rest)
  | '\x7b' :: rest => do
      let (found, rest) ← readMembers fields (rest.length + 1) true (Found.nothing fields) rest
      match found.row? fields with
      | some row => return (row, rest.drop 1)
      | none => .error .mismatched
  | other => .error (unwanted other)

/-! ## Writing -/

def members : (fields : List Field) → Row fields → List (String × String)
  | [], _ => []
  | field :: rest, (value, others) => (field.name, field.form.write value) :: members rest others

/-- An object on one line, without blanks. -/
def compact (entries : List (String × String)) : String :=
  "\x7b" ++ ",".intercalate (entries.map fun (name, value) => quoted name ++ ":" ++ value) ++ "\x7d"

/-- An object with a line for each member, two blanks deep. -/
def indented (entries : List (String × String)) : String :=
  if entries.isEmpty then "\x7b\x7d"
  else "\x7b\n" ++
    ",\n".intercalate (entries.map fun (name, value) => "  " ++ quoted name ++ ": " ++ value) ++
    "\n\x7d"

/-- A type whose values are rows of fields. -/
structure Layout (α : Type) where
  fields : List Field
  toRow : α → Row fields
  ofRow : Row fields → α

namespace Layout

variable {α : Type}

/-- The form of the type: objects on one line. -/
def form (layout : Layout α) : Form α where
  read chars := (readRow layout.fields chars).map fun (row, rest) => (layout.ofRow row, rest)
  write value := compact (members layout.fields (layout.toRow value))

/-- The value as an indented object. -/
def writeIndented (layout : Layout α) (value : α) : String :=
  indented (members layout.fields (layout.toRow value))

end Layout

end Handover.Json
