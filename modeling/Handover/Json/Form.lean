import Handover.Json.Scan
import Handover.Time.Stamp

/-!
Contract: the JSON text of plain values.

A form holds the reader and the writer of one type together. Readers start at the
front of a text and pass over blanks before the value.

Owns: forms of texts, truth values, whole numbers, instants and named choices,
optional values, and the reading of a whole text.

Does not own: forms of records, which `Handover.Json.Record` builds.
-/

set_option autoImplicit false

namespace Handover.Json

/-- How the values of a type are read and written. -/
structure Form (α : Type) where
  read : List Char → Scanned α
  write : α → String

/-! ## Writing -/

def hexDigit (digit : Nat) : Char :=
  Char.ofNat (if digit < 10 then '0'.toNat + digit else 'a'.toNat + (digit - 10))

/-- The escape of a character that cannot stand in a string as it is. -/
def escape? (char : Char) : Option (List Char) :=
  if char = '"' then some ['\\', '"']
  else if char = '\\' then some ['\\', '\\']
  else if char = '\x08' then some ['\\', 'b']
  else if char = '\x0c' then some ['\\', 'f']
  else if char = '\n' then some ['\\', 'n']
  else if char = '\r' then some ['\\', 'r']
  else if char = '\t' then some ['\\', 't']
  else if char.toNat < 0x20 then
    some ['\\', 'u', '0', '0', hexDigit (char.toNat / 16), hexDigit (char.toNat % 16)]
  else none

def quoted (text : String) : String :=
  String.ofList ('"' :: (text.toList.flatMap fun char => (escape? char).getD [char]) ++ ['"'])

/-! ## Values of another type -/

/-- The failure where a value of some type was wanted and the text, which is not
empty, does not start with one. If it starts with another value, that value has to
be in order for the failure to be a mismatch. -/
def unwanted : List Char → Failure
  | 'n' :: rest => afterValue (word "ull".toList rest)
  | 't' :: rest => afterValue (word "rue".toList rest)
  | 'f' :: rest => afterValue (word "alse".toList rest)
  | '-' :: rest => afterValue (number true rest)
  | '"' :: rest => afterValue (stringText rest)
  | '[' :: _ => .mismatched
  | '\x7b' :: _ => .mismatched
  | char :: rest => if char.isDigit then afterValue (number false (char :: rest)) else .malformed
  | [] => .truncated
where
  /-- A value in order is a mismatch; one that is not has its own failure. -/
  afterValue {β : Type} : Except Failure β → Failure
    | .ok _ => .mismatched
    | .error failure => failure

namespace Form

/-- Reads by the first character that is not blank. -/
def byFirst {α : Type} (read : Char → List Char → Scanned α) (chars : List Char) : Scanned α :=
  match skipBlanks chars with
  | [] => .error .truncated
  | char :: rest => read char rest

/-- Keeps the values that `convert` takes; the others do not have the wanted shape. -/
def refine {α β : Type} (convert : α → Option β) : Scanned α → Scanned β
  | .ok (value, rest) =>
      match convert value with
      | some converted => .ok (converted, rest)
      | none => .error .mismatched
  | .error failure => .error failure

def text : Form String where
  read := byFirst fun char rest =>
    if char = '"' then stringText rest else .error (unwanted (char :: rest))
  write := quoted

def flag : Form Bool where
  read := byFirst fun char rest =>
    if char = 't' then (word "rue".toList rest).map fun after => (true, after)
    else if char = 'f' then (word "alse".toList rest).map fun after => (false, after)
    else .error (unwanted (char :: rest))
  write value := if value then "true" else "false"

/-- Whole numbers that `convert` takes. -/
def whole {α : Type} (convert : Int → Option α) (value : α → Int) : Form α where
  read := byFirst fun char rest =>
    let converted := refine fun
      | .whole value => convert value
      | .other => none
    if char = '-' then converted (number true rest)
    else if char.isDigit then converted (number false (char :: rest))
    else .error (unwanted (char :: rest))
  write number := toString (value number)

def count (most : Nat) : Form Nat :=
  whole (fun value => if 0 ≤ value ∧ value ≤ most then some value.toNat else none) Int.ofNat

/-- Numbers that fit into 32 bits with a sign. -/
def small : Form Int :=
  whole (fun value => if -2147483648 ≤ value ∧ value ≤ 2147483647 then some value else none) id

/-- A type whose values are texts of which some are refused. -/
def ofText {α : Type} (convert : String → Option α) (value : α → String) : Form α where
  read chars := refine convert (text.read chars)
  write content := quoted (value content)

def instant : Form Time.Instant := ofText Time.Stamp.read Time.Stamp.write

def optional {α : Type} (form : Form α) : Form (Option α) where
  read chars :=
    match skipBlanks chars with
    | 'n' :: rest => (word "ull".toList rest).map fun after => (none, after)
    | present => (form.read present).map fun (value, after) => (some value, after)
  write
    | some value => form.write value
    | none => "null"

/-- Passes over `null`, which may also be written as the content of a choice. -/
def passNull (chars : List Char) : Except Failure (List Char) :=
  match skipBlanks chars with
  | [] => .error .truncated
  | 'n' :: rest => word "ull".toList rest
  | other => .error (unwanted other)

def passColon (chars : List Char) : Except Failure (List Char) :=
  match skipBlanks chars with
  | [] => .error .truncated
  | ':' :: rest => .ok rest
  | _ :: _ => .error .malformed

/-- Reads an object with one key and `null` as its value, from behind the brace. -/
def readKeyOnly {α : Type} (key : Form α) (chars : List Char) : Except Failure (α × List Char) := do
  let (choice, rest) ← key.read chars
  let rest ← passNull (← passColon rest)
  match skipBlanks rest with
  | [] => .error .truncated
  | '\x7d' :: after => .ok (choice, after)
  | _ :: _ => .error .malformed

/-- One of several choices by name. A choice is written as its name, and also read
as an object with the name as its one key and `null` as the value. -/
def oneOf {α : Type} (choices : List α) (name : α → String) : Form α where
  read := byFirst fun char rest =>
    let named := ofText (fun found => choices.find? fun choice => name choice == found) name
    if char = '"' then named.read (char :: rest)
    else if char = '\x7b' then readKeyOnly named rest
    else .error .malformed
  write choice := quoted (name choice)

/-- Reads a value at the front of a text; what follows is not looked at. -/
def readFront {α : Type} (form : Form α) (text : String) : Except Failure α :=
  (form.read text.toList).map Prod.fst

/-- Reads a text that is one value and nothing else but blanks. -/
def readAll {α : Type} (form : Form α) (text : String) : Except Failure α := do
  let (value, rest) ← form.read text.toList
  if (skipBlanks rest).isEmpty then .ok value else .error .malformed

/-- A text in the way in which the form itself writes it. -/
def normalize {α : Type} (form : Form α) (text : String) : Except Failure String :=
  (form.readAll text).map form.write

end Form

end Handover.Json
