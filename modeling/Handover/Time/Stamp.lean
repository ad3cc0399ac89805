import Handover.Text.Blank
import Handover.Time.Instant

/-!
Contract: instants as text for exchange.

Owns: the writing of an instant as date, `T`, time of day in UTC and `Z`, and the
reading of such texts. Reading is generous: white space may stand around the
numbers, the separator may also be `t` or a space, the year may have a sign and
then more than four digits, and any offset from UTC will do.

A fraction is written with three, six or nine digits, whatever it needs.
-/

set_option autoImplicit false

namespace Handover.Time.Stamp

open Handover.Text (isBlankChar)

/-! ## Writing -/

/-- The fraction of a second, in as few groups of three digits as it takes. -/
def fractionText (nano : Nat) : String :=
  if nano = 0 then ""
  else if nano % 1000000 = 0 then "." ++ padded 3 (nano / 1000000)
  else if nano % 1000 = 0 then "." ++ padded 6 (nano / 1000)
  else "." ++ padded 9 nano

def write (instant : Instant) : String :=
  instant.date.key ++ "T" ++ instant.clockText ++ fractionText (instant.nano % 1000000000) ++ "Z"

/-! ## Reading -/

/-- A value read from the front, and the rest of the text. -/
abbrev Read (α : Type) := Option (α × List Char)

def skipBlanks (chars : List Char) : List Char := chars.dropWhile isBlankChar

def digitsValue (digits : List Char) : Nat :=
  digits.foldl (fun value digit => value * 10 + (digit.toNat - '0'.toNat)) 0

/-- A number of one to `most` digits. -/
def digits (most : Nat) (chars : List Char) : Read Nat :=
  match (chars.take most).takeWhile Char.isDigit with
  | [] => none
  | found => some (digitsValue found, chars.drop found.length)

/-- A number of any length that fits 63 bits. -/
def longDigits (chars : List Char) : Read Nat :=
  match digits chars.length chars with
  | some (value, rest) => if value < UInt64.size / 2 then some (value, rest) else none
  | none => none

/-- A year: four digits at most, or any number of digits behind a sign. -/
def year (chars : List Char) : Read Int :=
  match skipBlanks chars with
  | '-' :: rest => (longDigits rest).map fun (value, after) => (-(value : Int), after)
  | '+' :: rest => (longDigits rest).map fun (value, after) => ((value : Int), after)
  | rest => (digits 4 rest).map fun (value, after) => ((value : Int), after)

/-- A number of two digits at most within bounds. -/
def twoDigits (least most : Nat) (chars : List Char) : Read Nat :=
  match digits 2 (skipBlanks chars) with
  | some (value, rest) => if least ≤ value ∧ value ≤ most then some (value, rest) else none
  | none => none

/-- A mark that may have white space before it. -/
def mark (wanted : Char) (chars : List Char) : Option (List Char) :=
  match skipBlanks chars with
  | char :: rest => if char = wanted then some rest else none
  | [] => none

/-- A fraction of a second in nanoseconds. Digits beyond the ninth play no part. -/
def fraction : List Char → Read Nat
  | '.' :: rest =>
      match digits 9 rest with
      | some (value, _) =>
          let count := ((rest.take 9).takeWhile Char.isDigit).length
          some (value * Nat.pow 10 (9 - count), rest.dropWhile Char.isDigit)
      | none => none
  | rest => some (0, rest)

def isSeparator (char : Char) : Bool := char == 'T' || char == 't' || char == ' '

/-- Two digits that must be there, as a number. -/
def exactDigits : List Char → Read Nat
  | first :: second :: rest =>
      if first.isDigit && second.isDigit then some (digitsValue [first, second], rest) else none
  | _ => none

/-- An offset behind its sign, in seconds. -/
def offsetValue (chars : List Char) : Read Nat :=
  match exactDigits chars with
  | some (hours, rest) =>
      match exactDigits (rest.dropWhile fun char => char == ':' || isBlankChar char) with
      | some (minutes, after) =>
          if minutes < 60 then some (hours * 3600 + minutes * 60, after) else none
      | none => none
  | none => none

def offset (chars : List Char) : Read Int :=
  let negated := fun (value, after) => (-((value : Nat) : Int), after)
  match skipBlanks chars with
  | 'Z' :: rest => some (0, rest)
  | 'z' :: rest => some (0, rest)
  | '+' :: rest => (offsetValue rest).map fun (value, after) => ((value : Int), after)
  | '-' :: rest => (offsetValue rest).map negated
  | '\u2212' :: rest => (offsetValue rest).map negated
  | first :: second :: third :: rest =>
      if [first, second, third].map Char.toUpper == ['U', 'T', 'C'] then some (0, rest) else none
  | _ => none

def date (chars : List Char) : Option (Date × List Char) := do
  let (year, rest) ← year chars
  let rest ← mark '-' rest
  let (month, rest) ← twoDigits 1 12 rest
  let rest ← mark '-' rest
  let (day, rest) ← twoDigits 1 31 rest
  let date ← Date.ofNumbers? year month day
  return (date, rest)

/-- The seconds of the day and the nanoseconds. Second 60 is a leap second. -/
def clock (chars : List Char) : Option ((Nat × Nat) × List Char) := do
  let (hour, rest) ← twoDigits 0 23 chars
  let rest ← mark ':' rest
  let (minute, rest) ← twoDigits 0 59 rest
  let rest ← mark ':' rest
  let (second, rest) ← twoDigits 0 60 rest
  let (nano, rest) ← fraction rest
  let plain := hour * 3600 + minute * 60
  return (if second = 60 then (plain + 59, nano + 1000000000) else (plain + second, nano), rest)

def read (text : String) : Option Instant := do
  let (date, rest) ← date text.toList
  let rest ← match rest with
    | separator :: rest => if isSeparator separator then some rest else none
    | [] => none
  let ((second, nano), rest) ← clock rest
  let (offset, rest) ← offset rest
  if offset.natAbs < 86400 ∧ (skipBlanks rest).isEmpty then
    some ⟨date.toDays * 86400 + second - offset, nano⟩
  else none

end Handover.Time.Stamp
