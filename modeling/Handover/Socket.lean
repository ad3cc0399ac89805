/-!
Contract: socket addresses as text.

A socket address is an IPv4 address and a port number, `a.b.c.d:number`, or an IPv6
address with an optional zone and a port number, `[address%zone]:number`.

Owns: reading all of these, and writing them in their shortest form.
-/

set_option autoImplicit false

namespace Handover

inductive Socket where
  | v4 (octets : List Nat) (portNumber : Nat)
  | v6 (groups : List Nat) (zone : Nat) (portNumber : Nat)
deriving DecidableEq, Repr

namespace Socket

/-- A value read from the front, and the rest of the text. -/
abbrev Read (α : Type) := Option (α × List Char)

/-! ## Reading -/

/-- The value of a digit in base ten or sixteen. -/
def digit? (base : Nat) (char : Char) : Option Nat :=
  let value :=
    if char.isDigit then some (char.toNat - '0'.toNat)
    else if 'a' ≤ char ∧ char ≤ 'f' then some (char.toNat - 'a'.toNat + 10)
    else if 'A' ≤ char ∧ char ≤ 'F' then some (char.toNat - 'A'.toNat + 10)
    else none
  value.filter (· < base)

def digitSpan (base : Nat) (chars : List Char) : List Char × List Char :=
  (chars.takeWhile fun char => (digit? base char).isSome,
    chars.dropWhile fun char => (digit? base char).isSome)

def digitsValue (base : Nat) (digits : List Char) : Nat :=
  digits.foldl (fun value digit => value * base + (digit? base digit).getD 0) 0

/-- A number up to `most`, all of whose digits are read. -/
def number (base most : Nat) (chars : List Char) : Option (Nat × List Char) :=
  match digitSpan base chars with
  | ([], _) => none
  | (digits, rest) =>
      let value := digitsValue base digits
      if value ≤ most then some (value, rest) else none

def mark (wanted : Char) : List Char → Option (List Char)
  | [] => none
  | char :: rest => if char = wanted then some rest else none

/-- A part of an IPv4 address: a number below 256 without leading zeros. -/
def octet (chars : List Char) : Option (Nat × List Char) :=
  match chars with
  | '0' :: second :: _ => if second.isDigit then none else number 10 255 chars
  | _ => number 10 255 chars

def ipv4 (chars : List Char) : Option (List Nat × List Char) := do
  let (first, rest) ← octet chars
  let (second, rest) ← octet (← mark '.' rest)
  let (third, rest) ← octet (← mark '.' rest)
  let (fourth, rest) ← octet (← mark '.' rest)
  return ([first, second, third, fourth], rest)

/-- A group of an IPv6 address: four hexadecimal digits at most. -/
def group (chars : List Char) : Option (Nat × List Char) :=
  match digitSpan 16 chars with
  | ([], _) => none
  | (digits, rest) => if digits.length ≤ 4 then some (digitsValue 16 digits, rest) else none

/-- The text behind the colon that comes before all groups but the first. -/
def behindColon (first : Bool) (chars : List Char) : Option (List Char) :=
  if first then some chars else mark ':' chars

/-- At most so many groups in a row, the rest, and whether the last two were written
as an IPv4 address. -/
def groups : Nat → (first : Bool) → List Char → List Nat × List Char × Bool
  | 0, _, chars => ([], chars, false)
  | room + 1, first, chars =>
      match if 0 < room then (behindColon first chars).bind ipv4 else none with
      | some (octets, rest) =>
          match octets with
          | [a, b, c, d] => ([a * 256 + b, c * 256 + d], rest, true)
          | _ => ([], chars, false)
      | none =>
          match (behindColon first chars).bind group with
          | some (found, rest) =>
              let (more, rest, embedded) := groups room false rest
              (found :: more, rest, embedded)
          | none => ([], chars, false)

/-- An IPv6 address as eight groups. Two colons stand for a group of zero or more. -/
def ipv6 (chars : List Char) : Option (List Nat × List Char) :=
  let (front, rest, embedded) := groups 8 true chars
  if front.length = 8 then some (front, rest)
  else if embedded then none
  else match rest with
    | ':' :: ':' :: after =>
        let (back, rest, _) := groups (7 - front.length) true after
        some (front ++ List.replicate (8 - front.length - back.length) 0 ++ back, rest)
    | _ => none

def portNumber (chars : List Char) : Option (Nat × List Char) := do
  number 10 65535 (← mark ':' chars)

/-- A zone behind its sign, or zone 0 when none is named. -/
def zone (chars : List Char) : Nat × List Char :=
  ((mark '%' chars).bind (number 10 (UInt32.size - 1))).getD (0, chars)

def readV4 (chars : List Char) : Option (Socket × List Char) := do
  let (octets, rest) ← ipv4 chars
  let (found, rest) ← portNumber rest
  return (.v4 octets found, rest)

def readV6 (chars : List Char) : Option (Socket × List Char) := do
  let (groups, rest) ← ipv6 (← mark '[' chars)
  let (zone, rest) := zone rest
  let (found, rest) ← portNumber (← mark ']' rest)
  return (.v6 groups zone found, rest)

/-- Reads a text that is a socket address and nothing else. -/
def read? (text : String) : Option Socket :=
  match (readV4 text.toList).or (readV6 text.toList) with
  | some (socket, []) => some socket
  | _ => none

/-! ## Writing -/

def hexText (group : Nat) : String := String.ofList (Nat.toDigits 16 group)

def groupsText (groups : List Nat) : String := ":".intercalate (groups.map hexText)

def octetsText (octets : List Nat) : String := ".".intercalate (octets.map toString)

/-- The place and the length of the first longest run of zeros. -/
def longestZeros (groups : List Nat) : Nat × Nat :=
  let runs := (List.range groups.length).map fun start =>
    (start, ((groups.drop start).takeWhile (· == 0)).length)
  runs.foldl (fun best run => if best.2 < run.2 then run else best) (0, 0)

/-- An IPv6 address. The first longest run of zeros is left out if it is longer than
one group, and an IPv4 address that is mapped into IPv6 is written as such. -/
def ipv6Text (groups : List Nat) : String :=
  match groups with
  | [0, 0, 0, 0, 0, 0xffff, high, low] =>
      "::ffff:" ++ octetsText [high / 256, high % 256, low / 256, low % 256]
  | _ =>
      let (start, length) := longestZeros groups
      if 1 < length then
        groupsText (groups.take start) ++ "::" ++ groupsText (groups.drop (start + length))
      else groupsText groups

def text : Socket → String
  | .v4 octets number => octetsText octets ++ ":" ++ toString number
  | .v6 groups zone number =>
      "[" ++ ipv6Text groups ++ (if zone = 0 then "" else "%" ++ toString zone) ++ "]:" ++
        toString number

end Socket

end Handover
