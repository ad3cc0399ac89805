/-!
Contract: the lexical elements of JSON text.

Owns: blanks, words, strings and numbers, each read from the front of a text, and
the way in which a reading fails. Three ways are told apart: the text is not JSON,
the text ends too early, or it is JSON that does not have the wanted shape.

A string that is only passed over is read leniently: its code units need not pair up.
-/

set_option autoImplicit false

namespace Handover.Json

inductive Failure where
  | malformed
  /-- The text is JSON, but not what was wanted. -/
  | mismatched
  /-- The text ends before the value does. -/
  | truncated
deriving DecidableEq, Repr

def Failure.name : Failure → String
  | .malformed => "Syntax"
  | .mismatched => "Data"
  | .truncated => "Eof"

/-- A value read from the front, and the rest of the text. -/
abbrev Scanned (α : Type) := Except Failure (α × List Char)

def isBlank (char : Char) : Bool :=
  char == ' ' || char == '\n' || char == '\t' || char == '\r'

def skipBlanks (chars : List Char) : List Char := chars.dropWhile isBlank

def word : List Char → List Char → Except Failure (List Char)
  | [], rest => .ok rest
  | _ :: _, [] => .error .truncated
  | wanted :: more, char :: rest =>
      if char = wanted then word more rest else .error .malformed

/-! ## Strings -/

def hexDigit? (char : Char) : Option Nat :=
  if char.isDigit then some (char.toNat - '0'.toNat)
  else if 'a' ≤ char ∧ char ≤ 'f' then some (char.toNat - 'a'.toNat + 10)
  else if 'A' ≤ char ∧ char ≤ 'F' then some (char.toNat - 'A'.toNat + 10)
  else none

def utf8Bytes (chars : List Char) : Nat := chars.foldl (fun count char => count + char.utf8Size) 0

inductive Within where
  | plain
  | escape
  /-- So many digits of a code unit to come, the value so far, and the leading
  half of a pair if this is the other half. -/
  | unit (digits value : Nat) (lead : Option Nat)
  /-- The backslash of the other half of a pair. -/
  | otherHalf (lead : Nat)
  /-- The letter of the other half of a pair. -/
  | otherUnit (lead : Nat)
deriving DecidableEq, Repr

/-- The character of an escape of one letter. -/
def simpleEscape? : Char → Option Char
  | '"' => some '"'
  | '\\' => some '\\'
  | '/' => some '/'
  | 'b' => some '\x08'
  | 'f' => some '\x0c'
  | 'n' => some '\n'
  | 'r' => some '\r'
  | 't' => some '\t'
  | _ => none

def isLeading (unit : Nat) : Bool := 0xD800 ≤ unit && unit ≤ 0xDBFF

def isTrailing (unit : Nat) : Bool := 0xDC00 ≤ unit && unit ≤ 0xDFFF

def pairUp (lead trail : Nat) : Char :=
  Char.ofNat (0x10000 + (lead - 0xD800) * 0x400 + (trail - 0xDC00))

/-- What a complete code unit means: characters to add, and what comes next. -/
def unitDone (strict : Bool) (unit : Nat) (lead : Option Nat) :
    Except Failure (List Char × Within) :=
  if !strict then .ok ([], .plain)
  else match lead with
    | some lead =>
        if isTrailing unit then .ok ([pairUp lead unit], .plain) else .error .malformed
    | none =>
        if isTrailing unit then .error .malformed
        else if isLeading unit then .ok ([], .otherHalf unit)
        else .ok ([Char.ofNat unit], .plain)

/-- Adds characters to the front of what was read. -/
def withFront (front : List Char) : Scanned (List Char) → Scanned (List Char)
  | .ok (text, rest) => .ok (front ++ text, rest)
  | .error failure => .error failure

/-- Reads a string from behind its opening quote. -/
def stringBody (strict : Bool) : Within → List Char → Scanned (List Char)
  | _, [] => .error .truncated
  | .plain, char :: rest =>
      if char = '"' then .ok ([], rest)
      else if char = '\\' then stringBody strict .escape rest
      else if char.toNat < 0x20 then .error .malformed
      else withFront [char] (stringBody strict .plain rest)
  | .escape, char :: rest =>
      if char = 'u' then stringBody strict (.unit 4 0 none) rest
      else match simpleEscape? char with
        | some plain => withFront [plain] (stringBody strict .plain rest)
        | none => .error .malformed
  | .unit digits value lead, char :: rest =>
      match hexDigit? char with
      | none => .error (if utf8Bytes (char :: rest) < digits then .truncated else .malformed)
      | some digit =>
          let value := value * 16 + digit
          if digits ≤ 1 then
            match unitDone strict value lead with
            | .error failure => .error failure
            | .ok (added, next) => withFront added (stringBody strict next rest)
          else stringBody strict (.unit (digits - 1) value lead) rest
  | .otherHalf lead, char :: rest =>
      if char = '\\' then stringBody strict (.otherUnit lead) rest else .error .malformed
  | .otherUnit lead, char :: rest =>
      if char = 'u' then stringBody strict (.unit 4 0 (some lead)) rest else .error .malformed

/-- Reads a string from behind its opening quote. -/
def stringText (chars : List Char) : Scanned String :=
  (stringBody true .plain chars).map fun (text, rest) => (String.ofList text, rest)

/-! ## Numbers -/

/-- A number: a whole one that fits, or any other. -/
inductive Number where
  | whole (value : Int)
  | other
deriving DecidableEq, Repr

/-- The largest significand that is kept. Further digits only count places. -/
def significandLimit : Nat := UInt64.size - 1

/-- Takes digits into a significand while it stays within the limit. -/
def addDigits (significand : Nat) : List Char → Nat × List Char
  | [] => (significand, [])
  | digit :: rest =>
      let next := significand * 10 + (digit.toNat - '0'.toNat)
      if next ≤ significandLimit then addDigits next rest else (significand, digit :: rest)

/-- Whether a number is beyond the range of double precision. -/
def isBeyondRange (significand : Nat) (exponent : Int) : Bool :=
  significand != 0 && decide (0 ≤ exponent) &&
    (decide (308 < exponent) ||
      decide (Nat.pow 2 1024 - Nat.pow 2 970 ≤ significand * Nat.pow 10 exponent.toNat))

def digitSpan (chars : List Char) : List Char × List Char :=
  (chars.takeWhile Char.isDigit, chars.dropWhile Char.isDigit)

def digitsValue (digits : List Char) : Nat :=
  digits.foldl (fun value digit => value * 10 + (digit.toNat - '0'.toNat)) 0

/-- The largest exponent that is computed with. -/
def exponentLimit : Nat := 2147483647

/-- Ends a number that has neither a fraction nor an exponent to come. -/
def endNumber (significand : Nat) (exponent : Int) (rest : List Char) : Scanned Number :=
  if isBeyondRange significand exponent then .error .malformed else .ok (.other, rest)

/-- Reads an exponent from behind its letter. -/
def exponentPart (significand : Nat) (exponent : Int) (chars : List Char) : Scanned Number :=
  let (negative, unsigned) := match chars with
    | '+' :: rest => (false, rest)
    | '-' :: rest => (true, rest)
    | rest => (false, rest)
  match unsigned with
  | [] => .error .truncated
  | first :: _ =>
      if !first.isDigit then .error .malformed
      else
        let (digits, rest) := digitSpan unsigned
        let power := digitsValue digits
        if power > exponentLimit then
          if significand ≠ 0 ∧ !negative then .error .malformed else .ok (.other, rest)
        else endNumber significand (if negative then exponent - power else exponent + power) rest

/-- Goes on where an exponent may come. -/
def exponentOrEnd (significand : Nat) (exponent : Int) : List Char → Scanned Number
  | 'e' :: rest => exponentPart significand exponent rest
  | 'E' :: rest => exponentPart significand exponent rest
  | rest => endNumber significand exponent rest

/-- Reads a fraction from behind its point. -/
def fractionPart (significand : Nat) (exponent : Int) (chars : List Char) : Scanned Number :=
  match digitSpan chars with
  | ([], []) => .error .truncated
  | ([], _ :: _) => .error .malformed
  | (digits, rest) =>
      let (kept, dropped) := addDigits significand digits
      exponentOrEnd kept (exponent - (digits.length - dropped.length)) rest

/-- Reads a number from behind its sign. -/
def number (negative : Bool) (chars : List Char) : Scanned Number :=
  match digitSpan chars with
  | ([], []) => .error .truncated
  | ([], _ :: _) => .error .malformed
  | ('0' :: _ :: _, _) => .error .malformed
  | (digits, rest) =>
      let (significand, dropped) := addDigits 0 digits
      match rest with
      | '.' :: fraction => fractionPart significand dropped.length fraction
      | 'e' :: power => exponentPart significand dropped.length power
      | 'E' :: power => exponentPart significand dropped.length power
      | _ =>
          if dropped ≠ [] then endNumber significand dropped.length rest
          else if !negative then .ok (.whole significand, rest)
          else if 0 < significand ∧ significand ≤ UInt64.size / 2 then .ok (.whole (-significand), rest)
          else .ok (.other, rest)

/-! ## Values that are passed over -/

/-- Passes over an exponent. A number that ends too early is not JSON here. -/
def passExponent (chars : List Char) : Except Failure (List Char) :=
  let unsigned := match chars with
    | '+' :: rest => rest
    | '-' :: rest => rest
    | rest => rest
  match digitSpan unsigned with
  | ([], _) => .error .malformed
  | (_, rest) => .ok rest

/-- Passes over a number from behind its sign. -/
def passNumber (chars : List Char) : Except Failure (List Char) :=
  let afterFraction : List Char → Except Failure (List Char)
    | 'e' :: power => passExponent power
    | 'E' :: power => passExponent power
    | rest => .ok rest
  match digitSpan chars with
  | ([], _) => .error .malformed
  | ('0' :: _ :: _, _) => .error .malformed
  | (_, '.' :: fraction) =>
      match digitSpan fraction with
      | ([], _) => .error .malformed
      | (_, rest) => afterFraction rest
  | (_, rest) => afterFraction rest

/-- Passes over a string from behind its opening quote. -/
def passString (chars : List Char) : Except Failure (List Char) :=
  (stringBody false .plain chars).map Prod.snd

def passKey (chars : List Char) : Except Failure (List Char) :=
  match skipBlanks chars with
  | [] => .error .truncated
  | '"' :: rest => do
      match skipBlanks (← passString rest) with
      | [] => .error .truncated
      | ':' :: after => .ok after
      | _ :: _ => .error .malformed
  | _ :: _ => .error .malformed

/-- Passes over what is left of a value, given the brackets that are open, the
innermost first. `fresh` says that the innermost has no element yet, `due` that an
element must come next. Each round consumes a character at least, so as many rounds
as characters are enough. -/
def passOpen : Nat → List Char → (fresh due : Bool) → List Char → Except Failure (List Char)
  | 0, _, _, _, _ => .error .truncated
  | rounds + 1, brackets, fresh, due, chars =>
      let element (chars : List Char) : Except Failure (List Char) :=
        match skipBlanks chars with
        | [] => .error .truncated
        | '[' :: rest => passOpen rounds ('[' :: brackets) true false rest
        | '\x7b' :: rest => passOpen rounds ('\x7b' :: brackets) true false rest
        | 'n' :: rest => do passOpen rounds brackets false false (← word "ull".toList rest)
        | 't' :: rest => do passOpen rounds brackets false false (← word "rue".toList rest)
        | 'f' :: rest => do passOpen rounds brackets false false (← word "alse".toList rest)
        | '"' :: rest => do passOpen rounds brackets false false (← passString rest)
        | '-' :: rest => do passOpen rounds brackets false false (← passNumber rest)
        | first :: rest =>
            if first.isDigit then do
              passOpen rounds brackets false false (← passNumber (first :: rest))
            else .error .malformed
      match brackets with
      | [] => if due then element chars else .ok chars
      | bracket :: outer =>
          let next (chars : List Char) : Except Failure (List Char) :=
            if bracket = '\x7b' then do element (← passKey chars) else element chars
          match skipBlanks chars with
          | [] => .error .truncated
          | char :: rest =>
              if char = (if bracket = '\x7b' then '\x7d' else ']') then
                passOpen rounds outer false false rest
              else if fresh then next (char :: rest)
              else if char = ',' then next rest
              else .error .malformed

def passValue (chars : List Char) : Except Failure (List Char) :=
  passOpen (2 * chars.length + 2) [] false true chars

end Handover.Json
