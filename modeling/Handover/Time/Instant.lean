import Handover.Time.Calendar

/-!
Contract: points in time.

Owns: instants with nanosecond resolution, the age of one instant at another,
and the two ways in which an instant is written on a line for people or keyed
by its day. The text format for exchange is owned by `Handover.Time.Stamp`.
-/

set_option autoImplicit false

namespace Handover.Time

/-- Seconds since 1970-01-01 00:00 UTC, and nanoseconds into that second. A
leap second continues its predecessor beyond a billion nanoseconds. -/
structure Instant where
  second : Int
  nano : Nat
deriving DecidableEq, Repr, Inhabited

namespace Instant

def nanosPerSecond : Int := 1000000000

def nanosPerMilli : Int := 1000000

/-- Nanoseconds since 1970-01-01 00:00 UTC. -/
def nanos (instant : Instant) : Int := instant.second * nanosPerSecond + instant.nano

def ofNanos (nanos : Int) : Instant :=
  ⟨nanos / nanosPerSecond, (nanos % nanosPerSecond).toNat⟩

def ofMillis (millis : Int) : Instant := ofNanos (millis * nanosPerMilli)

/-- Whole milliseconds since 1970-01-01 00:00 UTC, rounded down. -/
def millis (instant : Instant) : Int := instant.nanos / nanosPerMilli

/-- The instant `count` nanoseconds later. -/
def plusNanos (instant : Instant) (count : Nat) : Instant := ofNanos (instant.nanos + count)

def date (instant : Instant) : Date := .ofDays (instant.second / 86400)

/-- The second of the day, from 0 to 86399. -/
def secondOfDay (instant : Instant) : Nat := (instant.second % 86400).toNat

def inLeapSecond (instant : Instant) : Bool := instant.nano ≥ 1000000000

/-- How many nanoseconds `earlier` lies before `later`. A leap second that one of the two is in
counts as a second of its own if the other one is at a later time of day. -/
def age (earlier later : Instant) : Int :=
  let leap :=
    if earlier.inLeapSecond && decide (earlier.secondOfDay < later.secondOfDay) then nanosPerSecond
    else if later.inLeapSecond && decide (later.secondOfDay < earlier.secondOfDay) then -nanosPerSecond
    else 0
  later.nanos - earlier.nanos + leap

/-- Hours, minutes and seconds with colons. A leap second is second 60. -/
def clockText (instant : Instant) : String :=
  let second := instant.secondOfDay
  let leap := if instant.inLeapSecond then 1 else 0
  padded 2 (second / 3600) ++ ":" ++ padded 2 (second / 60 % 60) ++ ":" ++
    padded 2 (second % 60 + leap)

/-- Date and time of day with a space between, as written into messages. -/
def lineText (instant : Instant) : String := instant.date.key ++ " " ++ instant.clockText

def dayKey (instant : Instant) : String := instant.date.key

end Instant

end Handover.Time
