/-!
Contract: reading switches from a command line.

A switch is written `--name` or, if it has a letter, `-x`. Its value follows as the
next word, behind `=`, or right behind the letter; letters without a value can be
written together. A word that starts with a dash is never the value that follows,
and behind `--` every word is taken as it is.

The value of a switch is looked at when the next switch comes or the line ends. So a
word that fits nowhere is refused before the value to its left is.
-/

set_option autoImplicit false

namespace Handover.Command

/-- Why a command line is not carried out. -/
inductive Refusal where
  | help
  /-- The version of the named program was asked for. -/
  | version (program : String)
  | noCommand
  | unknownCommand
  | unknownArgument
  | noValue
  | unlistedValue
  | invalidValue
  /-- A switch has a value that takes none. -/
  | needlessValue
  | repeated
  /-- A switch that must be given is not. -/
  | missingArgument
deriving DecidableEq, Repr

/-- What a switch does to the settings of a command. -/
inductive Action (σ : Type) where
  | flag (set : σ → σ)
  | value (set : σ → String → Except Refusal σ)
  | leave (refusal : Refusal)

structure Switch (σ : Type) where
  name : String
  letter : Option Char
  action : Action σ

/-- A switch whose value is still to be looked at. -/
structure Pending (σ : Type) where
  name : String
  set : σ → String → Except Refusal σ
  value : Option String

/-- How far a command line was read. -/
structure Reading (σ : Type) where
  settings : σ
  /-- The switches that were given. -/
  given : List String
  pending : Option (Pending σ)
  /-- Whether `--` was read. -/
  escaped : Bool

namespace Reading

variable {σ : Type}

def start (settings : σ) : Reading σ := ⟨settings, [], none, false⟩

def take (reading : Reading σ) (name : String) (set : σ → String → Except Refusal σ)
    (value : String) : Except Refusal (Reading σ) :=
  if reading.given.contains name then .error .repeated
  else (set reading.settings value).map fun settings =>
    { reading with settings := settings, given := name :: reading.given }

/-- Takes the value of the switch that is still to be looked at. -/
def resolve (reading : Reading σ) : Except Refusal (Reading σ) :=
  match reading.pending with
  | none => .ok reading
  | some ⟨_, _, none⟩ => .error .noValue
  | some ⟨name, set, some value⟩ => { reading with pending := none }.take name set value

/-- Takes a switch that has its value with it, or has none. -/
def takeSwitch (reading : Reading σ) (switch : Switch σ) (value : Option String) :
    Except Refusal (Reading σ) := do
  match switch.action, value with
  | .leave refusal, none => do
      let _ ← reading.resolve
      .error refusal
  | .flag set, none => do
      (← reading.resolve).take switch.name (fun settings _ => .ok (set settings)) ""
  | .value set, none => return { ← reading.resolve with pending := some ⟨switch.name, set, none⟩ }
  | .value set, some value => do (← reading.resolve).take switch.name set value
  | .leave _, some _ => .error .needlessValue
  | .flag _, some _ => .error .needlessValue

/-- Takes a word behind two dashes. -/
def takeName (switches : List (Switch σ)) (reading : Reading σ) (word : List Char) :
    Except Refusal (Reading σ) :=
  let name := String.ofList (word.takeWhile (· != '='))
  let value := match word.dropWhile (· != '=') with
    | [] => none
    | _ :: rest => some (String.ofList rest)
  match switches.find? fun switch => switch.name == name with
  | some switch => reading.takeSwitch switch value
  | none => .error .unknownArgument

/-- Takes letters behind one dash. -/
def takeLetters (switches : List (Switch σ)) : Reading σ → List Char → Except Refusal (Reading σ)
  | reading, [] => .ok reading
  | reading, letter :: rest =>
      match switches.find? fun switch => switch.letter == some letter with
      | none => .error .unknownArgument
      | some switch =>
          match switch.action, rest with
          | .value _, [] => reading.takeSwitch switch none
          | .value _, '=' :: value => reading.takeSwitch switch (some (String.ofList value))
          | .value _, value => reading.takeSwitch switch (some (String.ofList value))
          | _, _ => do takeLetters switches (← reading.takeSwitch switch none) rest

/-- Takes a word that is not a switch: only a switch without a value has use for it. -/
def takePlain (reading : Reading σ) (word : String) : Except Refusal (Reading σ) :=
  match reading.pending with
  | some ⟨name, set, none⟩ => .ok { reading with pending := some ⟨name, set, some word⟩ }
  | _ => .error .unknownArgument

def takeWord (switches : List (Switch σ)) (reading : Reading σ) (word : String) :
    Except Refusal (Reading σ) :=
  if reading.escaped then .error .unknownArgument
  else match word.toList with
    | ['-', '-'] => .ok { reading with escaped := true }
    | '-' :: '-' :: rest => reading.takeName switches rest
    | '-' :: letter :: rest => reading.takeLetters switches (letter :: rest)
    | _ => reading.takePlain word

/-- The settings that a command line makes out of those it starts from. -/
def readAll (switches : List (Switch σ)) (settings : σ) (words : List String) :
    Except Refusal σ := do
  let reading ← words.foldlM (takeWord switches) (.start settings)
  return (← reading.resolve).settings

end Reading

end Handover.Command
