import Handover.Command.Switch

/-!
Contract: the command line of the program.

Owns: the commands with their switches and defaults, and the reading of a line.
-/

set_option autoImplicit false

namespace Handover

namespace Command

inductive Display where
  | table
  | json
deriving DecidableEq, Repr

/-- What a client has to know. -/
structure Client where
  address : String
  display : Display
deriving DecidableEq, Repr

structure Server where
  portNumber : Nat
  advertise : Option String
  peers : String
  leader : Bool
  pageSize : Nat
  timeoutMillis : Nat
deriving DecidableEq, Repr

end Command

inductive Command where
  | server (server : Command.Server)
  | migrate (client : Command.Client) (node : String)
  | trigger (client : Command.Client)
  | status (client : Command.Client)
deriving DecidableEq, Repr

namespace Command

def programName : String := "jobwarden"

def programVersion : String := "0.1.0"

/-! ## Values -/

/-- A number in decimal digits, which may have a plus sign, and a minus sign if
negative numbers are numbers of the wanted kind. -/
def readInt? (signed : Bool) (text : String) : Option Int :=
  let value (digits : List Char) : Option Int :=
    if digits ≠ [] ∧ digits.all Char.isDigit then
      some (digits.foldl (fun number digit => number * 10 + (digit.toNat - '0'.toNat : Nat)) 0)
    else none
  match text.toList with
  | '+' :: digits => value digits
  | '-' :: digits => if signed then (value digits).map fun number => -number else none
  | digits => value digits

def readCount (signed : Bool) (most : Nat) (text : String) : Except Refusal Nat :=
  match readInt? signed text with
  | some number => if 0 ≤ number ∧ number ≤ most then .ok number.toNat else .error .invalidValue
  | none => .error .invalidValue

def portLimit : Nat := UInt16.size - 1

def countLimit : Nat := UInt64.size - 1

def readDisplay (text : String) : Except Refusal Display :=
  if text = "table" then .ok .table
  else if text = "json" then .ok .json
  else .error .unlistedValue

/-! ## Switches -/

/-- The switches that every command has. -/
def commonSwitches (σ : Type) (program : String) : List (Switch σ) :=
  [⟨"help", some 'h', .leave .help⟩, ⟨"version", some 'V', .leave (.version program)⟩]

def Server.start : Server where
  portNumber := 8090
  advertise := none
  peers := ""
  leader := false
  pageSize := 1000
  timeoutMillis := 10000

def Server.switches : List (Switch Server) :=
  [⟨"port", none, .value fun server text =>
      (readCount true portLimit text).map fun number => { server with portNumber := number }⟩,
    ⟨"advertise", none, .value fun server text => .ok { server with advertise := some text }⟩,
    ⟨"peers", none, .value fun server text => .ok { server with peers := text }⟩,
    ⟨"leader", none, .flag fun server => { server with leader := true }⟩,
    ⟨"page-size", none, .value fun server text =>
      (readCount false countLimit text).map fun size => { server with pageSize := size }⟩,
    ⟨"heartbeat-timeout-ms", none, .value fun server text =>
      (readCount false countLimit text).map fun millis => { server with timeoutMillis := millis }⟩]

/-- The settings of a client command, and the node that it is about. -/
structure ClientStart where
  client : Client
  node : Option String

def ClientStart.start : ClientStart := ⟨⟨"http://127.0.0.1:8090", .table⟩, none⟩

def clientSwitches : List (Switch ClientStart) :=
  [⟨"addr", some 'a', .value fun start text =>
      .ok { start with client := { start.client with address := text } }⟩,
    ⟨"output", some 'o', .value fun start text =>
      (readDisplay text).map fun display =>
        { start with client := { start.client with display := display } }⟩]

def nodeSwitch : Switch ClientStart :=
  ⟨"node", none, .value fun start text => .ok { start with node := some text }⟩

/-! ## Commands -/

/-- Reads what follows the name of a command. -/
def readClient (program : String) (more : List (Switch ClientStart)) (words : List String) :
    Except Refusal ClientStart :=
  Reading.readAll (commonSwitches _ program ++ clientSwitches ++ more) .start words

def readServer (program : String) (words : List String) : Except Refusal Command :=
  (Reading.readAll (commonSwitches _ program ++ Server.switches) .start words).map .server

def readMigrate (program : String) (words : List String) : Except Refusal Command := do
  let read ← readClient program [nodeSwitch] words
  match read.node with
  | some node => .ok (.migrate read.client node)
  | none => .error .missingArgument

def readTrigger (program : String) (words : List String) : Except Refusal Command :=
  (readClient program [] words).map fun read => .trigger read.client

def readStatus (program : String) (words : List String) : Except Refusal Command :=
  (readClient program [] words).map fun read => .status read.client

def commands : List (String × (String → List String → Except Refusal Command)) :=
  [("server", readServer), ("migrate", readMigrate), ("trigger", readTrigger),
    ("status", readStatus)]

/-- Whether a word is the name of a command or of the help on commands. -/
def isCommandName (word : String) : Bool := word == "help" || (commands.lookup word).isSome

/-- What help on the given words comes to: only commands have help. -/
def helpOn : List String → Refusal
  | [] => .help
  | [word] => if isCommandName word then .help else .unknownCommand
  | _ :: _ => .unknownCommand

/-- The name under which a command shows its version. -/
def programOf (command : String) : String := programName ++ "-" ++ command

/-- What a word that starts with a dash comes to in front of a command. -/
def refuseSwitch (word : String) : Refusal :=
  match Reading.takeWord (commonSwitches Unit programName) (.start ()) word with
  | .error refusal => refusal
  | .ok _ => .noCommand

def read : List String → Except Refusal Command
  | [] => .error .noCommand
  | ["--"] => .error .noCommand
  | "--" :: word :: _ =>
      .error (if isCommandName word then .unknownArgument else .unknownCommand)
  | word :: rest =>
      if word = "help" then .error (helpOn rest)
      else match commands.lookup word with
        | some readRest => readRest (programOf word) rest
        | none =>
            match word.toList with
            | '-' :: _ :: _ => .error (refuseSwitch word)
            | _ => .error .unknownCommand

/-- The exit code of a command line that is not carried out. -/
def Refusal.exitCode : Refusal → Nat
  | .help => 0
  | .version _ => 0
  | _ => 2

/-- The line that shows the version of a program. -/
def versionLine (program : String) : String := program ++ " " ++ programVersion ++ "\n"

end Command

end Handover
