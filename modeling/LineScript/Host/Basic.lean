import LineScript.Host.Clock
import LineScript.Host.FileSystem
import LineScript.Host.Network
import LineScript.Regex.Match

/-!
# The host of a script

What surrounds a running script: files, the working directory, environment variables, the clock, a
network, a generator of random numbers, what finds patterns in texts, the two console streams, and
the two switches that all scripts of a process share. A host is a value; running a script turns one
host into another. The network, the generator and the finder may be any; those that a host has
unless it is given others make scripts run.
-/

namespace LineScript

/-- What a process has written to its two streams. -/
structure Console where
  /-- Text written to standard output. -/
  output : String := ""
  /-- Text written to the error stream. -/
  errors : String := ""
deriving Repr, DecidableEq

/-- How trace lines are dated. -/
inductive Dating where
  /-- By the clock. -/
  | clock
  /-- Not at all, so that runs can be compared. -/
  | none
deriving Repr, DecidableEq

/-- A generator of random numbers. Each draw turns its state into the next one. -/
structure Generator where
  /-- A whole number between two, both included. -/
  integer : (low high : Int64) → (state : UInt64) → Int64 × UInt64
  /-- A double between two, the lower one included. -/
  double : (low high : Float) → (state : UInt64) → Float × UInt64

namespace Generator

/-- A word made from a state, and the next state. -/
def word (state : UInt64) : UInt64 × UInt64 :=
  let state := state + 0x9E3779B97F4A7C15
  let first := (state ^^^ (state >>> 30)) * 0xBF58476D1CE4E5B9
  let second := (first ^^^ (first >>> 27)) * 0x94D049BB133111EB
  (second ^^^ (second >>> 31), state)

/-- Numbers are made from the words of a counter whose bits are mixed. -/
def mixing : Generator where
  integer low high state :=
    let (word, state) := word state
    let span := (high.toInt - low.toInt + 1).toNat
    (Int64.ofInt (low.toInt + (word.toNat % span : Nat)), state)
  double low high state :=
    let (word, state) := word state
    let share := Float.ofNat (word.toNat >>> 11) / Float.ofNat (1 <<< 53)
    let drawn := low + share * (high - low)
    (if drawn < high then drawn else low, state)

end Generator

/-- The surroundings of a script. -/
structure Host where
  /-- Files and directories. -/
  files : FileSystem := .empty
  /-- The absolute path that relative paths are seen from. -/
  directory : String := "/"
  /-- Environment variables. -/
  environment : List (String × String) := []
  /-- The home directory of the account, for when no variable names one. -/
  accountHome : String := "/root"
  /-- Microseconds since the start of 1970. -/
  time : Nat := 0
  /-- What downloads give. -/
  network : Network := .offline
  /-- The number of downloads so far. -/
  downloads : Nat := 0
  /-- What makes random numbers. -/
  generator : Generator := .mixing
  /-- The state of the generator. -/
  random : UInt64 := 0
  /-- What finds patterns in texts. -/
  finder : Regex.Finder := .byAutomata
  /-- The number of the process. -/
  processId : Nat := 1
  /-- The console streams. -/
  console : Console := {}
  /-- Traces are written. -/
  tracing : Bool := false
  /-- The error stream is written to standard output. -/
  errorsToOutput : Bool := false
  /-- How trace lines are dated. -/
  dating : Dating := .clock

namespace Host

/-- Writes to standard output. -/
def writeOutput (host : Host) (text : String) : Host :=
  { host with console := { host.console with output := host.console.output ++ text } }

/-- Writes to the error stream, or to standard output when that is where errors go. -/
def writeErrors (host : Host) (text : String) : Host :=
  if host.errorsToOutput then host.writeOutput text
  else { host with console := { host.console with errors := host.console.errors ++ text } }

/-- The date in front of a trace line. -/
def stamp (host : Host) : String :=
  match host.dating with
  | .clock => (Moment.ofMicroseconds host.time).stamp
  | .none => ""

/-- Writes a trace line if traces are written. -/
def trace (host : Host) (text : Unit → String) : Host :=
  if host.tracing then host.writeOutput ("[" ++ host.stamp ++ "] vm: " ++ text () ++ "\n") else host

/-- The value of an environment variable. -/
def envValue? (host : Host) (name : String) : Option String :=
  host.environment.lookup name

/-- A path seen from the working directory. -/
def absolutePath (host : Host) (path : String) : String :=
  Path.join host.directory path

end Host

end LineScript
