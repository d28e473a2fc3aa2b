import LineScript.CommandLine
import LineScript.Interpreter.Run

/-!
# Running a batch of scripts

Scripts are run one after another on one host, each with a machine of its own. One that fails is
reported on the error stream and does not keep the next from being run. The status is that of the
last script: its exit code, or one when it failed.
-/

namespace LineScript

namespace Machine

/-- Runs a source that has no file of its own as a script of the working directory. -/
def runSource (fuel : Nat) (host : Host) (source : String) :
    Except Fault (EStateM.Result Stop Machine Unit) := do
  return run fuel (← ofSource host CommandLine.defaultPath source)

/-- Runs the script file at a path. -/
def runFile (fuel : Nat) (host : Host) (path : String) :
    Except Fault (EStateM.Result Stop Machine Unit) := do
  return run fuel (← ofFile host path)

end Machine

namespace Batch

/-- How a script of a batch ended. -/
structure Ended where
  /-- The host after it. -/
  host : Host
  /-- The status it leaves. -/
  status : Int32

/-- Reports why a script failed. -/
def failed (host : Host) (path report : String) : Ended :=
  { host := host.writeErrors (path ++ ": " ++ report ++ "\n"), status := 1 }

/-- The machine of a script, or the report why there is none. -/
def load (host : Host) (path : String) (isDefault : Bool) : Except String Machine :=
  if isDefault then (Machine.ofSource host path CommandLine.defaultScript).mapError Fault.display
  else
    match host.files.read host.directory path with
    | .error reason => .error ("cannot read script '" ++ path ++ "': " ++ reason.message)
    | .ok bytes => (Machine.ofSource host path (Text.Utf8.decode bytes)).mapError Fault.display

/-- Runs one script. There is no result when its fuel does not suffice or the program crashes. -/
def runOne (fuel : Nat) (host : Host) (path : String) (isDefault : Bool) : Option Ended :=
  match load host path isDefault with
  | .error report => some (failed host path report)
  | .ok machine =>
    match Machine.run fuel machine with
    | .ok _ after => some { host := after.host, status := after.exitCode }
    | .error (.fault fault) after => some (failed after.host path fault.display)
    | .error .outOfFuel _ => none

/-- Runs scripts one after another, after one that left a status. -/
def runAll (fuel : Nat) (before : Ended) : List String → Option Ended
  | [] => some before
  | path :: paths => do
    let ended ← runOne fuel before.host path false
    runAll fuel ended paths

/-- Runs the scripts that the command line names, or the default one. -/
def run (fuel : Nat) (host : Host) (batch : CommandLine.Batch) : Option Ended :=
  let host := { host with tracing := batch.tracing, errorsToOutput := batch.errorsToOutput }
  if batch.scripts.isEmpty then runOne fuel host CommandLine.defaultPath true
  else runAll fuel { host, status := 0 } batch.scripts

/-- Does what the arguments of the program ask for. -/
def answer (fuel : Nat) (host : Host) (arguments : List String) : Option Ended :=
  match CommandLine.read arguments with
  | .ok .help => some { host := host.writeOutput CommandLine.helpText, status := 0 }
  | .ok .version => some { host := host.writeOutput CommandLine.versionText, status := 0 }
  | .ok (.run batch) => run fuel host batch
  | .error argument =>
    let report := CommandLine.unknownOption argument ++ "\n"
    let console := { host.console with errors := host.console.errors ++ report }
    some { host := { host with console }, status := 2 }

/-- The status that the operating system sees: the lowest eight bits. -/
def Ended.code (ended : Ended) : UInt8 := ended.status.toInt8.toUInt8

end Batch

end LineScript
