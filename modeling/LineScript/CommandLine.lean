import LineScript.Text.Case

/-!
# The command line

What the arguments of the program ask for. Options begin with a slash and are compared without
regard to case; an argument with another slash or a dot in it is the path of a script, even when
it begins with a slash.
-/

namespace LineScript.CommandLine

/-- The version of the program. -/
def version : String := "0.3.0"

/-- The line that tells the version. -/
def versionText : String := "AutoScript v" ++ version ++ "\n"

/-- The script that is run when none is named: it includes the main script of the directory. -/
def defaultScript : String := ";INTERNAL SCRIPT\n#include \"main.au3\""

/-- The path under which that script is run. -/
def defaultPath : String := "autoscript.au3"

/-- The text that explains how to use the program. -/
def helpText : String :=
  String.join ([
    "AutoScript - AutoIt-style script interpreter",
    "",
    "Usage:",
    "  autoscript                     # Run the internal script (includes main.au3)",
    "  autoscript script.au3          # Run a script",
    "  autoscript a.au3 b.au3         # Run several scripts one after another",
    "",
    "Options (case-insensitive):",
    "  /debug         Trace preprocessing, statements, variables and calls",
    "  /errorstdout   Write the error stream to standard output",
    "  /version       Show version",
    "  /help, /?      Show this help",
    "",
    "Script flags:",
    "  #debug              Enable tracing from inside a script",
    "  #include \"file\"     Insert another script",
    "  #include-once       Include this file at most once",
    "",
    "Example (hello.au3):",
    "  Func Greet($name, $greeting = \"Hello\")",
    "      Return $greeting & \", \" & $name & \"!\"",
    "  EndFunc",
    "  ConsoleWrite(Greet(\"World\") & @CRLF)"].map (· ++ "\n"))

/-- Scripts to run one after another, and how. -/
structure Batch where
  /-- The paths of the scripts, in order; none for the default script. -/
  scripts : List String := []
  /-- Traces are written. -/
  tracing : Bool := false
  /-- The error stream is written to standard output. -/
  errorsToOutput : Bool := false
deriving Repr, DecidableEq

/-- What the arguments ask for. -/
inductive Request where
  /-- To be told how to use the program. -/
  | help
  /-- To be told its version. -/
  | version
  /-- To run scripts. -/
  | run (batch : Batch)
deriving Repr, DecidableEq

/-- The report of an option that does not exist. -/
def unknownOption (argument : String) : String :=
  "Unknown option: " ++ argument ++ "\nUse /help for usage"

/-- The argument is an option. -/
def isOption (argument : String) : Bool :=
  match argument.toList with
  | '/' :: rest => !rest.isEmpty && !rest.contains '/' && !rest.contains '.'
  | _ => false

/-- What arguments ask for after earlier ones have asked for a batch. An option that does not exist
is the error. -/
def readFrom (batch : Batch) : List String → Except String Request
  | [] => .ok (.run batch)
  | argument :: rest =>
    if isOption argument then
      match Text.lower argument with
      | "/help" | "/?" => .ok .help
      | "/version" => .ok .version
      | "/debug" => readFrom { batch with tracing := true } rest
      | "/errorstdout" => readFrom { batch with errorsToOutput := true } rest
      | _ => .error argument
    else readFrom { batch with scripts := batch.scripts ++ [argument] } rest

/-- What the arguments of the program ask for. -/
def read (arguments : List String) : Except String Request := readFrom {} arguments

end LineScript.CommandLine
