import LineScript.Machine.Variables

/-!
# Macros

Names after an at sign stand for line ends, registers, places, the environment and the clock. They
are compared without regard to case.
-/

namespace LineScript.Machine

/-- The home directory: the variable's, or the account's when that is missing or empty. -/
def homeDirectory (host : Host) : String :=
  match host.envValue? "HOME" with
  | some path => if path.isEmpty then host.accountHome else path
  | none => host.accountHome

/-- The directory for settings: the variable's when it is absolute, else one below the home
directory. -/
def settingsDirectory (host : Host) : String :=
  match host.envValue? "XDG_CONFIG_HOME" with
  | some path =>
    if Path.isAbsolute path then path else Path.join (homeDirectory host) ".config"
  | none => Path.join (homeDirectory host) ".config"

/-- The value of the first variable that is set. -/
def firstVariable (host : Host) (names : List String) : String :=
  (names.findSome? host.envValue?).getD ""

/-- The value of a macro, by its name in small letters. -/
def macroValue? (machine : Machine) (key : String) : Option Value :=
  let host := machine.host
  let moment := Moment.ofMicroseconds host.time
  match key with
  | "cr" => some (.string "\r")
  | "lf" => some (.string "\n")
  | "crlf" => some (.string "\r\n")
  | "tab" => some (.string "\t")
  | "error" => some (.number machine.registers.error)
  | "extended" => some (.number machine.registers.extended)
  | "numparams" => some (.number (Int64.ofNat machine.numParams))
  | "scriptdir" => some (.string ((Path.parent? machine.scriptPath).getD ""))
  | "scriptname" => some (.string ((Path.entry? machine.scriptPath).getD ""))
  | "scriptfullpath" => some (.string machine.scriptPath)
  | "workingdir" => some (.string host.directory)
  | "tempdir" => some (.string ((host.envValue? "TMPDIR").getD "/tmp"))
  | "userprofiledir" => some (.string (homeDirectory host))
  | "appdatadir" => some (.string (settingsDirectory host))
  | "desktopdir" => some (.string "")
  | "computername" => some (.string (firstVariable host ["COMPUTERNAME", "HOSTNAME"]))
  | "username" => some (.string (firstVariable host ["USERNAME", "USER"]))
  | "ostype" => some (.string "linux")
  | "autoitpid" => some (.number (Int64.ofNat host.processId))
  | "year" => some (.string (Moment.padded 4 moment.year))
  | "mon" => some (.string (Moment.padded 2 moment.month))
  | "mday" => some (.string (Moment.padded 2 moment.day))
  | "hour" => some (.string (Moment.padded 2 moment.hour))
  | "min" => some (.string (Moment.padded 2 moment.minute))
  | "sec" => some (.string (Moment.padded 2 moment.second))
  | "msec" => some (.string (Moment.padded 3 (moment.microsecond / 1000)))
  | "wday" => some (.number (Int64.ofNat moment.weekday))
  | "yday" => some (.string (Moment.padded 3 moment.yearDay))
  | _ => none

/-- The value of a macro used at a line. -/
def macroValue (name : String) (line : Nat) : Exec Value := do
  match (← get).macroValue? (Text.lower name) with
  | some value => return value
  | none => Exec.fail (.macroUnknown name) line

end LineScript.Machine
