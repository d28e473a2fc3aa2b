import LineScript.Batch

/-!
# The program

A batch runs on a host that is a value. This module fills that value from the machine it is started
on, and afterwards brings back what changed: the files, the two streams and the status.
-/

namespace LineScript.Main

/-- More steps than a script takes that is worth waiting for. -/
def fuel : Nat := 1000000000000000000

/-- How deep directories are looked into. -/
def maxDepth : Nat := 64

/-- The result of an action, or a given one when it fails. -/
def orElse {α : Type} (action : IO α) (otherwise : α) : IO α :=
  try action catch _ => pure otherwise

/-- Adds what stands at an absolute path, and everything below it, as far as it can be read. -/
def snapshot (files : FileSystem) : (depth : Nat) → (path : String) → IO FileSystem
  | 0, _ => return files
  | depth + 1, path => do
    let place := (← IO.currentDir) / path
    if ← place.isDir then
      let names ← orElse ((·.map (·.fileName)) <$> place.readDir) #[]
      let mut known := files.place "/" (path ++ "/") []
      for name in names do
        known ← snapshot known depth (Path.join path name)
      return known
    else
      match ← orElse (some <$> IO.FS.readBinFile place) none with
      | some bytes => return files.place "/" path bytes.toList
      | none => return files

/-- The directories whose files the scripts of the arguments may reach: the working directory, and
those of scripts that stand elsewhere. -/
def reachable (directory : String) (arguments : List String) : List String :=
  match CommandLine.read arguments with
  | .ok (.run batch) =>
    let elsewhere := batch.scripts.filterMap fun script =>
      (Path.parent? (Path.join directory script)).filter fun parent =>
        !(parent ++ "/").startsWith (directory ++ "/")
    (directory :: elsewhere).eraseDups
  | _ => []

/-- Writes files that are new or different, makes directories that are new, and deletes files that
are gone. -/
def bringBack (before after : FileSystem) (path : String) : IO Unit := do
  let old := before.tree path
  let new := after.tree path
  for (name, content) in new do
    let place := (← IO.currentDir) / Path.join path name
    match content with
    | none => if (old.lookup name).isNone then IO.FS.createDirAll place
    | some bytes =>
      if old.lookup name != some (some bytes) then
        IO.FS.writeBinFile place ⟨bytes.toArray⟩
  for (name, content) in old do
    if content.isSome && (new.lookup name).isNone then
      IO.FS.removeFile ((← IO.currentDir) / Path.join path name)

/-- The environment variables that scripts can ask for. -/
def environmentNames : List String :=
  ["HOME", "TMPDIR", "XDG_CONFIG_HOME", "COMPUTERNAME", "HOSTNAME", "USERNAME", "USER"]

/-- The number after a word in a text, or at its start for the empty word. -/
def numberAfter (word text : String) : Nat :=
  let rest := if word.isEmpty then text else ((text.splitOn word).drop 1).headD ""
  (rest.toList.dropWhile (· == ' ')).takeWhile Char.isDigit |>.foldl
    (fun n c => n * 10 + (c.toNat - '0'.toNat)) 0

/-- Microseconds since the start of 1970, from when the system was started and how long it has been
running. -/
def clock : IO Nat := do
  let started ← orElse (IO.FS.readFile "/proc/stat") ""
  let running ← orElse (IO.FS.readFile "/proc/uptime") ""
  let fraction := numberAfter "." running
  return (numberAfter "btime" started + numberAfter "" running) * 1000000 + fraction % 100 * 10000

/-- The host on which the program was started. -/
def host (arguments : List String) : IO Host := do
  let directory := (← IO.currentDir).toString
  let mut files := FileSystem.empty
  for path in reachable directory arguments do
    files ← snapshot files maxDepth path
  let environment ← environmentNames.filterMapM fun name => do
    return (← IO.getEnv name).map (name, ·)
  let seed := (← IO.getRandomBytes 8).toList.foldl (fun n byte => n * 256 + byte.toUInt64) 0
  let process ← orElse (IO.FS.readFile "/proc/self/stat") ""
  return { files, directory, environment, random := seed, time := ← clock,
           processId := numberAfter "" process }

end LineScript.Main

open LineScript in
/-- Does what the arguments ask for and returns the status. -/
def main (arguments : List String) : IO UInt32 := do
  let host ← Main.host arguments
  match Batch.answer Main.fuel host arguments with
  | none => return 1
  | some ended =>
    for path in Main.reachable host.directory arguments do
      Main.bringBack host.files ended.host.files path
    IO.print ended.host.console.output
    IO.eprint ended.host.console.errors
    return ended.code.toUInt32
