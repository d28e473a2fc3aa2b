import LineScript.Library.Args
import LineScript.Machine.Objects
import LineScript.Machine.Variables

/-!
# Library: files and downloads

A file is named by its path or by the handle that opening it gave. The low bits of a mode say how
it is opened: one appends, two overwrites, anything else reads; eight makes missing directories. What an
address leads to is the network's to say.
-/

namespace LineScript.Library

open Machine Text

/-- What an open file may be used for. -/
inductive Access where
  /-- Reading. -/
  | read
  /-- Writing at the end. -/
  | append
  /-- Writing from the start of an emptied file. -/
  | overwrite
deriving Repr, DecidableEq

/-- The access that a mode asks for. -/
def Access.ofMode (mode : Int64) : Access :=
  if mode &&& 7 = 1 then .append else if mode &&& 7 = 2 then .overwrite else .read

/-- Opens the file at a path: the files after that, and the file's node. -/
def openNode (host : Host) (access : Access) (path : String) :
    Except FileError (FileSystem × NodeId) := do
  match access with
  | .read =>
    let trail ← host.files.resolve host.directory path
    return (host.files, trail.node)
  | .append => host.files.openOrCreate host.directory path
  | .overwrite =>
    let (files, node) ← host.files.openOrCreate host.directory path
    return (files.setNode node (.file []), node)

/-- Replaces the files of the host. -/
def setFiles (files : FileSystem) : Exec Unit :=
  modify fun machine => { machine with host := { machine.host with files } }

/-- Makes the directories on the way to a path when the mode asks for it. -/
def makeParents (host : Host) (mode : Int64) (path : String) : Except FileError FileSystem :=
  if mode &&& 8 ≠ 0 then
    match Path.parent? path with
    | some parent =>
      if parent.isEmpty then .ok host.files
      else host.files.makeDirectories host.directory parent
    | none => .ok host.files
  else .ok host.files

/-- Opens a file and returns its handle, or minus one with the error register set. -/
def fileOpen (args : Args) : Exec Value := do
  let path := args.text 0
  let mode := args.int 1
  match makeParents (← get).host mode path with
  | .error _ =>
    Machine.setError 1
    return .number (-1)
  | .ok files =>
    setFiles files
    match openNode (← get).host (.ofMode mode) path with
    | .error reason =>
      Exec.trace fun _ => "file: cannot open " ++ path ++ ": " ++ reason.message
      Machine.setError 1
      return .number (-1)
    | .ok (files, node) =>
      setFiles files
      let id ← addObject (.file { node, path, mode })
      Exec.trace fun _ =>
        "file: opened " ++ path ++ " (mode " ++ toString mode.toInt ++ ") as " ++
          HandleId.display id
      return .handle id

/-- The bytes that a read from an open file gives, and the file after it. Reading none always
succeeds. -/
def readOpen (files : FileSystem) (file : OpenFile) (count : Int64) :
    Except FileError (Bytes × OpenFile) :=
  if count = 0 then .ok ([], file)
  else
    match Access.ofMode file.mode with
    | .read => do
      let content ← files.contentOf file.node
      let rest := content.drop file.offset
      let bytes := if count < 0 then rest else rest.take count.toInt.toNat
      return (bytes, { file with offset := file.offset + bytes.length })
    | _ => .error .badAccess

/-- Reads from a file as text. Nothing read where something was asked for sets the error register
to minus one, a file that cannot be read sets it to one. -/
def fileRead (args : Args) : Exec Value := do
  let count := args.int 1
  let machine ← get
  let failed : Exec Value := do
    Machine.setError 1
    return .string ""
  let finish (bytes : Bytes) : Exec Value := do
    if bytes = [] ∧ count ≠ 0 then
      Machine.setError (-1)
    return .string (Utf8.decode bytes)
  match args.value 0 with
  | .handle id =>
    match machine.heap.get? id with
    | some (.file file) =>
      match readOpen machine.host.files file count with
      | .ok (bytes, file) =>
        setObject id (.file file)
        finish bytes
      | .error _ => failed
    | _ => failed
  | other =>
    match machine.host.files.read machine.host.directory other.display with
    | .ok bytes => finish bytes
    | .error _ => failed

/-- The files after bytes were written to a node, at an offset or at its end, and where the next
write takes place. -/
def writeNode (files : FileSystem) (node : NodeId) (offset : Option Nat) (data : Bytes) :
    Except FileError (FileSystem × Nat) := do
  let content ← files.contentOf node
  let offset := offset.getD content.length
  return (files.setNode node (.file (FileSystem.splice content offset data)), offset + data.length)

/-- The files after bytes were written to an open file, and the file after it. Writing nothing
succeeds even where the mode is for reading only, unless the mode is zero. -/
def writeOpen (files : FileSystem) (file : OpenFile) (data : Bytes) :
    Except FileError (FileSystem × OpenFile) :=
  if file.mode &&& 7 = 0 then .error .badAccess
  else if data = [] then .ok (files, file)
  else
    match Access.ofMode file.mode with
    | .append => do
      let (files, offset) ← writeNode files file.node none data
      return (files, { file with offset })
    | .overwrite => do
      let (files, offset) ← writeNode files file.node (some file.offset) data
      return (files, { file with offset })
    | .read => .error .badAccess

/-- Writes to an open file or to the end of the file at a path, and tells whether it could. -/
def writeTo (target : Value) (data : Bytes) : Exec Value := do
  let machine ← get
  let failed : Exec Value := do
    Machine.setError 1
    return .number 0
  match target with
  | .handle id =>
    match machine.heap.get? id with
    | some (.file file) =>
      match writeOpen machine.host.files file data with
      | .ok (files, file) =>
        setFiles files
        setObject id (.file file)
        return .number 1
      | .error _ => failed
    | _ => failed
  | other =>
    match openNode machine.host .append other.display with
    | .ok (files, node) =>
      setFiles files
      match writeNode files node none data with
      | .ok (files, _) =>
        setFiles files
        return .number 1
      | .error _ => failed
    | .error _ => failed

/-- Writes the bytes of a value. -/
def fileWrite (args : Args) : Exec Value := writeTo (args.value 0) (args.value 1).asBytes

/-- Writes a text, with a line end unless it ends with one. -/
def fileWriteLine (args : Args) : Exec Value :=
  let line := args.text 1
  let ended := line.endsWith "\n" || line.endsWith "\r"
  writeTo (args.value 0) (Utf8.encode (if ended then line else line ++ "\n"))

/-- Closes an open file. -/
def fileClose (args : Args) : Exec Value := do
  match args.value 0 with
  | .handle id =>
    match (← get).heap.get? id with
    | some (.file file) =>
      let _ ← destroyObject id
      Exec.trace fun _ => "file: closed " ++ file.path
      return .number 1
    | _ => return .number 0
  | _ => return .number 0

/-- Deletes the file at a path. -/
def fileDelete (args : Args) : Exec Value := do
  let host := (← get).host
  match host.files.remove host.directory (args.text 0) with
  | .ok files =>
    setFiles files
    return .number 1
  | .error _ => return .number 0

/-- Whether a path leads anywhere. -/
def fileExists (args : Args) : Exec Value := do
  let host := (← get).host
  return .number (if host.files.hasPath host.directory (args.text 0) then 1 else 0)

/-- Asks the network of the host for what an address leads to. -/
def download (address : String) : Exec (Except String Bytes) := do
  let machine ← get
  let answer := machine.host.network machine.host.downloads address
  set { machine with host := { machine.host with downloads := machine.host.downloads + 1 } }
  return answer

/-- Downloads what an address leads to, with its length in the extended register. -/
def inetRead (args : Args) : Exec Value := do
  let address := args.text 0
  match ← download address with
  | .ok bytes =>
    Exec.trace fun _ => "inet: " ++ address ++ " -> " ++ toString bytes.length ++ " bytes"
    Machine.setExtended (Int64.ofNat bytes.length)
    return .binary bytes
  | .error report =>
    Exec.trace fun _ => "inet: " ++ address ++ " failed: " ++ report
    Machine.setError 1
    return .string ""

end LineScript.Library
