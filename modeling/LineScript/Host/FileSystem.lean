import LineScript.Host.Path
import LineScript.Text.Utf8

/-!
# Files and directories

A file system is an array of nodes, each a file with its bytes or a directory that names other
nodes. A name is removed without its node, so a file that is open stays readable after it was
deleted. A path is followed one segment at a time (`walk`); every operation says in the host's own
words why it cannot be done.
-/

namespace LineScript

open Text

/-- The number of a node. -/
abbrev NodeId := Nat

/-- A file or a directory. -/
inductive Node where
  /-- A file's content. -/
  | file (bytes : Bytes)
  /-- A directory's names. -/
  | directory (entries : List (String × NodeId))

/-- Why a path or an open file cannot be used. -/
inductive FileError where
  /-- Nothing has this name. -/
  | notFound
  /-- Something on the way is a file. -/
  | notDirectory
  /-- A directory where a file is needed. -/
  | isDirectory
  /-- A name or path beyond the host's limit. -/
  | nameTooLong
  /-- A name with a null character. -/
  | nullInName
  /-- An open file used against its mode. -/
  | badAccess
deriving Repr, DecidableEq

/-- The host's words for an error. -/
def FileError.message : FileError → String
  | notFound => "No such file or directory (os error 2)"
  | badAccess => "Bad file descriptor (os error 9)"
  | notDirectory => "Not a directory (os error 20)"
  | isDirectory => "Is a directory (os error 21)"
  | nameTooLong => "File name too long (os error 36)"
  | nullInName => "file name contained an unexpected NUL byte"

/-- All nodes; the first is the root directory. -/
structure FileSystem where
  /-- The nodes by number. -/
  nodes : Array Node

namespace FileSystem

/-- Only an empty root. -/
def empty : FileSystem := ⟨#[.directory []]⟩

/-- The names that lead from the root to a node, innermost first, each with its node. -/
abbrev Trail := List (String × NodeId)

/-- The node at the end of a trail. -/
def Trail.node (trail : Trail) : NodeId :=
  match trail with
  | (_, id) :: _ => id
  | [] => 0

/-- The absolute path of a trail. -/
def Trail.path (trail : Trail) : String :=
  "/" ++ "/".intercalate (trail.reverse.map Prod.fst)

/-- The names of a directory, or nothing for a file. -/
def entries? (files : FileSystem) (id : NodeId) : Option (List (String × NodeId)) :=
  match files.nodes[id]? with
  | some (.directory entries) => some entries
  | _ => none

/-- Follows segments from the end of a trail. -/
def walk (files : FileSystem) (trail : Trail) : List String → Except FileError Trail
  | [] => .ok trail
  | segment :: rest =>
    match files.entries? trail.node with
    | none => .error .notDirectory
    | some entries =>
      if segment = "" ∨ segment = "." then files.walk trail rest
      else if segment = ".." then files.walk trail.tail rest
      else if 255 < segment.utf8ByteSize then .error .nameTooLong
      else
        match entries.lookup segment with
        | some id => files.walk ((segment, id) :: trail) rest
        | none => .error .notFound

/-- The most bytes that a path can have. -/
def pathLimit : Nat := 4095

/-- A path as segments from the root, relative paths seen from the working directory; refuses paths
that the host cannot hold. -/
def fromRoot (directory path : String) : Except FileError (List String) :=
  if path.toList.contains '\x00' then .error .nullInName
  else if path.isEmpty then .error .notFound
  else if pathLimit < path.utf8ByteSize then .error .nameTooLong
  else .ok (Path.segments (Path.join directory path))

/-- Follows a path. -/
def resolve (files : FileSystem) (directory path : String) : Except FileError Trail := do
  files.walk [] (← fromRoot directory path)

/-- Something is at the path. -/
def hasPath (files : FileSystem) (directory path : String) : Bool :=
  (files.resolve directory path).isOk

/-- The one absolute path without steps back of what is at a path; the path itself when nothing
is. -/
def canonical (files : FileSystem) (directory path : String) : String :=
  match files.resolve directory path with
  | .ok trail => trail.path
  | .error _ => path

/-- The content of the file at a node. -/
def contentOf (files : FileSystem) (id : NodeId) : Except FileError Bytes :=
  match files.nodes[id]? with
  | some (.file bytes) => .ok bytes
  | some (.directory _) => .error .isDirectory
  | none => .error .notFound

/-- The content of the file at a path. -/
def read (files : FileSystem) (directory path : String) : Except FileError Bytes := do
  let trail ← files.resolve directory path
  files.contentOf trail.node

/-- Replaces a node. -/
def setNode (files : FileSystem) (id : NodeId) (node : Node) : FileSystem :=
  ⟨files.nodes.setIfInBounds id node⟩

/-- Adds a node under a name of a directory and returns its number. -/
def addEntry (files : FileSystem) (directory : NodeId) (name : String) (node : Node) :
    FileSystem × NodeId :=
  let id := files.nodes.size
  let entries := (files.entries? directory).getD []
  (⟨(files.nodes.setIfInBounds directory (.directory (entries ++ [(name, id)]))).push node⟩, id)

/-- Follows segments from the end of a trail, making the directories that are missing. -/
def walkMaking (files : FileSystem) (trail : Trail) :
    List String → Except FileError (FileSystem × Trail)
  | [] =>
    match files.entries? trail.node with
    | some _ => .ok (files, trail)
    | none => .error .notDirectory
  | segment :: rest =>
    match files.entries? trail.node with
    | none => .error .notDirectory
    | some entries =>
      if segment = "" ∨ segment = "." then files.walkMaking trail rest
      else if segment = ".." then files.walkMaking trail.tail rest
      else if 255 < segment.utf8ByteSize then .error .nameTooLong
      else
        match entries.lookup segment with
        | some id => files.walkMaking ((segment, id) :: trail) rest
        | none =>
          let (files, id) := files.addEntry trail.node segment (.directory [])
          files.walkMaking ((segment, id) :: trail) rest

/-- Makes a directory and all those on the way to it. -/
def makeDirectories (files : FileSystem) (directory path : String) :
    Except FileError FileSystem := do
  let (files, _) ← files.walkMaking [] (← fromRoot directory path)
  return files

/-- The file at a path, which is made empty when nothing is there. A path that ends in a slash can
only lead to a directory. -/
def openOrCreate (files : FileSystem) (directory path : String) :
    Except FileError (FileSystem × NodeId) := do
  let parts ← fromRoot directory path
  let named := (parts.reverse.dropWhile (· == "")).reverse
  let holder ← files.walk [] named.dropLast
  if (files.entries? holder.node).isNone then .error .notDirectory
  else if path.endsWith "/" then .error .isDirectory
  else
    match files.walk [] parts with
    | .ok trail =>
      match files.entries? trail.node with
      | some _ => .error .isDirectory
      | none => .ok (files, trail.node)
    | .error .notFound => .ok (files.addEntry holder.node (named.getLastD "") (.file []))
    | .error other => .error other

/-- Takes away the name of the file at a path. -/
def remove (files : FileSystem) (directory path : String) : Except FileError FileSystem := do
  let trail ← files.resolve directory path
  match trail with
  | [] => .error .isDirectory
  | (name, id) :: outer =>
    match files.entries? id with
    | some _ => .error .isDirectory
    | none =>
      let entries := (files.entries? (Trail.node outer)).getD []
      let remaining := entries.filter fun entry => entry.1 != name
      .ok (files.setNode (Trail.node outer) (.directory remaining))

/-- Bytes with some of them replaced from a position on; a gap before it is filled with zeros. -/
def splice (content : Bytes) (position : Nat) (data : Bytes) : Bytes :=
  content.take position ++ List.replicate (position - content.length) 0 ++ data ++
    content.drop (position + data.length)

/-- Everything below a directory: each file's path and content, and each directory's path. `fuel`
bounds the depth. -/
def listing (files : FileSystem) : (fuel : Nat) → NodeId → String → List (String × Option Bytes)
  | 0, _, _ => []
  | fuel + 1, id, base =>
    ((files.entries? id).getD []).flatMap fun (name, child) =>
      let path := base ++ name
      match files.nodes[child]? with
      | some (.file bytes) => [(path, some bytes)]
      | some (.directory _) => (path ++ "/", none) :: files.listing fuel child (path ++ "/")
      | none => []

/-- Everything below the directory at a path, with paths seen from it. -/
def tree (files : FileSystem) (path : String) : List (String × Option Bytes) :=
  match files.resolve "/" path with
  | .ok trail => files.listing files.nodes.size trail.node ""
  | .error _ => []

/-- Puts a file, or a directory for a path that ends in a slash, below a directory, making the
directories on the way. -/
def place (files : FileSystem) (directory path : String) (content : Bytes) : FileSystem :=
  if path.endsWith "/" then
    (files.makeDirectories directory path).toOption.getD files
  else
    let files :=
      match Path.parent? path with
      | some parent => (files.makeDirectories directory parent).toOption.getD files
      | none => files
    match files.openOrCreate directory path with
    | .ok (files, id) => files.setNode id (.file content)
    | .error _ => files

end FileSystem

end LineScript
