/-!
# Paths

A path is a text of segments between slashes. Empty segments and single dots name nothing, except
a dot that begins a relative path. The last segment that names something is the path's entry; what
stands before it is its parent.
-/

namespace LineScript.Path

/-- The stretches of a text between slashes. -/
def stretches : List Char → List (List Char)
  | [] => [[]]
  | '/' :: rest => [] :: stretches rest
  | char :: rest =>
    match stretches rest with
    | [] => [[char]]
    | first :: others => (char :: first) :: others

/-- The segments between slashes; a path that begins with a slash has an empty first one. -/
def segments (path : String) : List String := (stretches path.toList).map String.ofList

/-- A path from the root. -/
def isAbsolute (path : String) : Bool := path.startsWith "/"

/-- The segment at this position names something. -/
def names (position : Nat) (segment : String) : Bool :=
  segment ≠ "" && (segment ≠ "." || position == 0)

/-- Segments, each with whether it names something. -/
def marked (parts : List String) : List (Bool × String) :=
  parts.mapIdx fun position part => (names position part, part)

/-- Drops segments from the end until one names something. -/
def trimmed (parts : List String) : List String :=
  (((marked parts).reverse.dropWhile fun entry => !entry.1).reverse).map Prod.snd

/-- Two paths have the same segments that name something, from the same place. -/
def same (left right : String) : Bool :=
  let named (path : String) : List String :=
    ((marked (segments path)).filter Prod.fst).map Prod.snd
  isAbsolute left == isAbsolute right && named left == named right

/-- The text of segments, which is the root's when an absolute path has none left. -/
def ofSegments (absolute : Bool) (parts : List String) : String :=
  if parts.isEmpty then (if absolute then "/" else "") else "/".intercalate parts

/-- The path without its entry; nothing when it has no entry. -/
def parent? (path : String) : Option String :=
  let parts := trimmed (segments path)
  if parts.isEmpty then none
  else some (ofSegments (isAbsolute path) (trimmed parts.dropLast))

/-- The name of a path's entry, unless that is a dot or a step back. -/
def entry? (path : String) : Option String :=
  match (trimmed (segments path)).getLast? with
  | some name => if name = "." ∨ name = ".." then none else some name
  | none => none

/-- The second path as seen from the first. -/
def join (base path : String) : String :=
  if isAbsolute path || base.isEmpty then path
  else if base.endsWith "/" then base ++ path
  else base ++ "/" ++ path

end LineScript.Path
