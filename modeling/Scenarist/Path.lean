import Scenarist.Text.Basic

set_option autoImplicit false

/-! # Paths

A path is a root and the names below it. Writing one drops empty names and single dots, so paths that
differ only in those are equal; double dots stay until the path is resolved.

Main statement: `Path.relativeTo?_append` (what is put below a directory is found below it). -/

namespace Scenarist

/-- A path. -/
structure Path where
  /-- The slashes that an absolute path begins with: one, or exactly two; none if it is relative. -/
  root : Text
  /-- The names from the root down. -/
  names : List Text
  deriving DecidableEq, Repr

namespace Path

def ofText (text : Text) : Path :=
  let slashes := (text.takeWhile (· = '/')).length
  { root := if slashes = 0 then [] else if slashes = 2 then ['/', '/'] else ['/']
    names := (Text.splitOn '/' text).filter fun name => !name.isEmpty && name != ['.'] }

def toText (path : Path) : Text :=
  if path.root.isEmpty && path.names.isEmpty then ['.']
  else path.root ++ Text.joinWith ['/'] path.names

def isAbsolute (path : Path) : Bool := !path.root.isEmpty

def fileName (path : Path) : Text := path.names.getLast?.getD []

/-- The part of the last name from its last dot on. A name has none if the dot comes first or last. -/
def extension (path : Path) : Text :=
  let name := path.fileName
  let tail := (name.reverse.takeWhile (· ≠ '.')).length
  if tail = 0 || name.length ≤ tail + 1 then [] else name.drop (name.length - tail - 1)

def parent (path : Path) : Path := { path with names := path.names.dropLast }

/-- The paths that lead to a path from its root, itself included, the longest last. -/
def trail (path : Path) : List Path :=
  (List.range (path.names.length + 1)).map fun count => { path with names := path.names.take count }

/-- A path taken from a directory; an absolute one stays as it is. -/
def inside (directory path : Path) : Path :=
  if path.isAbsolute then path else { directory with names := directory.names ++ path.names }

/-- The names that lead from a directory to a path, if the path begins with the directory. -/
def relativeTo? (directory path : Path) : Option (List Text) :=
  if directory.root = path.root ∧ directory.names <+: path.names then
    some (path.names.drop directory.names.length)
  else none

/-- Names with every double dot taking back the name in front of it; `kept` holds the names so far,
the last one first. -/
private def climbFrom : (kept : List Text) → List Text → List Text
  | kept, [] => kept.reverse
  | kept, name :: rest => climbFrom (if name = ['.', '.'] then kept.drop 1 else name :: kept) rest

/-- The place that a path names, seen from a working directory: absolute and without double dots. -/
def resolve (cwd path : Path) : Path :=
  { root := ['/'], names := climbFrom [] (cwd.inside path).names }

def isWithin (cwd directory path : Path) : Bool :=
  ((resolve cwd directory).relativeTo? (resolve cwd path)).isSome

theorem relativeTo?_append (directory : Path) (names : List Text) :
    directory.relativeTo? { directory with names := directory.names ++ names } = some names := by
  simp [relativeTo?]

end Path

end Scenarist
