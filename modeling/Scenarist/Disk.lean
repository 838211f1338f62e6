import Scenarist.Record
import Scenarist.Store
import Scenarist.Text.Utf8

set_option autoImplicit false

/-! # Disks

A disk is a tree of directories and files, seen from a working directory. A path is followed name by
name: double dots lead back to the directory above, every name but the last must be a directory's, and
nothing is skipped over, so that `missing/..` leads nowhere.

Texts are kept as UTF-8. A byte order mark is no part of the text, and a file that has one keeps it when
it is written anew.

Main statements: `Disk.Node.get?_put` (what is put into a tree is found there) and
`Disk.decode_encode` (what is written is read back). -/

namespace Scenarist

/-- What is under a name. -/
inductive Disk.Node where
  | file (bytes : List UInt8)
  | directory (entries : List (Text × Disk.Node))

/-- A disk. -/
structure Disk where
  /-- The names that lead from the root to the working directory. -/
  cwd : List Text := []
  root : Disk.Node := .directory []

/-- Why something on a disk could not be done. -/
inductive DiskError where
  /-- There is nothing under this path. -/
  | missing
  /-- It is a directory. -/
  | isDirectory
  /-- A file is on the way, where only directories may be. -/
  | notDirectory
  /-- A file is where a directory should be made. -/
  | occupied
  /-- The file is no UTF-8 text. -/
  | undecodable
  deriving DecidableEq, Repr

def DiskError.message : DiskError → Text
  | .missing => "there is no such file".toList
  | .isDirectory => "it is a directory".toList
  | .notDirectory => "a file is where a directory should be".toList
  | .occupied => "a file is in the way of a directory".toList
  | .undecodable => StoreError.undecodable.message

namespace Disk

/-! ## Trees -/

namespace Node

def isDirectory : Node → Bool
  | .file _ => false
  | .directory _ => true

/-- What names lead to. -/
def get? : List Text → Node → Option Node
  | [], node => some node
  | _ :: _, .file _ => none
  | name :: names, .directory entries => (Table.get? entries name).bind (get? names)

/-- The tree with a node where names lead to; directories on the way are made. A file on the way stays
as it is. -/
def put (new : Node) : List Text → Node → Node
  | [], _ => new
  | _ :: _, .file bytes => .file bytes
  | name :: names, .directory entries =>
    .directory (Table.put name (put new names ((Table.get? entries name).getD (.directory []))) entries)

/-- What is put into a tree is found there, unless a file is on the way. -/
theorem get?_put (new : Node) (names : List Text) (node : Node)
    (clear : ∀ before after bytes, names = before ++ after → after ≠ [] →
      get? before node ≠ some (.file bytes)) :
    get? names (put new names node) = some new := by
  induction names generalizing node with
  | nil => rfl
  | cons name names ih =>
    cases node with
    | file bytes => exact absurd rfl (clear [] (name :: names) bytes rfl (by simp))
    | directory entries =>
      simp only [put, get?, Table.get?_put, if_true, Option.bind_some]
      apply ih
      -- a file on the way from the child is one on the way from here
      intro before after bytes split filled found
      cases known : Table.get? entries name with
      | none =>
        rw [known] at found
        cases before with
        | nil => simp [get?] at found
        | cons _ _ => simp [get?, Table.get?] at found
      | some child =>
        rw [known] at found
        apply clear (name :: before) after bytes (by simp [split]) filled
        simpa [get?, known] using found

/-- The names of directories whose files are no one's own. -/
def foreign : List Text := ["node_modules".toList, ".git".toList, "__pycache__".toList]

def fileNames (entries : List (Text × Node)) : List Text :=
  (entries.filter fun (_, node) => !node.isDirectory).map (·.1)

mutual

/-- The names that lead to the files below a node, without those in some directories: first the files
of a directory itself, then those of the directories in it. -/
def files (leftOut : List Text) : Node → List (List Text)
  | .file _ => []
  | .directory entries => (fileNames entries).map (fun name => [name]) ++ filesInside leftOut entries

/-- The names that lead to the files inside the directories among entries. -/
def filesInside (leftOut : List Text) : List (Text × Node) → List (List Text)
  | [] => []
  | (name, node) :: entries =>
    (if name ∈ leftOut then [] else (files leftOut node).map (name :: ·)) ++ filesInside leftOut entries

end

end Node

/-! ## Paths -/

/-- The names from the root that names lead to from a place; `..` leads to the directory above. -/
def follow (root : Node) : (place : List Text) → List Text → Except DiskError (List Text)
  | place, [] => .ok place
  | place, name :: names => match root.get? place with
    | some (.directory entries) =>
      if name = ['.', '.'] then follow root place.dropLast names
      else if Table.has entries name then follow root (place ++ [name]) names
      else .error .missing
    | _ => .error .notDirectory

def start (disk : Disk) (path : Path) : List Text := if path.isAbsolute then [] else disk.cwd

/-- The names from the root that a path leads to. -/
def locate (disk : Disk) (path : Path) : Except DiskError (List Text) :=
  follow disk.root (disk.start path) path.names

/-- What is under a path. -/
def node (disk : Disk) (path : Path) : Except DiskError Node :=
  (disk.locate path).bind fun place => (disk.root.get? place).elim (.error .missing) .ok

def exists? (disk : Disk) (path : Path) : Bool := (disk.node path).isOk

def hasDirectory (disk : Disk) (path : Path) : Bool :=
  ((disk.node path).toOption.map Node.isDirectory).getD false

/-- What a text names. Nothing is named by no text, and a text that ends in a slash or in the name of a
single dot names a directory only. -/
def find? (disk : Disk) (text : Text) : Option Node :=
  if text.isEmpty then none
  else
    let last := (Text.splitOn '/' text).getLast?.getD []
    ((disk.node (Path.ofText text)).toOption).filter fun node =>
      node.isDirectory || !(last.isEmpty || last = ['.'])

def here (disk : Disk) : Path := { root := ['/'], names := disk.cwd }

/-! ## Files -/

def readBytes (disk : Disk) (path : Path) : Except DiskError (List UInt8) :=
  (disk.node path).bind fun
    | .file bytes => .ok bytes
    | .directory _ => .error .isDirectory

/-- The tree with directories made where names lead from a place. -/
def makeWithin (root : Node) : (place : List Text) → List Text → Except DiskError Node
  | _, [] => .ok root
  | place, name :: names => match root.get? place with
    | some (.directory entries) =>
      if name = ['.', '.'] then makeWithin root place.dropLast names
      else match Table.get? entries name with
        | some (.directory _) => makeWithin root (place ++ [name]) names
        | some (.file _) => .error (if names.isEmpty then .occupied else .notDirectory)
        | none => makeWithin (Node.put (.directory []) (place ++ [name]) root) (place ++ [name]) names
    | _ => .error .notDirectory

/-- The disk with a directory and those above it made, as far as they are missing. -/
def makeDirectory (disk : Disk) (path : Path) : Except DiskError Disk :=
  (makeWithin disk.root (disk.start path) path.names).map fun root => { disk with root }

/-- The place of a file that may be missing, in a directory that may not. -/
def placeOf (disk : Disk) (path : Path) : Except DiskError (List Text) :=
  match disk.locate path with
  | .error .missing => match disk.locate path.parent with
    | .ok place => .ok (place ++ [path.fileName])
    | .error error => .error error
  | result => result

def writeBytes (disk : Disk) (path : Path) (bytes : List UInt8) : Except DiskError Disk :=
  match disk.placeOf path with
  | .error error => .error error
  | .ok place => match disk.root.get? place with
    | some (.directory _) => .error .isDirectory
    | _ => .ok { disk with root := Node.put (.file bytes) place disk.root }

/-! ## Texts -/

/-- The bytes of the byte order mark. -/
def mark : List UInt8 := [0xef, 0xbb, 0xbf]

/-- The bytes of a text, with or without a mark. -/
def encode (marked : Bool) (text : Text) : List UInt8 :=
  (if marked then mark else []) ++ Text.Utf8.encode text

def isMarked (bytes : List UInt8) : Bool := mark.isPrefixOf bytes

/-- The text of bytes, without the mark that they may begin with. -/
def decode (bytes : List UInt8) : Option Text :=
  Text.Utf8.decode (if isMarked bytes then bytes.drop mark.length else bytes)

/-- A text that was written with a mark is read back as it is. -/
theorem decode_encode (text : Text) : decode (encode true text) = some text := by
  simp [decode, encode, isMarked, mark, Text.Utf8.decode_encode]

def read (disk : Disk) (path : Path) : Except DiskError Text :=
  (disk.readBytes path).bind fun bytes => (decode bytes).elim (.error .undecodable) .ok

def readMarked (disk : Disk) (path : Path) : Except DiskError Text :=
  (disk.readBytes path).bind fun bytes => (Text.Utf8.decode bytes).elim (.error .undecodable) .ok

/-- The disk with a text in a file, whose directory is made if it is missing. -/
def writeNew (disk : Disk) (path : Path) (text : Text) : Except DiskError Disk :=
  (disk.makeDirectory path.parent).bind fun disk => disk.writeBytes path (encode false text)

/-- The disk with a text in a file, whose directory is made if it is missing. A file that has a mark
keeps it. -/
def write (disk : Disk) (path : Path) (text : Text) : Except DiskError Disk :=
  let marked : Except DiskError Bool := match disk.readBytes path with
    | .ok bytes => .ok (isMarked bytes)
    | .error .missing => .ok false
    | .error error => .error error
  marked.bind fun marked => (disk.makeDirectory path.parent).bind fun disk =>
    disk.writeBytes path (encode marked text)

/-- The scenario files inside a directory, sorted by their paths in lower case. -/
def list (disk : Disk) (directory : Path) (patterns : List Text) : List Path :=
  let found := ((disk.node directory).toOption.map (Node.files Node.foreign)).getD []
  Text.sortBy (fun path => Text.lower path.toText) <|
    (found.map fun names => { directory with names := directory.names ++ names }).filter
      (fitsPatterns patterns)

/-- The files whose bytes are not what they were, with their bytes. -/
def changesSince (disk before : Disk) : List (Path × List UInt8) :=
  (disk.root.files []).filterMap fun names =>
    match disk.root.get? names, before.root.get? names with
    | some (.file new), some (.file old) =>
      if new = old then none else some ({ root := ['/'], names }, new)
    | some (.file new), _ => some ({ root := ['/'], names }, new)
    | _, _ => none

end Disk

/-! ## Documents -/

def StoreError.ofDisk (uri : Text) : DiskError → StoreError
  | .missing => .notFound uri
  | .undecodable => .undecodable
  | error => .refused error.message

instance : DocumentStore Disk where
  read disk uri :=
    let path := Path.ofText uri
    (disk.read path).mapError (.ofDisk path.toText)
  write disk uri text :=
    let path := Path.ofText uri
    (disk.write path text).mapError (.ofDisk path.toText)
  list := Disk.list

end Scenarist
