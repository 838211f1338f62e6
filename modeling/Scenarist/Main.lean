import Scenarist.CommandLine
import Std.Time

set_option autoImplicit false

/-! # The program

What a run looks at is copied from the file system into a disk, the run is carried out on it, and the
files that have changed are written back. -/

namespace Scenarist.Program

def usage : String :=
  "usage: scenario-engine [--config FILE] [--steps FILE] [--pretty] [--verbose] COMMAND ...\n" ++
  "  index [ROOT]                                   list the scenarios\n" ++
  "  check [ROOT [FILE...]] [--report FILE]         validate scenarios\n" ++
  "  fix [ROOT [FILE...]] [--dry-run] [--report FILE]   repair scenarios\n" ++
  "  related ROOT NAME                              list the documents that call a scenario"

/-- The kind of what the file system has under a path, if it has anything. -/
def kindOf (path : Path) : IO (Option IO.FS.FileType) := do
  let file := (← IO.currentDir) / String.ofList path.toText
  try return some (← file.metadata).type
  catch _ => return none

/-- The names in a directory of the file system, with whether they are links. -/
def namesIn (path : Path) : IO (List (Text × Bool)) := do
  let directory := (← IO.currentDir) / String.ofList path.toText
  (← directory.readDir).toList.mapM fun entry => do
    return (entry.fileName.toList, (← entry.path.symlinkMetadata).type == .symlink)

/-- The disk with what the file system has under a path; the bytes of a file are copied if they are
wanted. -/
def copy (disk : Disk) (path : Path) (wanted : Bool) : IO Disk := do
  match ← kindOf path with
  | some .dir => return (disk.makeDirectory path).toOption.getD disk
  | some _ =>
    let bytes ← if wanted then IO.FS.readBinFile (String.ofList path.toText) else pure .empty
    return (disk.writeBytes path bytes.toList).toOption.getD disk
  | none => return disk

/-- The disk with what the file system has under a path and on the way to it. -/
def copyWithParents (disk : Disk) (path : Path) : IO Disk :=
  path.trail.foldlM (fun disk step => copy disk step (step = path)) disk

/-- The disk with the files below a directory, but for those that are no one's own and those that it has
already. Directories behind links are not entered. -/
partial def copyBelow (disk : Disk) (directory : Path) (patterns : List Text) : IO Disk := do
  let disk ← copy disk directory false
  if !disk.hasDirectory directory then return disk
  (← namesIn directory).foldlM (fun disk (name, isLink) => do
    let path := { directory with names := directory.names ++ [name] }
    if (← kindOf path) matches some .dir then
      if isLink || name ∈ Disk.Node.foreign then return disk else copyBelow disk path patterns
    else if disk.exists? path then return disk
    else copy disk path (fitsPatterns patterns path)) disk

/-- The disk with all that a run looks at. The settings are copied first, as they tell the rest. -/
def snapshot (invocation : Invocation) : IO Disk := do
  let here := Path.ofText (← IO.currentDir).toString.toList
  let empty := ((Disk.mk here.names (.directory [])).makeDirectory here).toOption.getD {}
  let known ← (invocation.places empty).1.foldlM copyWithParents empty
  let (paths, scanRoot) := invocation.places known
  let disk ← paths.foldlM copyWithParents known
  match scanRoot with
  | none => return disk
  | some directory =>
    let patterns := ((Config.load disk (invocation.choice.config.map Path.ofText)
      (Path.resolve disk.here (Path.ofText invocation.task.root))).toOption.map
      Config.filePatterns).getD []
    copyBelow (← copyWithParents disk directory) directory patterns

/-- The time now, in words. -/
def clock : IO Text := do
  let now ← Std.Time.Timestamp.now
  let time := Std.Time.DateTime.ofTimestamp now Std.Time.TimeZone.ZoneRules.UTC
  return (time.format "uuuu-MM-dd'T'HH:mm:ss.SSSSSSxxx").toList

/-- A number that no one can foresee. -/
def seed : IO Nat := do
  return (← IO.getRandomBytes 16).toList.foldl (fun n byte => 256 * n + byte.toNat) 0

/-- The run of a program that was called with these words. -/
def run (words : List Text) : IO UInt32 := do
  let began ← IO.monoMsNow
  match Invocation.ofWords? words with
  | none =>
    IO.eprintln usage
    return 2
  | some invocation =>
    let disk ← snapshot invocation
    let s : Surroundings := {
      disk
      supply := .random (← seed)
      clock := ← clock
      elapsed := (← IO.monoMsNow) - began }
    match invocation.run s with
    | .error .usage =>
      IO.eprintln usage
      return 2
    | .error (.load error) =>
      IO.eprintln (String.ofList error.message)
      return 1
    | .ok reply =>
      let changes := reply.disk.changesSince disk
      if invocation.verbose then IO.eprintln ("files to write: " ++ toString changes.length)
      for (path, bytes) in changes do
        IO.FS.createDirAll (String.ofList path.parent.toText)
        IO.FS.writeBinFile (String.ofList path.toText) ⟨bytes.toArray⟩
      IO.println (String.ofList (invocation.textOf reply.answer))
      return UInt32.ofNat reply.exitCode

end Scenarist.Program

def main (words : List String) : IO UInt32 := Scenarist.Program.run (words.map String.toList)
