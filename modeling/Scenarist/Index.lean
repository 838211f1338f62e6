import Scenarist.Config
import Scenarist.Number
import Scenarist.Record
import Scenarist.Refresher
import Scenarist.Store

set_option autoImplicit false

/-! # The scenario index

The records of all scenarios under their names. A scan of the scenario files replaces them all; between
scans, single documents are entered and removed as they change. Events that may change the set of files
mark the index dirty, and a refresh is requested.

A scan is a value of its own, so that everything else can happen between two of its reads: `Scan.take`
takes in one file, and `Index.install` puts the result into the index. -/

namespace Scenarist

/-- How far the index can be relied on. -/
inductive IndexState where
  /-- Nothing has been entered yet. -/
  | empty
  /-- As far as is known, the records are those of the files. -/
  | populated
  /-- The set of files may have changed. -/
  | dirty
  deriving DecidableEq, Repr

def IndexState.word : IndexState → Text
  | .empty => "empty".toList
  | .populated => "populated".toList
  | .dirty => "dirty".toList

/-- The scenario index. -/
structure Index where
  /-- The directory that is scanned. -/
  scanRoot : Option Path
  /-- The patterns of scenario files. -/
  patterns : List Text
  /-- A scan lets others go on after so many files. -/
  scanYield : Int
  /-- The records under the names of their scenarios. -/
  records : Table Record := []
  state : IndexState := .empty
  /-- The number of changes so far. -/
  generation : Nat := 0
  /-- The number of times that the index was marked dirty. -/
  dirtyMarks : Nat := 0
  /-- The refreshes of the index. -/
  refresher : Refresher
  deriving DecidableEq, Repr

namespace Index

/-- An empty index over a directory. -/
def ofConfig (scanRoot : Option Path) (config : Config) : Index where
  scanRoot
  patterns := config.filePatterns
  scanYield := config.scanYield
  refresher := { debounce := (exactValue? config.debounce).getD 0 }

/-! ## Queries -/

def lookup? (index : Index) (name : Text) : Option Record := index.records.get? name

def names (index : Index) : List Text := index.records.keys

def allRecords (index : Index) : List Record := index.records.values

def recordOf? (index : Index) (uri : Text) : Option Record :=
  index.allRecords.find? fun record => record.uri == uri

def sourceOf (index : Index) (uri : Text) : Source := Source.ofPath index.scanRoot (Path.ofText uri)

/-! ## Single documents -/

/-- The index after a change. -/
def bump (index : Index) : Index := { index with generation := index.generation + 1 }

/-- The records with one more: the other records of the same document go, and the record takes its
name's place. -/
def putRecord (record : Record) (records : Table Record) : Table Record :=
  Table.put record.name record <|
    records.filter fun (name, old) => old.uri ≠ record.uri || name = record.name

/-- Whether the records hold this one, and no other of the same document. -/
def holds (record : Record) (records : Table Record) : Bool :=
  records.get? record.name = some record &&
    records.all fun (name, old) => old.uri ≠ record.uri || name = record.name

/-- The index without the records of a document, and whether there were any. -/
def remove (index : Index) (uri : Text) : Bool × Index :=
  if index.records.any fun (_, record) => record.uri = uri then
    (true, bump { index with records := index.records.filter fun (_, record) => record.uri ≠ uri })
  else (false, index)

/-- The index with a record entered, and whether that changed it. -/
def enter (index : Index) (record : Record) : Bool × Index :=
  if holds record index.records then (false, index)
  else
    let state := if index.state = .empty then .populated else index.state
    (true, bump { index with records := putRecord record index.records, state })

/-- The index with a document entered, or its record removed if it declares no scenario, and whether
that changed the index. -/
def upsert (index : Index) (uri text : Text) : Bool × Index :=
  match Record.ofText? (index.sourceOf uri) text with
  | some record => index.enter record
  | none => index.remove uri

/-- `upsert`, refused if the document has a scalar without a value. -/
def tryUpsert (index : Index) (uri text : Text) : Except ScalarFault (Bool × Index) :=
  guardScalars (Record.scalarsOf text) (index.upsert uri text)

/-! ## Dirty marks -/

/-- The index marked dirty; if there is a directory to scan, a refresh is requested. -/
def markDirty (index : Index) (now : Seconds) (timersServed : Bool) : Index :=
  { index with
    dirtyMarks := index.dirtyMarks + 1
    state := .dirty
    refresher :=
      if index.scanRoot.isSome then index.refresher.request now timersServed else index.refresher }

/-- Whether an event on a path is one that the index cares about. -/
def tracks (index : Index) (cwd path : Path) : Bool :=
  match index.scanRoot with
  | some root => isTracked cwd root index.patterns path
  | none => false

end Index

/-! ## Scans -/

/-- A scan in progress. -/
structure Scan where
  /-- The files still to read. -/
  remaining : List Text
  /-- The number of files read. -/
  count : Nat := 0
  /-- The records so far. -/
  found : Table Record := []
  /-- The dirty marks that the index had when the scan began. -/
  marks : Nat
  deriving DecidableEq, Repr

namespace Scan

/-- The scan after one more file: its record is entered under its name, and a file that cannot be read
is passed over. -/
def take (scan : Scan) (source : Text → Source) (uri : Text) (fetched : Except StoreError Text) : Scan :=
  let found := match fetched with
    | .ok text => match Record.ofText? (source uri) text with
      | some record => scan.found.put record.name record
      | none => scan.found
    | .error _ => scan.found
  { scan with remaining := scan.remaining.tail, count := scan.count + 1, found }

/-- `take`, refused if the file has a scalar without a value. -/
def tryTake (scan : Scan) (source : Text → Source) (uri : Text) (fetched : Except StoreError Text) :
    Except ScalarFault Scan :=
  guardScalars ((fetched.toOption.map Record.scalarsOf).getD []) (scan.take source uri fetched)

/-- Whether the scan lets others go on after the file just read. A file that could not be read gives
no occasion. -/
def yields (scan : Scan) (every : Int) (fetched : Except StoreError Text) : Bool :=
  fetched.isOk && scan.count % (max 1 every).toNat = 0

end Scan

namespace Index

def beginScan (index : Index) (uris : List Text) : Scan :=
  { remaining := uris, marks := index.dirtyMarks }

/-- The index with the records of a scan in place of its own. It is dirty if the scan was cancelled or
the index was marked dirty since the scan began. -/
def install (index : Index) (scan : Scan) (cancelled : Bool) : Index :=
  let state := if cancelled || index.dirtyMarks ≠ scan.marks then .dirty else .populated
  bump { index with records := scan.found, state }

def filesIn {σ : Type} [DocumentStore σ] (index : Index) (store : σ) : List Text :=
  match index.scanRoot with
  | some root => (DocumentStore.list store root index.patterns).map Path.toText
  | none => []

/-- The index after an undisturbed refresh, which a file with a scalar without a value refuses. -/
def refresh {σ : Type} [DocumentStore σ] (index : Index) (store : σ) : Except ScalarFault Index :=
  let uris := index.filesIn store
  (uris.foldlM (fun scan uri => Scan.tryTake scan index.sourceOf uri (DocumentStore.read store uri))
    (index.beginScan uris)).map (index.install · false)

end Index

end Scenarist
