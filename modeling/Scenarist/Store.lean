import Scenarist.Path.Glob
import Scenarist.Table
import Scenarist.Text.Order

set_option autoImplicit false

/-! # Document stores

Where documents are read from and written to. What can go wrong is a value, and a store that was written
to is a new store. `MemoryStore` keeps texts under the paths they were stored with.

Only what a system says of a path and of the bytes under it goes wrong here. Paths that no system takes, with
a null character in them, and texts that UTF-8 cannot write, with half of a surrogate pair in them, are left
out: what the program does then is not described. -/

namespace Scenarist

/-- Why a document could not be read or written, its path being one that the system takes. -/
inductive StoreError where
  /-- There is no document under this path. -/
  | notFound (uri : Text)
  /-- The document is no text. -/
  | undecodable
  /-- The system refused for another reason of its own, such as a missing permission. -/
  | refused (reason : Text)
  deriving DecidableEq, Repr

def StoreError.message : StoreError → Text
  | .notFound uri => "Scenario file not found: ".toList ++ uri
  | .undecodable => "the file is not a UTF-8 text".toList
  | .refused reason => reason

/-- A place for documents. -/
class DocumentStore (σ : Type) where
  /-- The text of a document. -/
  read : σ → Text → Except StoreError Text
  /-- The store with a document written. -/
  write : σ → Text → Text → Except StoreError σ
  /-- The scenario files inside a directory, sorted by their paths in lower case. -/
  list : σ → Path → List Text → List Path

/-- Texts under the paths that they were stored with. -/
structure MemoryStore where
  files : Table Text := []
  deriving DecidableEq, Repr

namespace MemoryStore

def read (store : MemoryStore) (uri : Text) : Except StoreError Text :=
  match store.files.get? uri with
  | some text => .ok text
  | none => .error (.notFound uri)

def write (store : MemoryStore) (uri text : Text) : MemoryStore := ⟨store.files.put uri text⟩

def erase (store : MemoryStore) (uri : Text) : MemoryStore := ⟨store.files.erase uri⟩

/-- The stored paths that fit the patterns and begin with the directory. -/
def list (store : MemoryStore) (directory : Path) (patterns : List Text) : List Path :=
  Text.sortBy (fun path => Text.lower path.toText) <|
    (store.files.keys.map Path.ofText).filter fun path =>
      fitsPatterns patterns path && (directory.relativeTo? path.parent).isSome

end MemoryStore

instance : DocumentStore MemoryStore where
  read := MemoryStore.read
  write store uri text := .ok (store.write uri text)
  list := MemoryStore.list

end Scenarist
