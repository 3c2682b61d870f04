import TtcnTemplates.Log
import TtcnTemplates.Output.Options
import TtcnTemplates.Output.Path
import TtcnTemplates.Types.Basic

/-! # Stores of files

Generated files go to a store. Creating a file may fail, and a failed attempt may leave a trace in the store.
-/

namespace TtcnTemplates

open Text

/-- Why nothing is generated. -/
inductive OutputError where
  /-- The store cannot hold the file. -/
  | storage
  | options (error : OptionError)
  | types (fault : TypeFault)
deriving DecidableEq, Repr

/-- What is left after something was attempted: the store, what was noted, and whether it succeeded. -/
structure Attempt (σ : Type) where
  store : σ
  log : List Notice := []
  result : Except OutputError Unit := .ok ()
deriving Repr

/-- The stores in which files can be created. -/
class FileStore (σ : Type) where
  /-- Creates the file at a path with the given content, in place of a file that is there already. -/
  create (store : σ) (path : Path) (content : Bytes) : Attempt σ

/-! ### Files in memory

A file is found by the components of its path. It keeps the path by which it was first created.
-/

/-- Files by their paths. -/
structure MemoryFiles where
  files : List (Path × Bytes) := []
deriving DecidableEq, Repr

namespace MemoryFiles

/-- The content of the file at a path. -/
def get? (memory : MemoryFiles) (path : Path) : Option Bytes :=
  (memory.files.find? fun file => file.1.components == path.components).map Prod.snd

/-- The text of the file at a path, where its content is one. -/
def text? (memory : MemoryFiles) (path : Path) : Option String := (memory.get? path).bind decode?

/-- The files in which the one with the components of a path has the given content. -/
def putIn (path : Path) (content : Bytes) : List (Path × Bytes) → List (Path × Bytes)
  | [] => [(path, content)]
  | file :: rest =>
    if file.1.components = path.components then (file.1, content) :: rest else file :: putIn path content rest

/-- Gives the file at a path its content. -/
def put (memory : MemoryFiles) (path : Path) (content : Bytes) : MemoryFiles := ⟨putIn path content memory.files⟩

/-- A file is found under every path with the components of the path at which it was put. -/
theorem get?_put_of_eq (memory : MemoryFiles) {path other : Path} (content : Bytes)
    (same : other.components = path.components) : (memory.put path content).get? other = some content := by
  obtain ⟨files⟩ := memory
  simp only [get?, put, same]
  induction files with
  | nil => simp [putIn]
  | cons file rest ih =>
    by_cases h : file.1.components = path.components
    · simp [putIn, h]
    · simpa [putIn, h] using ih

/-- Putting a file leaves the files at paths with other components. -/
theorem get?_put_of_ne (memory : MemoryFiles) {path other : Path} (content : Bytes)
    (different : other.components ≠ path.components) : (memory.put path content).get? other = memory.get? other := by
  obtain ⟨files⟩ := memory
  simp only [get?, put]
  induction files with
  | nil => simp [putIn, different.symm]
  | cons file rest ih =>
    by_cases h : file.1.components = path.components
    · simp [putIn, h, different.symm]
    · by_cases h' : file.1.components = other.components
      · simp [putIn, h', different]
      · simpa [putIn, h, h'] using ih

/-- The files in the order of the bytes of their paths. -/
def listing (memory : MemoryFiles) : List (Path × Bytes) :=
  memory.files.mergeSort fun left right => decide (left.1.bytes ≤ right.1.bytes)

instance : FileStore MemoryFiles where
  create memory path content := { store := memory.put path content }

end MemoryFiles

end TtcnTemplates
