import TtcnTemplates.Output.Store

/-! # Files on disk

The directories and files that are reached from the working directory. Before a file is created, the directories
above it are made as far as they are missing; those that were made stay, also where the file cannot be created.
-/

namespace TtcnTemplates

open Text

/-- A place on disk: the names that lead to it from the directory so many levels above the working directory. -/
structure Location where
  above : Nat
  names : List Bytes
deriving DecidableEq, Repr

namespace Location

/-- The working directory. -/
def start : Location := ⟨0, []⟩

/-- The place of a name in a directory. -/
def child (location : Location) (name : Bytes) : Location := ⟨location.above, location.names ++ [name]⟩

/-- The directory that holds a place. -/
def parent (location : Location) : Location :=
  match location.names with
  | [] => ⟨location.above + 1, []⟩
  | names => ⟨location.above, names.dropLast⟩

end Location

/-- What is at a place. -/
inductive Item where
  | directory
  | file (content : Bytes)
deriving DecidableEq, Repr

/-- Directories and files by their places. The working directory and those above it are always there. -/
structure Disk where
  items : List (Location × Item) := []
deriving DecidableEq, Repr

/-- Why a place cannot be reached or made. -/
inductive DiskError where
  | missing
  | alreadyThere
  /-- A file stands where a directory is needed, or a directory where a file is, or a name is not allowed. -/
  | refused
deriving DecidableEq, Repr

namespace Disk

/-- What is at a place. -/
def get? (disk : Disk) (location : Location) : Option Item :=
  if location.names = [] then some .directory else disk.items.lookup location

/-- Puts an item at a place. -/
def put (disk : Disk) (location : Location) (item : Item) : Disk :=
  ⟨(location, item) :: disk.items.filter fun entry => entry.1 != location⟩

/-- The length of the longest name. -/
def longestName : Nat := 255

/-- The length of the longest path. -/
def longestPath : Nat := 4095

/-- Whether a name is too long. -/
def isTooLong (name : Bytes) : Bool := decide (longestName < name.length)

/-- Follows one component from a directory to a directory. -/
def follow (disk : Disk) (location : Location) : Component → Except DiskError Location
  | .root => .error .refused
  | .here => .ok location
  | .up => .ok location.parent
  | .name name =>
    if isTooLong name then .error .refused
    else match disk.get? (location.child name) with
      | some .directory => .ok (location.child name)
      | some (.file _) => .error .refused
      | none => .error .missing

/-- Follows components from the working directory to a directory. -/
def reach (disk : Disk) (components : List Component) : Except DiskError Location :=
  components.foldlM disk.follow .start

/-- Whether a path may be used: it is not too long, and it holds no zero byte. -/
def isAllowed (path : Path) : Bool := decide (path.bytes.length ≤ longestPath) && !path.bytes.contains 0

/-- Makes the directory that the last component leads to, from the directory that the components `above` lead to. -/
def makeDirectory (disk : Disk) (above : List Component) (last : Component) : Except DiskError Disk := do
  let location ← disk.reach above
  match last with
  | .name name =>
    if isTooLong name then .error .refused
    else match disk.get? (location.child name) with
      | some _ => .error .alreadyThere
      | none => .ok (disk.put (location.child name) .directory)
  | _ => .error .alreadyThere

/-- Makes the directory that the components lead to, and says why it is not there afterwards. The components are
    given last one first. -/
def ensureHere (disk : Disk) (above : List Component) (last : Component) : Disk × Option DiskError :=
  match disk.makeDirectory above.reverse last with
  | .ok disk => (disk, none)
  | .error .alreadyThere =>
    match disk.reach (above.reverse ++ [last]) with
    | .ok _ => (disk, none)
    | .error _ => (disk, some .alreadyThere)
  | .error error => (disk, some error)

/-- Makes the directories that the components lead to, as far as they are missing. The components are given last
    one first; the directories above are made only where the last one cannot be made without them. -/
def ensure (disk : Disk) : List Component → Disk × Option DiskError
  | [] => (disk, none)
  | last :: above =>
    match disk.ensureHere above last with
    | (disk, some .missing) =>
      match disk.ensure above with
      | (disk, none) => disk.ensureHere above last
      | failed => failed
    | done => done

/-- The place at which a file of the given path is created. A path with nothing but `.` or `..` after its last
    separator is not that of a file. -/
def filePlace (disk : Disk) (path : Path) : Except DiskError Location :=
  match path.segments.getLast?.bind Path.component? with
  | some (.name name) =>
    if !isAllowed path || isTooLong name then .error .refused
    else do
      let location ← disk.reach path.parent.components
      match disk.get? (location.child name) with
      | some .directory => .error .refused
      | _ => .ok (location.child name)
  | _ => .error .refused

/-- Makes the directory of a path, as far as it is missing. -/
def ensurePath (disk : Disk) (path : Path) : Disk × Option DiskError :=
  if isAllowed path then disk.ensure path.components.reverse else (disk, some .refused)

/-- Creates a file, after the directories above it. -/
def create (disk : Disk) (path : Path) (content : Bytes) : Attempt Disk :=
  match disk.ensurePath path.parent with
  | (disk, some _) => { store := disk, result := .error .storage }
  | (disk, none) =>
    let log := [.creating path.text]
    match disk.filePlace path with
    | .ok location => { store := disk.put location (.file content), log }
    | .error _ => { store := disk, log, result := .error .storage }

/-- What is in the working directory, each directory before its entries and these in the order of their bytes. -/
def listing (disk : Disk) : List (List Bytes × Item) :=
  ((disk.items.filter fun entry => entry.1.above == 0).map fun entry => (entry.1.names, entry.2)).mergeSort
    fun left right => decide (left.1 ≤ right.1)

instance : FileStore Disk := ⟨create⟩

end Disk

end TtcnTemplates
