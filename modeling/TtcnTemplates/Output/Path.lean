import TtcnTemplates.Text.Utf8

/-! # Paths

A path is a string of bytes that is read as a sequence of components. Repeated separators, a separator at the end
and components `.` have no meaning, except that a relative path may start with `.`.
-/

namespace TtcnTemplates

open Text

/-- A path. -/
structure Path where
  bytes : Bytes
deriving DecidableEq, Repr

/-- One component of a path. -/
inductive Component where
  /-- The top of all directories. -/
  | root
  /-- The directory itself. -/
  | here
  /-- The directory above. -/
  | up
  /-- The entry of a name. -/
  | name (bytes : Bytes)
deriving DecidableEq, Repr

namespace Path

/-- The byte between components. -/
def separator : UInt8 := 0x2F

/-- The bytes of `.`. -/
def dot : Bytes := [0x2E]

/-- The bytes of `..`. -/
def dots : Bytes := [0x2E, 0x2E]

/-- The texts between the separators of a path. -/
def segments (path : Path) : List Bytes := path.bytes.splitOn separator

/-- The component of a text between separators, if it has a meaning. -/
def component? (segment : Bytes) : Option Component :=
  if segment = [] ∨ segment = dot then none
  else if segment = dots then some .up
  else some (.name segment)

/-- Whether a path starts at the top of all directories. -/
def isAbsolute (path : Path) : Bool := path.bytes.head? == some separator

/-- The component that only the first byte of a path can give. -/
def start (path : Path) : List Component :=
  if path.isAbsolute then [.root] else if path.segments.head? = some dot then [.here] else []

/-- The components of a path. -/
def components (path : Path) : List Component := path.start ++ path.segments.filterMap component?

/-- The components of segments that follow one another from the byte `start` on, each with the byte at which it
    ends. -/
def locate (start : Nat) : List Bytes → List (Component × Nat)
  | [] => []
  | segment :: rest =>
    let finish := start + segment.length
    (component? segment).toList.map (·, finish) ++ locate (finish + 1) rest

/-- The components of a path, each with the byte at which it ends. -/
def located (path : Path) : List (Component × Nat) := path.start.map (·, 1) ++ locate 0 path.segments

theorem locate_map_fst (start : Nat) (segments : List Bytes) :
    (locate start segments).map Prod.fst = segments.filterMap component? := by
  induction segments generalizing start with
  | nil => rfl
  | cons segment rest ih =>
    cases h : component? segment <;> simp [locate, h, ih]

/-- Without the bytes at which they end, these are the components of the path. -/
theorem located_map_fst (path : Path) : path.located.map Prod.fst = path.components := by
  simp [located, components, locate_map_fst, Function.comp_def]

/-- The path without its last component, up to the end of the component before that. -/
def parent (path : Path) : Path :=
  ⟨path.bytes.take ((path.located.dropLast.getLast?).elim 0 Prod.snd)⟩

/-- The path extended by a part. An absolute part replaces the path; otherwise a separator is put between the two,
    unless the path is empty or ends with one. -/
def push (path : Path) (part : Bytes) : Path :=
  if Path.isAbsolute ⟨part⟩ then ⟨part⟩
  else if path.bytes = [] ∨ path.bytes.getLast? = some separator then ⟨path.bytes ++ part⟩
  else ⟨path.bytes ++ separator :: part⟩

/-- The text of a path in messages. -/
def text (path : Path) : String := lossy path.bytes

end Path

end TtcnTemplates
