import TtcnTemplates.Types.Basic

/-! # Symbols

What is known of the types and constants of a module once its declarations are resolved. Types are numbered, and
a number is only meaningful in the table that holds it.
-/

namespace TtcnTemplates

/-- The number of a type in a table. -/
structure TypeId where
  index : Nat
deriving DecidableEq, Repr

/-- One type of a table. A built-in type has no shape. -/
structure TypeEntry where
  name : String
  javaName : String
  shape : Option (TypeShape TypeId)
deriving DecidableEq, Repr

/-- The types of a module, by number and by name, and the names of its constants. -/
structure Symbols where
  entries : List TypeEntry
  builtins : List (String × TypeId)
  declared : List (String × TypeId)
  constants : List String
deriving DecidableEq, Repr

namespace Symbols

/-- The type that is used. Built-in and declared types have separate names. -/
def lookup (symbols : Symbols) : TypeUse → Option TypeId
  | .builtin name => symbols.builtins.lookup name
  | .declared name => symbols.declared.lookup name

/-- The entry of a type. -/
def entry? (symbols : Symbols) (id : TypeId) : Option TypeEntry := symbols.entries[id.index]?

/-- The class of a type in the generated source. -/
def javaName (symbols : Symbols) (id : TypeId) : String := (symbols.entry? id).elim "" TypeEntry.javaName

/-- The shape of a declared type. -/
def shape? (symbols : Symbols) (id : TypeId) : Option (TypeShape TypeId) := (symbols.entry? id).bind TypeEntry.shape

/-- Whether a type is a union. -/
def isUnion (symbols : Symbols) (id : TypeId) : Bool :=
  match symbols.shape? id with
  | some (.union _) => true
  | _ => false

/-- Whether a type is a record or a set. -/
def isStructured (symbols : Symbols) (id : TypeId) : Bool :=
  match symbols.shape? id with
  | some (.record _) => true
  | some (.set _) => true
  | _ => false

/-- The fields of a record or set, or the alternatives of a union, in the order of the declaration. -/
def fields (symbols : Symbols) (id : TypeId) : List (Field TypeId) :=
  match symbols.shape? id with
  | some (.record fields) => fields
  | some (.set fields) => fields
  | some (.union alternatives) => alternatives
  | _ => []

/-- The type of the elements of a record of or set of. -/
def element? (symbols : Symbols) (id : TypeId) : Option TypeId :=
  match symbols.shape? id with
  | some (.recordOf element) => some element
  | some (.setOf element) => some element
  | _ => none

/-- Whether a type is an enumeration with the given value. -/
def hasValue (symbols : Symbols) (id : TypeId) (name : String) : Bool :=
  match symbols.shape? id with
  | some (.enumerated values) => values.contains name
  | _ => false

/-- Whether a name is that of a constant. -/
def isConstant (symbols : Symbols) (name : String) : Bool := symbols.constants.contains name

/-- The declared types with their numbers, which are those that their own names lead to. -/
def types (symbols : Symbols) : List (TypeId × TypeEntry) :=
  (symbols.entries.zipIdx.map fun (entry, index) => (⟨index⟩, entry)).filter fun (id, entry) =>
    symbols.lookup (.declared entry.name) == some id

end Symbols

end TtcnTemplates
