import TtcnTemplates.Types.Symbols

/-! # Declarations

The types and constants that a module declares. Types and constants share one space of names, and a name is taken
by the first declaration that has it. Resolving the declarations replaces every use of a type by the number of
that type; a declaration may use types that are declared after it. The first fault, in the order of the
declarations and from left to right within each, is the one that is reported.
-/

namespace TtcnTemplates

/-- One declared type. -/
structure TypeDeclaration where
  name : String
  shape : TypeShape TypeUse
deriving DecidableEq, Repr

/-- The declarations of a module, in order. -/
structure Declarations where
  types : List TypeDeclaration := []
  constants : List String := []
deriving DecidableEq, Repr

namespace Declarations

/-- The names that are taken. -/
def names (declarations : Declarations) : List String :=
  declarations.types.map TypeDeclaration.name ++ declarations.constants

/-- Adds a type, unless its name is taken. -/
def addType (declarations : Declarations) (type : TypeDeclaration) : Option Declarations :=
  if declarations.names.contains type.name then none
  else some { declarations with types := declarations.types ++ [type] }

/-- Adds a constant, unless its name is taken. -/
def addConstant (declarations : Declarations) (name : String) : Option Declarations :=
  if declarations.names.contains name then none
  else some { declarations with constants := declarations.constants ++ [name] }

end Declarations

/-! ### Resolving one declaration -/

/-- The number of a used type. -/
def TypeUse.resolve (lookup : TypeUse → Option TypeId) (use : TypeUse) : Except TypeFault TypeId :=
  match lookup use with
  | some id => .ok id
  | none => .error (.notDefined use.name)

/-- Resolves the fields that follow the fields named `seen`. Each name is checked before its type. -/
def resolveFields (lookup : TypeUse → Option TypeId) (type : String) (seen : List String) :
    List (Field TypeUse) → Except TypeFault (List (Field TypeId))
  | [] => .ok []
  | field :: rest =>
    if seen.contains field.name then .error (.duplicateField type field.name)
    else do
      let id ← field.type.resolve lookup
      let resolved ← resolveFields lookup type (field.name :: seen) rest
      return ⟨field.name, id⟩ :: resolved

/-- Checks that the values that follow the values `seen` are different from these and from each other. -/
def checkValues (type : String) (seen : List String) : List String → Except TypeFault Unit
  | [] => .ok ()
  | value :: rest =>
    if seen.contains value then .error (.duplicateValue type value)
    else checkValues type (value :: seen) rest

/-- Resolves the shape of the type with the given name. -/
def TypeShape.resolve (lookup : TypeUse → Option TypeId) (type : String) :
    TypeShape TypeUse → Except TypeFault (TypeShape TypeId)
  | .record fields => return .record (← resolveFields lookup type [] fields)
  | .set fields => return .set (← resolveFields lookup type [] fields)
  | .union [] => .error (.emptyUnion type)
  | .union alternatives => return .union (← resolveFields lookup type [] alternatives)
  | .recordOf element => return .recordOf (← element.resolve lookup)
  | .setOf element => return .setOf (← element.resolve lookup)
  | .enumerated values => do
    checkValues type [] values
    return .enumerated values

/-- Resolves a declaration. A declared type keeps its name in the generated source. -/
def TypeDeclaration.resolve (lookup : TypeUse → Option TypeId) (type : TypeDeclaration) : Except TypeFault TypeEntry :=
  return ⟨type.name, type.name, some (← type.shape.resolve lookup type.name)⟩

/-! ### Resolving all declarations -/

/-- The entry of a built-in type. -/
def Builtin.entry (type : Builtin) : TypeEntry := ⟨type.name, type.javaName, none⟩

/-- Numbers names in order, from `first` on. -/
def numbered (first : Nat) (names : List String) : List (String × TypeId) :=
  (names.zipIdx first).map fun entry => (entry.1, ⟨entry.2⟩)

namespace Declarations

/-- The table in which the built-in types come first, in the given order, and then the declared ones, with the
    entries still to be filled in. It is enough to look types up. -/
def outline (order : List Builtin) (declarations : Declarations) : Symbols where
  entries := []
  builtins := numbered 0 (order.map Builtin.name)
  declared := numbered order.length (declarations.types.map TypeDeclaration.name)
  constants := declarations.constants

/-- Resolves the declarations into a table that numbers the built-in types in the given order. -/
def resolveIn (order : List Builtin) (declarations : Declarations) : Except TypeFault Symbols := do
  let outline := declarations.outline order
  let entries ← declarations.types.mapM (·.resolve outline.lookup)
  return { outline with entries := order.map Builtin.entry ++ entries }

/-- Resolves the declarations. -/
def resolve (declarations : Declarations) : Except TypeFault Symbols := declarations.resolveIn Builtin.all

end Declarations

end TtcnTemplates
