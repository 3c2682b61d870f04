import TtcnTemplates.Tree.Basic

/-! # Types

The built-in types, the shapes that a declared type can have, and the faults that a declaration can have.
-/

namespace TtcnTemplates

/-- The built-in types. -/
inductive Builtin where
  | boolean
  | integer
  | float
  | bitstring
  | hexstring
  | octetstring
  | charstring
  | universalCharstring
  | verdict
deriving DecidableEq, Repr

/-- Every built-in type. -/
def Builtin.all : List Builtin :=
  [.boolean, .integer, .float, .bitstring, .hexstring, .octetstring, .charstring, .universalCharstring, .verdict]

/-- The name of a built-in type in a module. -/
def Builtin.name : Builtin → String
  | .boolean => "boolean"
  | .integer => "integer"
  | .float => "float"
  | .bitstring => "bitstring"
  | .hexstring => "hexstring"
  | .octetstring => "octetstring"
  | .charstring => "charstring"
  | .universalCharstring => "universal charstring"
  | .verdict => "verdicttype"

/-- The class that a built-in type has in the Java runtime. -/
def Builtin.javaName : Builtin → String
  | .boolean => "BOOLEAN"
  | .integer => "INTEGER"
  | .float => "FLOAT"
  | .bitstring => "BITSTRING"
  | .hexstring => "HEXSTRING"
  | .octetstring => "OCTETSTRING"
  | .charstring => "CHARSTRING"
  | .universalCharstring => "UNIVERSAL_CHARSTRING"
  | .verdict => "VERDICTTYPE"

/-- A field of a record or set, or an alternative of a union, with its type given as a `ρ`. -/
structure Field (ρ : Type) where
  name : String
  type : ρ
deriving DecidableEq, Repr

/-- The shape of a declared type, in which other types are given as a `ρ`: by their use where the type is
    declared, by their number once the declarations are resolved. -/
inductive TypeShape (ρ : Type) where
  | record (fields : List (Field ρ))
  | set (fields : List (Field ρ))
  | union (alternatives : List (Field ρ))
  | recordOf (element : ρ)
  | setOf (element : ρ)
  | enumerated (values : List String)
deriving DecidableEq, Repr

/-- What can be wrong with a declared type. -/
inductive TypeFault where
  /-- A type is used that is not declared. -/
  | notDefined (name : String)
  /-- Two fields of one type have the same name. -/
  | duplicateField (type field : String)
  /-- Two values of one enumeration have the same name. -/
  | duplicateValue (type value : String)
  /-- A union has no alternatives. -/
  | emptyUnion (type : String)
deriving DecidableEq, Repr

/-- The wording of a fault. -/
def TypeFault.message : TypeFault → String
  | .notDefined name => "Type not defined: " ++ name
  | .duplicateField type field => "Duplicate field " ++ field ++ " in type " ++ type
  | .duplicateValue type value => "Duplicate enumerated value " ++ value ++ " in type " ++ type
  | .emptyUnion type => "Union " ++ type ++ " has no alternatives"

end TtcnTemplates
