import TtcnTemplates.Literal.Basic
import TtcnTemplates.Text.Writing

/-! # Java expressions

The expressions that template bodies become. Each has the Java class that it constructs.
-/

namespace TtcnTemplates

/-- An expression without subexpressions, apart from its class. -/
inductive Atom where
  /-- Any value. -/
  | any
  /-- Any value or none. -/
  | anyOrOmit
  /-- No value. -/
  | omitted
  | boolean (value : Bool)
  /-- A static field of a class of the runtime. -/
  | keyword (field : String)
  /-- A literal, with its text as it stands inside a Java string literal. -/
  | literal (text : String)
  /-- A formal parameter of the template. -/
  | parameter (name : String)
  /-- A constant of the module. -/
  | constant (name : String)
  /-- A value of an enumeration. -/
  | enumerated (name : String)
  /-- A call of the method of the template that is modified. -/
  | baseCall (name : String)
  /-- A construct that has no Java form. -/
  | unsupported (description : String)
deriving DecidableEq, Repr

/-- An expression with the class that it constructs. -/
inductive Expr where
  | atom (type : String) (leaf : Atom)
  /-- A record or set with one slot for each field, in the order of the declaration. -/
  | named (type : String) (slots : List (String × Option Expr))
  /-- A record or set in list notation, with one slot for each field. -/
  | positional (type : String) (slots : List (Option Expr))
  /-- A record of or set of. -/
  | sequence (type : String) (elements : List Expr)
  /-- An alternative of a union. -/
  | union (type : String) (alternative : String) (value : Expr)
deriving Repr

/-- The class that an expression constructs. -/
def Expr.type : Expr → String
  | .atom type _ => type
  | .named type _ => type
  | .positional type _ => type
  | .sequence type _ => type
  | .union type _ _ => type

/-- The expression of a literal, apart from its class. An integer is written in decimal without leading zeros. -/
def Literal.atom : Literal → Atom
  | .boolean value => .boolean value
  | .omit => .omitted
  | .verdict value => .keyword value.field
  | .specialFloat value => .keyword value.field
  | .integer value => .literal value.repr
  | .real text => .literal text
  | .charString text => .literal (Text.escapeString text)
  | .bitString digits => .literal digits
  | .hexString digits => .literal digits
  | .octetString digits => .literal digits

end TtcnTemplates
