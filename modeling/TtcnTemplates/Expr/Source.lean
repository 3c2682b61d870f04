import TtcnTemplates.Expr.Basic

/-! # The source of expressions

An expression is written as a list of fragments, whose concatenation is its source. The arguments of a
constructor stand on lines of their own, one tab deeper than the line on which the expression starts.
-/

namespace TtcnTemplates

/-- The tabs that start a line. -/
def tabs (indent : Nat) : List String := List.replicate indent "\t"

/-- The class that wraps an alternative of a union. -/
def unionWrapper (alternative union : String) : String := "SC_" ++ alternative ++ "_" ++ union

/-- The fragments of an expression without subexpressions. -/
def Atom.fragments (type : String) : Atom → List String
  | .any => [type, ".ANY"]
  | .anyOrOmit => [type, ".ANY_OR_OMIT"]
  | .omitted => [type, ".OMIT"]
  | .boolean true => [type, ".TRUE"]
  | .boolean false => [type, ".FALSE"]
  | .keyword field => [type, ".", field]
  | .literal text => ["new ", type, "(\"", text, "\")"]
  | .parameter name => [name]
  | .constant name => ["Constants.", name, "()"]
  | .enumerated name => [type, ".", name]
  | .baseCall name => ["(", type, ") ", name, "()"]
  | .unsupported description => ["null /* unsupported template: ", Text.escapeComment description, " */"]

/-- The fragments of a slot that is given no value. -/
def unbound (what : String) : List String := ["null /* unbound ", what, " */"]

/-- The fragments of a constructor call whose arguments have the given fragments. -/
def constructorCall (indent : Nat) (type : String) (arguments : List (List String)) : List String :=
  ["new ", type, "("] ++
    (if arguments.isEmpty then []
    else ["\n"] ++ [",\n"].intercalate (arguments.map (tabs (indent + 1) ++ ·)) ++ ["\n"] ++ tabs indent) ++
    [")"]

mutual
/-- The fragments of an expression that starts on a line with `indent` tabs. -/
def Expr.fragments (indent : Nat) : Expr → List String
  | .atom type leaf => leaf.fragments type
  | .named type slots => constructorCall indent type (Expr.namedArguments (indent + 1) slots)
  | .positional type slots => constructorCall indent type (Expr.positionalArguments (indent + 1) 0 slots)
  | .sequence type elements => constructorCall indent type (Expr.elementArguments (indent + 1) elements)
  | .union type alternative value =>
    ["new ", unionWrapper alternative type, "("] ++ Expr.fragments indent value ++ [")"]

/-- The fragments of each slot of a record or set, by field name. -/
def Expr.namedArguments (indent : Nat) : List (String × Option Expr) → List (List String)
  | [] => []
  | (name, none) :: rest => unbound ("field " ++ name) :: Expr.namedArguments indent rest
  | (_, some value) :: rest => Expr.fragments indent value :: Expr.namedArguments indent rest

/-- The fragments of each slot of a record or set, by position from `first` on. -/
def Expr.positionalArguments (indent first : Nat) : List (Option Expr) → List (List String)
  | [] => []
  | none :: rest => unbound ("element " ++ first.repr) :: Expr.positionalArguments indent (first + 1) rest
  | some value :: rest => Expr.fragments indent value :: Expr.positionalArguments indent (first + 1) rest

/-- The fragments of each element of a record of or set of. -/
def Expr.elementArguments (indent : Nat) : List Expr → List (List String)
  | [] => []
  | value :: rest => Expr.fragments indent value :: Expr.elementArguments indent rest
end

/-- The source of an expression that starts on a line with `indent` tabs. -/
def Expr.source (indent : Nat) (value : Expr) : String := String.join (value.fragments indent)

end TtcnTemplates
