import TtcnTemplates.Expr.Source

/-! # Writing expressions

An expression is written piece by piece, as it is walked through, by an action `put` that writes one fragment. The
action decides where the fragments go, and it may fail, which ends the writing.
-/

namespace TtcnTemplates

section

variable {m : Type → Type} [Monad m] (put : String → m Unit)

/-- Writes the tabs that start a line. -/
def writeTabs (indent : Nat) : m Unit := (tabs indent).forM put

/-- Writes a constructor call, with each of its arguments on a line of its own. -/
def writeCall (indent : Nat) (type : String) (arguments : List (m Unit)) : m Unit := do
  ["new ", type, "("].forM put
  if arguments.isEmpty then put ")"
  else
    put "\n"
    Text.eachSeparated (put ",\n") (fun argument => do writeTabs put (indent + 1); argument) arguments
    put "\n"
    writeTabs put indent
    put ")"

mutual
/-- Writes an expression that starts on a line with `indent` tabs. -/
def Expr.write (indent : Nat) : Expr → m Unit
  | .atom type leaf => (leaf.fragments type).forM put
  | .named type slots => writeCall put indent type (Expr.writeNamed (indent + 1) slots)
  | .positional type slots => writeCall put indent type (Expr.writePositional (indent + 1) 0 slots)
  | .sequence type elements => writeCall put indent type (Expr.writeElements (indent + 1) elements)
  | .union type alternative value => do
    ["new ", unionWrapper alternative type, "("].forM put
    Expr.write indent value
    put ")"

/-- The actions that write each slot of a record or set, by field name. -/
def Expr.writeNamed (indent : Nat) : List (String × Option Expr) → List (m Unit)
  | [] => []
  | (name, none) :: rest => (unbound ("field " ++ name)).forM put :: Expr.writeNamed indent rest
  | (_, some value) :: rest => Expr.write indent value :: Expr.writeNamed indent rest

/-- The actions that write each slot of a record or set, by position from `first` on. -/
def Expr.writePositional (indent first : Nat) : List (Option Expr) → List (m Unit)
  | [] => []
  | none :: rest =>
    (unbound ("element " ++ first.repr)).forM put :: Expr.writePositional indent (first + 1) rest
  | some value :: rest => Expr.write indent value :: Expr.writePositional indent (first + 1) rest

/-- The actions that write each element of a record of or set of. -/
def Expr.writeElements (indent : Nat) : List Expr → List (m Unit)
  | [] => []
  | value :: rest => Expr.write indent value :: Expr.writeElements indent rest
end

end

end TtcnTemplates
