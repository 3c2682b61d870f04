import TtcnTemplates.Expr.Write
import TtcnTemplates.Template.Source

/-! # Writing templates

A module is written as it is walked through: first the comments for its faults, then the methods of its templates, with
an action for one fragment as expressions are.
-/

namespace TtcnTemplates

section

variable {m : Type → Type} [Monad m] (put : String → m Unit)

/-- Writes one override, on a line with `indent` tabs. -/
def Override.write (indent : Nat) (override : Override) : m Unit := do
  writeTabs put indent
  ["value", override.path.text, " = "].forM put
  override.value.write put indent
  put ";\n"

/-- Writes the value of a template, on a line with `indent` tabs. -/
def Template.writeValue (indent : Nat) (template : Template) : m Unit :=
  match template.value with
  | some value => value.write put indent
  | none => put "/* Unexpected null value! */ null"

/-- Writes the method of a template, the first line of which has `indent` tabs. -/
def Template.write (indent : Nat) (template : Template) : m Unit := do
  writeTabs put indent
  ["public static ", template.type, " ", template.name, "("].forM put
  Text.eachSeparated (put ", ") (fun parameter => (Parameter.fragments parameter).forM put) template.parameters
  put ") \x7b\n"
  writeTabs put (indent + 1)
  [template.type, " value = "].forM put
  template.writeValue put (indent + 1)
  put ";\n"
  template.overrides.forM (Override.write put (indent + 1))
  writeTabs put (indent + 1)
  put "return value;\n"
  writeTabs put indent
  put "\x7d\n"

/-- Writes the comment for a fault, on a line with `indent` tabs. -/
def Diagnostic.write (indent : Nat) (diagnostic : Diagnostic) : m Unit := do
  writeTabs put indent
  ["// ", Text.escapeComment diagnostic.text, "\n"].forM put

/-- Writes a module: a comment for each fault, then a method for each template. -/
def Registry.write (indent : Nat) (registry : Registry) : m Unit := do
  (registry.diagnostics.filter Diagnostic.isError).forM (Diagnostic.write put indent)
  registry.templates.forM (Template.write put indent)

end

end TtcnTemplates
