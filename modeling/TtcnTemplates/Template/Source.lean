import TtcnTemplates.Expr.Source
import TtcnTemplates.Template.Registry

/-! # The source of templates

The faults of a module are written as comments, so that a dropped template can be seen in the source. Then each
template is written as a method.
-/

namespace TtcnTemplates

/-- The fragments of one formal parameter. -/
def Parameter.fragments (parameter : Parameter) : List String := [parameter.type, " ", parameter.name]

/-- The fragments of one override, on a line with `indent` tabs. -/
def Override.fragments (indent : Nat) (override : Override) : List String :=
  tabs indent ++ ["value", override.path.text, " = "] ++ override.value.fragments indent ++ [";\n"]

/-- The fragments of the value of a template, on a line with `indent` tabs. -/
def Template.valueFragments (indent : Nat) (template : Template) : List String :=
  match template.value with
  | some value => value.fragments indent
  | none => ["/* Unexpected null value! */ null"]

/-- The fragments of the method of a template, the first line of which has `indent` tabs. -/
def Template.fragments (indent : Nat) (template : Template) : List String :=
  tabs indent ++ ["public static ", template.type, " ", template.name, "("] ++
    [", "].intercalate (template.parameters.map Parameter.fragments) ++ [") \x7b\n"] ++
    tabs (indent + 1) ++ [template.type, " value = "] ++ template.valueFragments (indent + 1) ++ [";\n"] ++
    template.overrides.flatMap (Override.fragments (indent + 1)) ++
    tabs (indent + 1) ++ ["return value;\n"] ++
    tabs indent ++ ["\x7d\n"]

/-- The fragments of the comment for a fault, on a line with `indent` tabs. -/
def Diagnostic.fragments (indent : Nat) (diagnostic : Diagnostic) : List String :=
  tabs indent ++ ["// ", Text.escapeComment diagnostic.text, "\n"]

/-- The fragments of a module: a comment for each fault, then a method for each template. -/
def Registry.fragments (indent : Nat) (registry : Registry) : List String :=
  (registry.diagnostics.filter Diagnostic.isError).flatMap (Diagnostic.fragments indent) ++
    registry.templates.flatMap (Template.fragments indent)

/-- The source of the templates of a module. -/
def Registry.source (indent : Nat) (registry : Registry) : String := String.join (registry.fragments indent)

end TtcnTemplates
