import TtcnTemplates.Template.Basic

/-! # The registry of a module

The templates of a module in the order of their definition, with the diagnostics in the order in which they were
reported. A template shadows an earlier one of the same name; both are kept.
-/

namespace TtcnTemplates

/-- The templates and diagnostics of a module. `index` gives the position of each template by its name, the latest
    first. -/
structure Registry where
  name : Option String := none
  templates : List Template := []
  index : List (String × Nat) := []
  diagnostics : List Diagnostic := []
deriving Repr

namespace Registry

/-- Registers a template. -/
def add (registry : Registry) (template : Template) : Registry :=
  { registry with
    templates := registry.templates ++ [template]
    index := (template.name, registry.templates.length) :: registry.index }

/-- The position of the latest template of a name. -/
def position? (registry : Registry) (name : String) : Option Nat := registry.index.lookup name

/-- The latest template of a name. -/
def find? (registry : Registry) (name : String) : Option Template :=
  (registry.position? name).bind fun position => registry.templates[position]?

/-- Reports a diagnostic. -/
def report (registry : Registry) (diagnostic : Diagnostic) : Registry :=
  { registry with diagnostics := registry.diagnostics ++ [diagnostic] }

/-- Whether a fault has been reported. -/
def hasErrors (registry : Registry) : Bool := registry.diagnostics.any Diagnostic.isError

/-- The template that was added last is found by its name. -/
theorem position?_add_self (registry : Registry) (template : Template) :
    (registry.add template).position? template.name = some registry.templates.length := by
  simp [position?, add]

/-- Adding a template leaves the positions of other names. -/
theorem position?_add_of_ne {name : String} (registry : Registry) (template : Template) (h : name ≠ template.name) :
    (registry.add template).position? name = registry.position? name := by
  simp [position?, add, List.lookup_cons, beq_false_of_ne h]

theorem find?_add_self (registry : Registry) (template : Template) :
    (registry.add template).find? template.name = some template := by
  rw [find?, position?_add_self]
  simp [add]

end Registry

end TtcnTemplates
