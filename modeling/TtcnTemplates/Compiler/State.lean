import TtcnTemplates.Log
import TtcnTemplates.Template.Registry
import TtcnTemplates.Types.Symbols

/-! # The state of a compilation

What the scopes of a module share: the symbols, the registry, the formal parameters and the name of the template
whose definition is being read, and the log.
-/

namespace TtcnTemplates

/-- The shared state. -/
structure State where
  symbols : Symbols
  registry : Registry := {}
  parameters : List Parameter := []
  current : Option String := none
  log : List Notice := []
deriving Repr

namespace State

/-- Adds a notice to the log. -/
def note (state : State) (notice : Notice) : State := { state with log := state.log ++ [notice] }

/-- Forgets the definition that was being read. -/
def clear (state : State) : State := { state with parameters := [], current := none }

/-- Makes a remark on the current template. -/
def warn (state : State) (remark : Remark) : State :=
  { state.note (.remarked state.current remark) with
    registry := state.registry.report ⟨state.current, .remark remark⟩ }

/-- Reports a fault of the current template. -/
def fail (state : State) (fault : Fault) : State :=
  { state.note (.failed state.current fault) with
    registry := state.registry.report ⟨state.current, .fault fault⟩ }

/-- Names the module. -/
def setName (state : State) (name : String) : State :=
  { state with registry := { state.registry with name := some name } }

/-- Registers a template. -/
def register (state : State) (template : Template) : State :=
  { state.note (.registered template.name) with registry := state.registry.add template }

/-- The number of a used type. -/
def typeOf (state : State) (use : TypeUse) : Except Fault TypeId :=
  match state.symbols.lookup use with
  | some id => .ok id
  | none => .error (.unknownType use.name)

end State

end TtcnTemplates
