import TtcnTemplates.Expr.Basic
import TtcnTemplates.Template.Diagnostic

/-! # Templates

A template becomes a static method that returns its value. A template that modifies another one takes the value
of that one and overrides parts of it.
-/

namespace TtcnTemplates

/-- A formal parameter with its class. -/
structure Parameter where
  type : String
  name : String
deriving DecidableEq, Repr

/-- The part of a value that is reached by a chain of field names. -/
structure FieldPath where
  fields : List String
deriving DecidableEq, Repr

/-- The whole value. -/
def FieldPath.root : FieldPath := ⟨[]⟩

/-- The field with the given name of the part. -/
def FieldPath.child (path : FieldPath) (field : String) : FieldPath := ⟨path.fields ++ [field]⟩

/-- The path as it stands after the name of a value. -/
def FieldPath.text (path : FieldPath) : String := String.join (path.fields.map ("." ++ ·))

/-- Gives the part of a value at `path` a value of its own. -/
structure Override where
  path : FieldPath
  value : Expr
deriving Repr

/-- A template. It has no value where its definition has no body. -/
structure Template where
  name : String
  type : String
  value : Option Expr
  parameters : List Parameter
  overrides : List Override
deriving Repr

/-- The parts of a template, as far as its definition has been read. -/
structure Draft where
  name : Option String := none
  type : Option String := none
  value : Option Expr := none
  parameters : List Parameter := []
  overrides : List Override := []
deriving Repr

/-- The template of a finished draft. The name is asked for before the type. -/
def Draft.template (draft : Draft) : Except Fault Template :=
  match draft.name, draft.type with
  | none, _ => .error .missingName
  | _, none => .error .missingType
  | some name, some type => .ok ⟨name, type, draft.value, draft.parameters, draft.overrides⟩

end TtcnTemplates
