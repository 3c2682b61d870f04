import TtcnTemplates.Compiler.Scope
import TtcnTemplates.Compiler.State
import TtcnTemplates.Literal.Reader

/-! # Template bodies

The scope that reads a template body, and the expression that a single literal or reference becomes.
-/

namespace TtcnTemplates

/-! ### The scope of a body

Which scope reads a body depends on its shape and on the type that it is read at.
-/

/-- What a remark calls a body that has no Java form. -/
def Tree.description (body : Tree) : String :=
  match body.children with
  | [] => "empty template"
  | ⟨.other description, _⟩ :: _ => description
  | shape :: _ => shape.tag.text

namespace State

/-- The scope of a body that has no Java form at its type. -/
def unsupportedScope (state : State) (type : String) (body : Tree) : State × Scope :=
  (state.warn (.unsupported body.description type), .unsupported type body.description 0)

/-- The scope that reads a body as a value of a type. -/
def valueScope (state : State) (type : TypeId) (body : Tree) : State × Scope :=
  let symbols := state.symbols
  let name := symbols.javaName type
  let state := state.note (.reading body.shape name)
  match body.shape with
  | some .specific => (state, .specific type none)
  | some .fieldList =>
    if symbols.isUnion type then (state, .union name (symbols.fields type) none none)
    else if symbols.isStructured type then (state, .named name (Slot.ofFields (symbols.fields type)) none)
    else state.unsupportedScope name body
  | some .elementList =>
    match symbols.element? type with
    | some element => (state, .sequence name element [] false)
    | none =>
      if symbols.isStructured type then
        (state, .positional name (Slot.ofFields (symbols.fields type)) 0 none false)
      else state.unsupportedScope name body
  | some .any => (state, .await .body (some (.value (.atom name .any))))
  | some .anyOrOmit => (state, .await .body (some (.value (.atom name .anyOrOmit))))
  | _ => state.unsupportedScope name body

/-- The scope that reads a body as overrides of the part at `path`, which is of the given type. Assignment notation
    for a record or set overrides field by field; anything else overrides the part as a whole. -/
def overrideScope (state : State) (type : TypeId) (path : FieldPath) (body : Tree) : State × Scope :=
  if body.shape = some .fieldList ∧ state.symbols.isStructured type then
    (state, .overrideList (state.symbols.javaName type) path (state.symbols.fields type) none [])
  else state.valueScope type body

end State

/-! ### Literals and references

A name is first looked for among the formal parameters, then among the constants, then among the values of the type; a
keyword may also be written as a name.
-/

/-- The literal of a token. -/
def readLiteral (text : String) : Except Fault Literal :=
  match Literal.ofText? text with
  | some literal => .ok literal
  | none => .error (.malformedLiteral text)

namespace State

/-- What a reference stands for, apart from its class. -/
def referenceAtom (state : State) (type : TypeId) (name : String) : Except Fault Atom :=
  if state.parameters.any (fun parameter => parameter.name == name) then .ok (.parameter name)
  else if state.symbols.isConstant name then .ok (.constant name)
  else if state.symbols.hasValue type name then .ok (.enumerated name)
  else match readLiteral name with
    | .ok literal => if literal.isKeyword then .ok literal.atom else .error (.unresolvedReference name)
    | .error _ => .error (.unresolvedReference name)

/-- The expression of a node that holds a literal or a reference. Any other node has no Java form. -/
def specific (state : State) (type : TypeId) (form : Form) : Except Fault Expr :=
  let atom := match form with
    | .literal text => (readLiteral text).map Literal.atom
    | .reference name => state.referenceAtom type name
    | form => .ok (.unsupported form.tag.text)
  atom.map (.atom (state.symbols.javaName type))

end State

end TtcnTemplates
