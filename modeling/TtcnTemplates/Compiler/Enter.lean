import TtcnTemplates.Compiler.Body

/-! # Entering a node

What the innermost scope does when a node is entered: it updates what it has gathered, and it may open a scope,
which does not see the node that opened it.
-/

namespace TtcnTemplates

/-- The effect of entering a node: the shared state, the scope itself, and the scope that it opens. -/
structure Entry where
  state : State
  scope : Scope
  opened : Option Scope := none
deriving Repr

namespace Scope

/-- A scope that passes over the node that is being entered. -/
def passOver (tag : Tag) : Scope := .skip tag 0

/-- Entering a node of a definition. -/
def enterDefinition (state : State) (tree : Tree) (draft : Draft) (type : Option TypeId) (modifying : Bool) :
    Except Fault Entry :=
  match tree.form with
  | .type use =>
    (state.typeOf use).map fun id =>
      ⟨state, .definition { draft with type := some (state.symbols.javaName id) } (some id) modifying,
        some (passOver .type)⟩
  | .identifier name =>
    .ok ⟨{ state with current := some name }, .definition { draft with name := some name } type modifying, none⟩
  | .parameterList => .ok ⟨state, .definition draft type modifying, some (.parameterList none [])⟩
  | .base name =>
    match draft.type with
    | none => .error .missingType
    | some typeName =>
      if (state.registry.find? name).isNone then .error (.unknownBase name)
      else
        .ok ⟨state, .definition { draft with value := some (.atom typeName (.baseCall name)) } type true,
          some (passOver .base)⟩
  | .body =>
    match type with
    | none => .error .missingType
    | some id =>
      let (state, opened) :=
        if modifying then state.overrideScope id .root tree else state.valueScope id tree
      .ok ⟨state, .definition draft type modifying, some opened⟩
  | _ => .ok ⟨state, .definition draft type modifying, none⟩

/-- Entering a node of a list of formal parameters. A name takes the type before it. -/
def enterParameters (state : State) (tree : Tree) (pending : Option String) (parameters : List Parameter) :
    Except Fault Entry :=
  match tree.form with
  | .type use =>
    (state.typeOf use).map fun id =>
      ⟨state, .parameterList (some (state.symbols.javaName id)) parameters, some (passOver .type)⟩
  | .identifier name =>
    match pending with
    | none => .error .missingType
    | some type => .ok ⟨state, .parameterList none (parameters ++ [⟨type, name⟩]), none⟩
  | _ => .ok ⟨state, .parameterList pending parameters, none⟩

/-- Entering a node of a specific value. The last literal or reference counts. -/
def enterSpecific (state : State) (tree : Tree) (type : TypeId) (value : Option Expr) : Except Fault Entry :=
  match tree.tag with
  | .literal => (state.specific type tree.form).map fun value => ⟨state, .specific type (some value), none⟩
  | .reference => (state.specific type tree.form).map fun value => ⟨state, .specific type (some value), none⟩
  | _ => .ok ⟨state, .specific type value, none⟩

/-- Entering a node of a record or set in assignment notation. A body belongs to the field named last. -/
def enterNamed (state : State) (tree : Tree) (type : String) (slots : List Slot) (pending : Option Nat) :
    Except Fault Entry :=
  match tree.form with
  | .identifier name =>
    match slots.findIdx? fun slot => slot.field.name == name with
    | some index => .ok ⟨state, .named type slots (some index), none⟩
    | none => .error (.unknownField type name)
  | .body =>
    match pending.bind fun index => slots[index]? with
    | some slot =>
      let (state, opened) := state.valueScope slot.field.type tree
      .ok ⟨state, .named type slots pending, some opened⟩
    | none => .ok ⟨state.warn (.unnamedField type), .named type slots pending, some (passOver .body)⟩
  | _ => .ok ⟨state, .named type slots pending, none⟩

/-- Entering a node of a union. Exactly one alternative may be named. -/
def enterUnion (state : State) (tree : Tree) (type : String) (alternatives : List (Field TypeId))
    (chosen : Option String) (value : Option Expr) : Except Fault Entry :=
  match tree.form with
  | .identifier name =>
    match chosen with
    | some first => .error (.severalAlternatives type first name)
    | none =>
      match Field.find? alternatives name with
      | some _ => .ok ⟨state, .union type alternatives (some name) value, none⟩
      | none => .error (.unknownAlternative type name)
  | .body =>
    match chosen.bind (Field.find? alternatives) with
    | some alternative =>
      let (state, opened) := state.valueScope alternative.type tree
      .ok ⟨state, .union type alternatives chosen value, some opened⟩
    | none => .error (.noAlternative type)
  | _ => .ok ⟨state, .union type alternatives chosen value, none⟩

/-- Entering a node of a record of or set of. Only the first element list counts. -/
def enterSequence (state : State) (tree : Tree) (type : String) (element : TypeId) (elements : List Expr)
    (listed : Bool) : Except Fault Entry :=
  match tree.form with
  | .elementList =>
    if listed then
      .ok ⟨state.note (.repeatedList type), .sequence type element elements listed, some (passOver .elementList)⟩
    else .ok ⟨state, .sequence type element elements true, none⟩
  | .body =>
    let (state, opened) := state.valueScope element tree
    .ok ⟨state, .sequence type element elements listed, some opened⟩
  | _ => .ok ⟨state, .sequence type element elements listed, none⟩

/-- Entering a node of a record or set in list notation. Only the first element list counts, and only as many
    elements as there are fields. -/
def enterPositional (state : State) (tree : Tree) (type : String) (slots : List Slot) (next : Nat)
    (current : Option Nat) (listed : Bool) : Except Fault Entry :=
  match tree.form with
  | .elementList =>
    if listed then
      .ok ⟨state.note (.repeatedList type), .positional type slots next current listed,
        some (passOver .elementList)⟩
    else .ok ⟨state, .positional type slots next current true, none⟩
  | .body =>
    match slots[next]? with
    | some slot =>
      let (state, opened) := state.valueScope slot.field.type tree
      .ok ⟨state, .positional type slots (next + 1) (some next) listed, some opened⟩
    | none =>
      .ok ⟨state.warn (.surplusElement next slots.length type), .positional type slots (next + 1) current listed,
        some (passOver .body)⟩
  | _ => .ok ⟨state, .positional type slots next current listed, none⟩

/-- Entering a node of overrides in assignment notation. A body belongs to the field named last. -/
def enterOverrides (state : State) (tree : Tree) (type : String) (path : FieldPath) (fields : List (Field TypeId))
    (pending : Option String) (overrides : List Override) : Except Fault Entry :=
  match tree.form with
  | .identifier name =>
    match Field.find? fields name with
    | some _ => .ok ⟨state, .overrideList type path fields (some name) overrides, none⟩
    | none => .error (.unknownField type name)
  | .body =>
    match pending.bind (Field.find? fields) with
    | some field =>
      let (state, opened) := state.overrideScope field.type (path.child field.name) tree
      .ok ⟨state, .overrideList type path fields pending overrides, some opened⟩
    | none =>
      .ok ⟨state.warn (.unnamedField type), .overrideList type path fields pending overrides, some (passOver .body)⟩
  | _ => .ok ⟨state, .overrideList type path fields pending overrides, none⟩

/-- Entering a node with the given innermost scope. -/
def enter (state : State) (tree : Tree) : Scope → Except Fault Entry
  | .definition draft type modifying => enterDefinition state tree draft type modifying
  | .parameterList pending parameters => enterParameters state tree pending parameters
  | .specific type value => enterSpecific state tree type value
  | .named type slots pending => enterNamed state tree type slots pending
  | .union type alternatives chosen value => enterUnion state tree type alternatives chosen value
  | .sequence type element elements listed => enterSequence state tree type element elements listed
  | .positional type slots next current listed => enterPositional state tree type slots next current listed
  | .overrideList type path fields pending overrides => enterOverrides state tree type path fields pending overrides
  | .unsupported type description level =>
    .ok ⟨state, .unsupported type description (if tree.is .body then level + 1 else level), none⟩
  | .skip tag level => .ok ⟨state, .skip tag (if tree.is tag then level + 1 else level), none⟩
  | .await tag result => .ok ⟨state, .await tag result, none⟩

end Scope

end TtcnTemplates
