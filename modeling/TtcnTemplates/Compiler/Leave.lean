import TtcnTemplates.Compiler.Scope
import TtcnTemplates.Compiler.State

/-! # Leaving a node

What the innermost scope does when a node is left: it stays, or it closes with what it yields. The scope below then
takes what is yielded.
-/

namespace TtcnTemplates

/-- The effect of leaving a node on the innermost scope. -/
inductive Exit where
  /-- The scope stays open. -/
  | stay (scope : Scope)
  /-- The scope closes, with what it yields. -/
  | close (result : Option Yield)
deriving Repr

namespace Scope

/-- Leaving a node with the given innermost scope. A scope closes at the end of the node that it was opened for. -/
def leave (state : State) (tree : Tree) (scope : Scope) : Except Fault (State × Exit) :=
  match scope with
  | .definition draft _ _ =>
    if tree.is .definition then
      draft.template.map fun template => ({ state with parameters := [] }, .close (some (.template template)))
    else .ok (state, .stay scope)
  | .parameterList _ parameters =>
    if tree.is .parameterList then .ok (state, .close (some (.parameters parameters)))
    else .ok (state, .stay scope)
  | .specific type value =>
    if tree.is .body then
      match value with
      | some value => .ok (state, .close (some (.value value)))
      | none =>
        let name := state.symbols.javaName type
        .ok (state.warn (.noLiteral name),
          .close (some (.value (.atom name (.unsupported "empty specific value")))))
    else .ok (state, .stay scope)
  | .named type slots _ =>
    if tree.is .body then
      .ok (state, .close (some (.value (.named type (slots.map fun slot => (slot.field.name, slot.value))))))
    else .ok (state, .stay scope)
  | .union type _ chosen value =>
    if tree.is .body then
      match chosen, value with
      | some alternative, some value => .ok (state, .close (some (.value (.union type alternative value))))
      | _, _ => .error (.noAlternative type)
    else .ok (state, .stay scope)
  | .sequence type _ elements _ =>
    if tree.is .body then .ok (state, .close (some (.value (.sequence type elements))))
    else .ok (state, .stay scope)
  | .positional type slots _ _ _ =>
    if tree.is .body then .ok (state, .close (some (.value (.positional type (slots.map Slot.value)))))
    else .ok (state, .stay scope)
  | .overrideList _ _ _ _ overrides =>
    if tree.is .body then .ok (state, .close (some (.overrides overrides)))
    else .ok (state, .stay scope)
  | .unsupported type description level =>
    if tree.is .body then
      match level with
      | 0 => .ok (state, .close (some (.value (.atom type (.unsupported description)))))
      | level + 1 => .ok (state, .stay (.unsupported type description level))
    else .ok (state, .stay scope)
  | .skip tag level =>
    if tree.is tag then
      match level with
      | 0 => .ok (state, .close none)
      | level + 1 => .ok (state, .stay (.skip tag level))
    else .ok (state, .stay scope)
  | .await tag result =>
    if tree.is tag then .ok (state, .close result) else .ok (state, .stay scope)

/-- Gives a slot its value. -/
def fill (slots : List Slot) (index : Nat) (value : Expr) : List Slot :=
  slots.modify index fun slot => { slot with value := some value }

/-- The remark on a field that is given again. -/
def remarkRepeated (state : State) (type : String) (slots : List Slot) (index : Nat) : State :=
  match slots[index]? with
  | some ⟨field, some _⟩ => state.warn (.repeatedField field.name type)
  | _ => state

/-- Takes what the scope above has yielded. -/
def accept (state : State) (result : Yield) : Scope → Except Fault (State × Scope)
  | .definition draft type modifying =>
    match result with
    | .parameters parameters =>
      .ok ({ state with parameters }, .definition { draft with parameters } type modifying)
    | .value value =>
      if modifying then
        .ok (state, .definition { draft with overrides := draft.overrides ++ [⟨.root, value⟩] } type modifying)
      else .ok (state, .definition { draft with value := some value } type modifying)
    | .overrides overrides =>
      .ok (state, .definition { draft with overrides := draft.overrides ++ overrides } type modifying)
    | .template _ => .error (.unexpected result.text)
  | .named type slots pending =>
    match result, pending with
    | .value value, some index =>
      .ok (remarkRepeated state type slots index, .named type (fill slots index value) none)
    | _, _ => .error (.unexpected result.text)
  | .union type alternatives chosen _ =>
    match result with
    | .value value => .ok (state, .union type alternatives chosen (some value))
    | _ => .error (.unexpected result.text)
  | .sequence type element elements listed =>
    match result with
    | .value value => .ok (state, .sequence type element (elements ++ [value]) listed)
    | _ => .error (.unexpected result.text)
  | .positional type slots next current listed =>
    match result, current with
    | .value value, some index => .ok (state, .positional type (fill slots index value) next none listed)
    | _, _ => .error (.unexpected result.text)
  | .overrideList type path fields pending overrides =>
    match result, pending with
    | .value value, some field =>
      .ok (state, .overrideList type path fields none (overrides ++ [⟨path.child field, value⟩]))
    | .overrides more, _ => .ok (state, .overrideList type path fields none (overrides ++ more))
    | _, _ => .error (.unexpected result.text)
  | _ => .error (.unexpected result.text)

end Scope

end TtcnTemplates
