import TtcnTemplates.Proofs.Effect

/-! # How values are put together

Expressions are put together by five rules, one for each kind of scope that yields one (`Expr.Forms`). The scope of a
body was opened for a type. What it has gathered are values of the types of its slots (`Scope.Gathers`), a scope that it
opens is for the type of the slot that it is about to fill (`Scope.target`), and what it yields is of its own type.
-/

namespace TtcnTemplates

/-! ### Types of a table -/

/-- A type of the table. -/
def Symbols.Has (symbols : Symbols) (type : TypeId) : Prop := type.index < symbols.entries.length

theorem Symbols.has_of_shape? {symbols : Symbols} {type : TypeId} {shape : TypeShape TypeId}
    (found : symbols.shape? type = some shape) : symbols.Has type := by
  obtain ⟨entry, there, -⟩ := Option.bind_eq_some_iff.mp found
  exact (List.getElem?_eq_some_iff.mp there).1

theorem Symbols.has_of_isStructured {symbols : Symbols} {type : TypeId}
    (structured : symbols.isStructured type = true) : symbols.Has type := by
  cases found : symbols.shape? type with
  | none => simp [Symbols.isStructured, found] at structured
  | some shape => exact Symbols.has_of_shape? found

theorem Symbols.has_of_isUnion {symbols : Symbols} {type : TypeId} (isUnion : symbols.isUnion type = true) :
    symbols.Has type := by
  cases found : symbols.shape? type with
  | none => simp [Symbols.isUnion, found] at isUnion
  | some shape => exact Symbols.has_of_shape? found

theorem Symbols.has_of_element? {symbols : Symbols} {type element : TypeId}
    (found : symbols.element? type = some element) : symbols.Has type := by
  cases shape : symbols.shape? type with
  | none => simp [Symbols.element?, shape] at found
  | some _ => exact Symbols.has_of_shape? shape

/-- Every type that a table leads to is a type of the table. -/
structure Symbols.Closed (symbols : Symbols) : Prop where
  lookup {use : TypeUse} {type : TypeId} (found : symbols.lookup use = some type) : symbols.Has type
  field {type : TypeId} {field : Field TypeId} (member : field ∈ symbols.fields type) : symbols.Has field.type
  element {type element : TypeId} (found : symbols.element? type = some element) : symbols.Has element

/-- A chain of field names leads from one type to another, through records and sets. -/
inductive Symbols.Leads (symbols : Symbols) (root : TypeId) : List String → TypeId → Prop
  | root : Leads symbols root [] root
  | field {path : List String} {owner : TypeId} {field : Field TypeId} (rest : Leads symbols root path owner)
      (structured : symbols.isStructured owner = true) (member : field ∈ symbols.fields owner) :
      Leads symbols root (path ++ [field.name]) field.type

theorem Field.mem_of_find? {fields : List (Field TypeId)} {name : String} {field : Field TypeId}
    (found : Field.find? fields name = some field) : field ∈ fields ∧ field.name = name := by
  rw [Field.find?] at found
  exact ⟨List.mem_of_find?_eq_some found, by simpa using List.find?_some found⟩

/-! ### Expressions -/

/-- What an expression without subexpressions stands for at a type: the name of a parameter or of a base is one that
    nodes have given, and a literal or a keyword is what some token says. -/
def Atom.Arises (symbols : Symbols) (given : String → Prop) (type : TypeId) (leaf : Atom) : Prop :=
  match leaf with
  | .parameter name => given name
  | .baseCall name => given name
  | .constant name => symbols.isConstant name = true
  | .enumerated name => symbols.hasValue type name = true
  | .literal _ => ∃ token literal, Literal.ofText? token = some literal ∧ leaf = literal.atom
  | .keyword _ => ∃ token literal, Literal.ofText? token = some literal ∧ leaf = literal.atom
  | _ => True

theorem Literal.atom_arises (symbols : Symbols) (given : String → Prop) (type : TypeId) {token : String}
    {literal : Literal} (found : Literal.ofText? token = some literal) : literal.atom.Arises symbols given type := by
  have said : ∃ token literal', Literal.ofText? token = some literal' ∧ literal.atom = literal'.atom :=
    ⟨token, literal, found, rfl⟩
  match literal with
  | .boolean _ => trivial
  | .omit => trivial
  | .verdict _ => exact said
  | .specialFloat _ => exact said
  | .integer _ => exact said
  | .real _ => exact said
  | .charString _ => exact said
  | .bitString _ => exact said
  | .hexString _ => exact said
  | .octetString _ => exact said

/-- How an expression of a type is put together. -/
inductive Expr.Forms (symbols : Symbols) (given : String → Prop) : TypeId → Expr → Prop
  | atom {type : TypeId} {leaf : Atom} (known : symbols.Has type) (arises : leaf.Arises symbols given type) :
      Forms symbols given type (.atom (symbols.javaName type) leaf)
  | named {type : TypeId} {slots : List Slot} (structured : symbols.isStructured type = true)
      (fields : slots.map Slot.field = symbols.fields type)
      (values : ∀ slot ∈ slots, ∀ value, slot.value = some value → Forms symbols given slot.field.type value) :
      Forms symbols given type
        (.named (symbols.javaName type) (slots.map fun slot => (slot.field.name, slot.value)))
  | positional {type : TypeId} {slots : List Slot} (structured : symbols.isStructured type = true)
      (fields : slots.map Slot.field = symbols.fields type)
      (values : ∀ slot ∈ slots, ∀ value, slot.value = some value → Forms symbols given slot.field.type value) :
      Forms symbols given type (.positional (symbols.javaName type) (slots.map Slot.value))
  | sequence {type element : TypeId} {elements : List Expr} (found : symbols.element? type = some element)
      (values : ∀ value ∈ elements, Forms symbols given element value) :
      Forms symbols given type (.sequence (symbols.javaName type) elements)
  | union {type : TypeId} {alternative : Field TypeId} {value : Expr} (isUnion : symbols.isUnion type = true)
      (member : alternative ∈ symbols.fields type) (inner : Forms symbols given alternative.type value) :
      Forms symbols given type (.union (symbols.javaName type) alternative.name value)

/-- The slots of a record or set: one for each field, with values of the field's type. -/
structure Slot.Hold (symbols : Symbols) (given : String → Prop) (type : TypeId) (slots : List Slot) : Prop where
  structured : symbols.isStructured type = true
  fields : slots.map Slot.field = symbols.fields type
  values : ∀ slot ∈ slots, ∀ value, slot.value = some value → value.Forms symbols given slot.field.type

/-- An override of a part that is reached from one of the given types. -/
def Override.Amends (symbols : Symbols) (given : String → Prop) (roots : List TypeId) (override : Override) : Prop :=
  ∃ root ∈ roots, ∃ type, symbols.Leads root override.path.fields type ∧ override.value.Forms symbols given type

/-- A formal parameter of some type of the table. -/
def Parameter.Forms (symbols : Symbols) (given : String → Prop) (parameter : Parameter) : Prop :=
  given parameter.name ∧ ∃ type, symbols.Has type ∧ parameter.type = symbols.javaName type

namespace Slot.Hold

variable {symbols : Symbols} {given : String → Prop} {type : TypeId} {slots : List Slot}

theorem ofFields (structured : symbols.isStructured type = true) :
    Slot.Hold symbols given type (Slot.ofFields (symbols.fields type)) := by
  refine ⟨structured, ?_, ?_⟩
  · simp [Slot.ofFields, Function.comp_def]
  · intro slot member value filled
    obtain ⟨field, -, rfl⟩ := List.mem_map.mp member
    cases filled

theorem mem_fields (hold : Slot.Hold symbols given type slots) {slot : Slot} (member : slot ∈ slots) :
    slot.field ∈ symbols.fields type := by
  rw [← hold.fields]
  exact List.mem_map_of_mem member

theorem fill (hold : Slot.Hold symbols given type slots) {index : Nat} {slot : Slot}
    (there : slots[index]? = some slot) {value : Expr} (forms : value.Forms symbols given slot.field.type) :
    Slot.Hold symbols given type (Scope.fill slots index value) := by
  refine ⟨hold.structured, ?_, ?_⟩
  · rw [← hold.fields]
    apply List.ext_getElem?
    intro position
    by_cases here : index = position
    · subst here
      simp [Scope.fill, there]
    · simp [Scope.fill, here]
  · intro other member value' filled
    obtain ⟨position, found⟩ := List.mem_iff_getElem?.mp member
    by_cases here : index = position
    · subst here
      simp [Scope.fill, there] at found
      subst found
      cases filled
      exact forms
    · simp [Scope.fill, here] at found
      exact hold.values other (List.mem_of_getElem? found) value' filled

end Slot.Hold

/-! ### Scopes -/

/-- The type of the slot for which a scope takes the next value. -/
def Scope.target : Scope → Option TypeId
  | .definition _ type _ => type
  | .named _ slots pending => (pending.bind fun index => slots[index]?).map fun slot => slot.field.type
  | .union _ alternatives chosen _ => (chosen.bind (Field.find? alternatives)).map Field.type
  | .sequence _ element _ _ => some element
  | .positional _ slots _ current _ => (current.bind fun index => slots[index]?).map fun slot => slot.field.type
  | .overrideList _ _ fields pending _ => (pending.bind (Field.find? fields)).map Field.type
  | _ => none

/-- What a scope has gathered that was opened for a body of the given type, while its definition has read the types
    `roots`. -/
def Scope.Gathers (symbols : Symbols) (given : String → Prop) (roots : List TypeId) (type : TypeId) : Scope → Prop
  | .specific type' value => type' = type ∧ ∀ result, value = some result → result.Forms symbols given type
  | .named name slots _ => name = symbols.javaName type ∧ Slot.Hold symbols given type slots
  | .union name alternatives chosen value =>
    name = symbols.javaName type ∧ symbols.isUnion type = true ∧ alternatives = symbols.fields type ∧
      ∀ result, value = some result → ∃ alternative ∈ alternatives,
        chosen = some alternative.name ∧ result.Forms symbols given alternative.type
  | .sequence name element elements _ =>
    name = symbols.javaName type ∧ symbols.element? type = some element ∧
      ∀ value ∈ elements, value.Forms symbols given element
  | .positional name slots _ _ _ => name = symbols.javaName type ∧ Slot.Hold symbols given type slots
  | .overrideList _ path fields _ overrides =>
    symbols.isStructured type = true ∧ fields = symbols.fields type ∧
      (∃ root ∈ roots, symbols.Leads root path.fields type) ∧
      ∀ override ∈ overrides, override.Amends symbols given roots
  | .unsupported name _ _ => name = symbols.javaName type
  | .await _ result => ∃ value, result = some (.value value) ∧ value.Forms symbols given type
  | _ => False

/-- A draft, after its definition has read the types `roots`. The last of these is its type. -/
structure Draft.Forms (symbols : Symbols) (given : String → Prop) (roots : List TypeId) (draft : Draft) : Prop where
  name : ∀ name, draft.name = some name → given name
  type : draft.type = roots.getLast?.map symbols.javaName
  value : ∀ value, draft.value = some value → ∃ type ∈ roots, value.Forms symbols given type
  parameters : ∀ parameter ∈ draft.parameters, parameter.Forms symbols given
  overrides : ∀ override ∈ draft.overrides, override.Amends symbols given roots

/-- A scope on the given parent: a definition has none, and the scope of a body was opened for the type of the slot that
    the parent is about to fill. -/
inductive Scope.Stands (symbols : Symbols) (given : String → Prop) (roots : List TypeId) (parent : Option Scope) :
    Scope → Prop
  | definition {draft : Draft} {type : Option TypeId} {modifying : Bool} (bottom : parent = none)
      (forms : draft.Forms symbols given roots) (last : type = roots.getLast?) :
      Stands symbols given roots parent (.definition draft type modifying)
  | parameterList {pending : Option String} {parameters : List Parameter}
      (typed : ∀ name, pending = some name → ∃ type, symbols.Has type ∧ name = symbols.javaName type)
      (forms : ∀ parameter ∈ parameters, parameter.Forms symbols given) :
      Stands symbols given roots parent (.parameterList pending parameters)
  | skip {tag : Tag} {level : Nat} : Stands symbols given roots parent (.skip tag level)
  | body {scope : Scope} {type : TypeId} (target : parent.bind Scope.target = some type) (known : symbols.Has type)
      (gathers : scope.Gathers symbols given roots type) : Stands symbols given roots parent scope

/-- What is yielded for a slot of the given type. -/
def Yield.Forms (symbols : Symbols) (given : String → Prop) (roots : List TypeId) (type : TypeId) : Yield → Prop
  | .value result => result.Forms symbols given type
  | .overrides changes => ∀ override ∈ changes, override.Amends symbols given roots
  | _ => False

/-- A state before and after something that is neither a template nor a list of formal parameters. -/
structure State.Keeps (before after : State) : Prop where
  symbols : after.symbols = before.symbols
  parameters : after.parameters = before.parameters
  templates : after.registry.templates = before.registry.templates

theorem State.Keeps.rfl {state : State} : state.Keeps state := ⟨.refl _, .refl _, .refl _⟩

theorem State.valueScope_keeps (state : State) (type : TypeId) (body : Tree) :
    state.Keeps (state.valueScope type body).1 := by
  rw [State.valueScope_eq, Symbols.bodyUpdates]
  split
  · exact ⟨rfl, rfl, rfl⟩
  · exact ⟨rfl, rfl, rfl⟩

theorem State.overrideScope_keeps (state : State) (type : TypeId) (path : FieldPath) (body : Tree) :
    state.Keeps (state.overrideScope type path body).1 := by
  rw [State.overrideScope]
  split
  · exact .rfl
  · exact state.valueScope_keeps type body

variable {symbols : Symbols} {given : String → Prop} {roots : List TypeId} {state : State}

/-- A new scope for a body has gathered nothing yet. -/
theorem State.valueScope_gathers (same : state.symbols = symbols) {type : TypeId} (known : symbols.Has type)
    (body : Tree) : (state.valueScope type body).2.Gathers symbols given roots type := by
  have atom {leaf : Atom} (arises : leaf.Arises symbols given type) :
      ∃ value, some (Yield.value (.atom (symbols.javaName type) leaf)) = some (.value value) ∧
        value.Forms symbols given type :=
    ⟨_, rfl, .atom known arises⟩
  subst same
  simp only [State.valueScope, State.unsupportedScope]
  split
  · exact ⟨rfl, by simp⟩
  · split
    · exact ⟨rfl, ‹_›, rfl, by simp⟩
    · split
      · exact ⟨rfl, .ofFields ‹_›⟩
      · rfl
  · split
    · exact ⟨rfl, ‹_›, by simp⟩
    · split
      · exact ⟨rfl, .ofFields ‹_›⟩
      · rfl
  · exact atom trivial
  · exact atom trivial
  · rfl

/-- So has a new scope for overrides, and its path leads to the part that it is for. -/
theorem State.overrideScope_gathers (same : state.symbols = symbols) {root type : TypeId} {path : FieldPath}
    (member : root ∈ roots) (leads : symbols.Leads root path.fields type) (known : symbols.Has type) (body : Tree) :
    (state.overrideScope type path body).2.Gathers symbols given roots type := by
  rw [State.overrideScope]
  split
  · rename_i parted
    subst same
    exact ⟨parted.2, rfl, ⟨root, member, leads⟩, by simp⟩
  · exact state.valueScope_gathers same known body

/-! ### Entering a node -/

/-- The names that a node gives. -/
def Form.Gives (given : String → Prop) : Form → Prop
  | .identifier name => given name
  | .base name => given name
  | _ => True

/-- The outcome of entering a node: what holds of the scope, and a scope that is opened stands on it. -/
def EnterForms (symbols : Symbols) (given : String → Prop) (roots : List TypeId) (holds : Scope → Prop)
    (state : State) : Except Fault Entry → Prop
  | .error _ => True
  | .ok entry =>
    state.Keeps entry.state ∧ holds entry.scope ∧
      ∀ opened, entry.opened = some opened → opened.Stands symbols given roots (some entry.scope)

namespace EnterForms

variable {holds : Scope → Prop} {after : State} {scope : Scope}

theorem unopened (keeps : state.Keeps after) (held : holds scope) :
    EnterForms symbols given roots holds state (.ok ⟨after, scope, none⟩) :=
  ⟨keeps, held, nofun⟩

theorem passing (tag : Tag) (keeps : state.Keeps after) (held : holds scope) :
    EnterForms symbols given roots holds state (.ok ⟨after, scope, some (.passOver tag)⟩) := by
  refine ⟨keeps, held, ?_⟩
  rintro _ ⟨⟩
  exact .skip

/-- A scope that is opened for the slot which is to be filled next. -/
theorem opening {opened : Scope} {slot : TypeId} (keeps : state.Keeps after) (held : holds scope)
    (target : scope.target = some slot) (known : symbols.Has slot)
    (inner : opened.Gathers symbols given roots slot) :
    EnterForms symbols given roots holds state (.ok ⟨after, scope, some opened⟩) := by
  refine ⟨keeps, held, ?_⟩
  rintro _ ⟨⟩
  exact .body target known inner

end EnterForms

/-- The literal of a token arises from the token. -/
theorem readLiteral_arises {type : TypeId} {text : String} {literal : Literal} (read : readLiteral text = .ok literal) :
    literal.atom.Arises symbols given type := by
  rw [readLiteral] at read
  split at read
  · cases read
    exact Literal.atom_arises _ _ _ ‹_›
  · cases read

/-- What a reference stands for arises from the name that it gives. -/
theorem State.referenceAtom_arises (same : state.symbols = symbols)
    (parameters : ∀ parameter ∈ state.parameters, given parameter.name) {type : TypeId} {name : String} {leaf : Atom}
    (read : state.referenceAtom type name = .ok leaf) : leaf.Arises symbols given type := by
  subst same
  rw [State.referenceAtom] at read
  split at read
  · rename_i isParameter
    obtain ⟨parameter, member, equal⟩ := List.any_eq_true.mp isParameter
    cases read
    rw [← eq_of_beq equal]
    exact parameters parameter member
  · split at read
    · cases read
      assumption
    · split at read
      · cases read
        assumption
      · split at read
        · rename_i literal
          split at read
          · cases read
            exact readLiteral_arises literal
          · cases read
        · cases read

/-- An expression that is read off a literal or a reference. -/
theorem State.specific_forms (same : state.symbols = symbols)
    (parameters : ∀ parameter ∈ state.parameters, given parameter.name) {type : TypeId} (known : symbols.Has type)
    {form : Form} {value : Expr} (read : state.specific type form = .ok value) : value.Forms symbols given type := by
  have atom {leaf : Except Fault Atom} (made : leaf.map (.atom (state.symbols.javaName type)) = .ok value)
      (arises : ∀ atom, leaf = .ok atom → atom.Arises symbols given type) : value.Forms symbols given type := by
    cases leaf with
    | error fault => cases made
    | ok leaf =>
      cases made
      rw [same]
      exact .atom known (arises leaf rfl)
  cases form with
  | literal text =>
    refine atom read ?_
    intro leaf made
    cases found : readLiteral text with
    | error fault => simp [found, Except.map] at made
    | ok literal =>
      simp only [found, Except.map, Except.ok.injEq] at made
      rw [← made]
      exact readLiteral_arises found
  | reference name => exact atom read fun _ => State.referenceAtom_arises same parameters
  | _ =>
    cases read
    rw [same]
    exact .atom known trivial

namespace Scope

variable {type : TypeId} {tree : Tree}

theorem enterSpecific_forms (same : state.symbols = symbols)
    (parameters : ∀ parameter ∈ state.parameters, given parameter.name) (known : symbols.Has type) {type' : TypeId}
    {value : Option Expr} (gathers : (Scope.specific type' value).Gathers symbols given roots type) :
    EnterForms symbols given roots (Gathers symbols given roots type) state (enterSpecific state tree type' value) := by
  obtain ⟨rfl, forms⟩ := gathers
  have read : EnterForms symbols given roots (Gathers symbols given roots type') state
      ((state.specific type' tree.form).map fun value => ⟨state, .specific type' (some value), none⟩) := by
    cases found : state.specific type' tree.form with
    | error fault => trivial
    | ok value =>
      refine .unopened .rfl ⟨rfl, ?_⟩
      rintro _ ⟨⟩
      exact State.specific_forms same parameters known found
  unfold enterSpecific
  cases tree.tag with
  | literal => exact read
  | reference => exact read
  | _ => exact .unopened .rfl ⟨rfl, forms⟩

theorem enterNamed_forms (same : state.symbols = symbols) (closed : symbols.Closed) {name : String}
    {slots : List Slot} {pending : Option Nat}
    (gathers : (Scope.named name slots pending).Gathers symbols given roots type) :
    EnterForms symbols given roots (Gathers symbols given roots type) state
      (enterNamed state tree name slots pending) := by
  unfold enterNamed
  cases tree.form with
  | identifier field =>
    dsimp only
    cases slots.findIdx? fun slot => slot.field.name == field with
    | none => trivial
    | some index => exact .unopened .rfl gathers
  | body =>
    dsimp only
    cases found : pending.bind fun index => slots[index]? with
    | none => exact .passing .body ⟨rfl, rfl, rfl⟩ gathers
    | some slot =>
      obtain ⟨index, -, there⟩ := Option.bind_eq_some_iff.mp found
      have known : symbols.Has slot.field.type := closed.field (gathers.2.mem_fields (List.mem_of_getElem? there))
      exact .opening (state.valueScope_keeps _ tree) gathers (by simp [target, found]) known
        (state.valueScope_gathers same known tree)
  | _ => exact .unopened .rfl gathers

theorem enterUnion_forms (same : state.symbols = symbols) (closed : symbols.Closed) {name : String}
    {alternatives : List (Field TypeId)} {chosen : Option String} {value : Option Expr}
    (gathers : (Scope.union name alternatives chosen value).Gathers symbols given roots type) :
    EnterForms symbols given roots (Gathers symbols given roots type) state
      (enterUnion state tree name alternatives chosen value) := by
  unfold enterUnion
  cases tree.form with
  | identifier alternative =>
    cases chosen with
    | some first => trivial
    | none =>
      dsimp only
      cases Field.find? alternatives alternative with
      | none => trivial
      | some field =>
        -- No value can have been taken before an alternative was named.
        obtain ⟨isName, isUnion, fields, taken⟩ := gathers
        refine .unopened .rfl ⟨isName, isUnion, fields, ?_⟩
        intro result isSome
        obtain ⟨_, _, ⟨⟩, _⟩ := taken result isSome
  | body =>
    dsimp only
    cases found : chosen.bind (Field.find? alternatives) with
    | none => trivial
    | some alternative =>
      obtain ⟨first, -, there⟩ := Option.bind_eq_some_iff.mp found
      obtain ⟨-, -, fields, -⟩ := id gathers
      have known : symbols.Has alternative.type := closed.field (fields ▸ (Field.mem_of_find? there).1)
      exact .opening (state.valueScope_keeps _ tree) gathers (by simp [target, found]) known
        (state.valueScope_gathers same known tree)
  | _ => exact .unopened .rfl gathers

theorem enterSequence_forms (same : state.symbols = symbols) (closed : symbols.Closed) {name : String}
    {element : TypeId} {elements : List Expr} {listed : Bool}
    (gathers : (Scope.sequence name element elements listed).Gathers symbols given roots type) :
    EnterForms symbols given roots (Gathers symbols given roots type) state
      (enterSequence state tree name element elements listed) := by
  unfold enterSequence
  cases tree.form with
  | elementList =>
    cases listed with
    | true => exact .passing .elementList ⟨rfl, rfl, rfl⟩ gathers
    | false => exact .unopened .rfl gathers
  | body =>
    have known : symbols.Has element := closed.element gathers.2.1
    exact .opening (state.valueScope_keeps _ tree) gathers rfl known (state.valueScope_gathers same known tree)
  | _ => exact .unopened .rfl gathers

theorem enterPositional_forms (same : state.symbols = symbols) (closed : symbols.Closed) {name : String}
    {slots : List Slot} {next : Nat} {current : Option Nat} {listed : Bool}
    (gathers : (Scope.positional name slots next current listed).Gathers symbols given roots type) :
    EnterForms symbols given roots (Gathers symbols given roots type) state
      (enterPositional state tree name slots next current listed) := by
  unfold enterPositional
  cases tree.form with
  | elementList =>
    cases listed with
    | true => exact .passing .elementList ⟨rfl, rfl, rfl⟩ gathers
    | false => exact .unopened .rfl gathers
  | body =>
    dsimp only
    cases there : slots[next]? with
    | none => exact .passing .body ⟨rfl, rfl, rfl⟩ gathers
    | some slot =>
      have known : symbols.Has slot.field.type := closed.field (gathers.2.mem_fields (List.mem_of_getElem? there))
      exact .opening (state.valueScope_keeps _ tree) gathers (by simp [target, there]) known
        (state.valueScope_gathers same known tree)
  | _ => exact .unopened .rfl gathers

theorem enterOverrides_forms (same : state.symbols = symbols) (closed : symbols.Closed) {name : String}
    {path : FieldPath} {fields : List (Field TypeId)} {pending : Option String} {overrides : List Override}
    (gathers : (Scope.overrideList name path fields pending overrides).Gathers symbols given roots type) :
    EnterForms symbols given roots (Gathers symbols given roots type) state
      (enterOverrides state tree name path fields pending overrides) := by
  unfold enterOverrides
  cases tree.form with
  | identifier field =>
    dsimp only
    cases Field.find? fields field with
    | none => trivial
    | some _ => exact .unopened .rfl gathers
  | body =>
    dsimp only
    cases found : pending.bind (Field.find? fields) with
    | none => exact .passing .body ⟨rfl, rfl, rfl⟩ gathers
    | some field =>
      obtain ⟨first, -, there⟩ := Option.bind_eq_some_iff.mp found
      obtain ⟨structured, isFields, ⟨root, member, leads⟩, -⟩ := id gathers
      have inside : field ∈ symbols.fields type := isFields ▸ (Field.mem_of_find? there).1
      have known : symbols.Has field.type := closed.field inside
      exact .opening (state.overrideScope_keeps _ _ tree) gathers (by simp [target, found]) known
        (state.overrideScope_gathers same member (leads.field structured inside) known tree)
  | _ => exact .unopened .rfl gathers

/-- Entering a node keeps what the scope of a body has gathered, and what it opens is for one of its slots. -/
theorem enter_forms (same : state.symbols = symbols) (closed : symbols.Closed)
    (parameters : ∀ parameter ∈ state.parameters, given parameter.name) (known : symbols.Has type) {scope : Scope}
    (gathers : scope.Gathers symbols given roots type) :
    EnterForms symbols given roots (Gathers symbols given roots type) state (scope.enter state tree) := by
  cases scope with
  | definition draft type' modifying => exact gathers.elim
  | parameterList pending parameters => exact gathers.elim
  | skip tag level => exact gathers.elim
  | specific type' value => exact enterSpecific_forms same parameters known gathers
  | named name slots pending => exact enterNamed_forms same closed gathers
  | union name alternatives chosen value => exact enterUnion_forms same closed gathers
  | sequence name element elements listed => exact enterSequence_forms same closed gathers
  | positional name slots next current listed => exact enterPositional_forms same closed gathers
  | overrideList name path fields pending overrides => exact enterOverrides_forms same closed gathers
  | unsupported name description level => exact .unopened .rfl gathers
  | await tag result => exact .unopened .rfl gathers

/-! ### Leaving a node -/

/-- The outcome of leaving a node for a scope that was opened for a body of the given type. -/
def LeaveForms (symbols : Symbols) (given : String → Prop) (roots : List TypeId) (type : TypeId) (state : State) :
    Except Fault (State × Exit) → Prop
  | .error _ => True
  | .ok (after, .stay scope) => state.Keeps after ∧ scope.Gathers symbols given roots type
  | .ok (after, .close result) =>
    state.Keeps after ∧ ∃ yielded, result = some yielded ∧ yielded.Forms symbols given roots type

/-- A scope of a body that closes yields what belongs to the slot for which it was opened. -/
theorem leave_forms (same : state.symbols = symbols) (known : symbols.Has type) {scope : Scope}
    (gathers : scope.Gathers symbols given roots type) :
    LeaveForms symbols given roots type state (scope.leave state tree) := by
  have stays : LeaveForms symbols given roots type state (.ok (state, .stay scope)) := ⟨.rfl, gathers⟩
  cases scope with
  | definition draft type' modifying => exact gathers.elim
  | parameterList pending parameters => exact gathers.elim
  | skip tag level => exact gathers.elim
  | specific type' value =>
    obtain ⟨rfl, forms⟩ := gathers
    simp only [leave]
    split
    · cases value with
      | some value => exact ⟨.rfl, _, rfl, forms value rfl⟩
      | none =>
        refine ⟨⟨rfl, rfl, rfl⟩, _, rfl, ?_⟩
        rw [same]
        exact .atom known trivial
    · exact stays
  | named name slots pending =>
    obtain ⟨rfl, hold⟩ := gathers
    simp only [leave]
    split
    · exact ⟨.rfl, _, rfl, .named hold.structured hold.fields hold.values⟩
    · exact stays
  | union name alternatives chosen value =>
    obtain ⟨rfl, isUnion, rfl, taken⟩ := gathers
    simp only [leave]
    split
    · cases chosen with
      | none => trivial
      | some first =>
        cases value with
        | none => trivial
        | some value =>
          obtain ⟨alternative, member, ⟨⟩, inner⟩ := taken value rfl
          exact ⟨.rfl, _, rfl, .union isUnion member inner⟩
    · exact stays
  | sequence name element elements listed =>
    obtain ⟨rfl, found, values⟩ := gathers
    simp only [leave]
    split
    · exact ⟨.rfl, _, rfl, .sequence found values⟩
    · exact stays
  | positional name slots next current listed =>
    obtain ⟨rfl, hold⟩ := gathers
    simp only [leave]
    split
    · exact ⟨.rfl, _, rfl, .positional hold.structured hold.fields hold.values⟩
    · exact stays
  | overrideList name path fields pending overrides =>
    simp only [leave]
    split
    · exact ⟨.rfl, _, rfl, gathers.2.2.2⟩
    · exact stays
  | unsupported name description level =>
    cases gathers
    simp only [leave]
    split
    · cases level with
      | zero => exact ⟨.rfl, _, rfl, .atom known trivial⟩
      | succ level => exact ⟨.rfl, rfl⟩
    · exact stays
  | await tag result =>
    obtain ⟨value, rfl, forms⟩ := gathers
    simp only [leave]
    split
    · exact ⟨.rfl, _, rfl, forms⟩
    · exact stays

/-! ### Taking a result -/

/-- The outcome of taking a result for a scope that was opened for a body of the given type. -/
def AcceptForms (symbols : Symbols) (given : String → Prop) (roots : List TypeId) (type : TypeId) (state : State) :
    Except Fault (State × Scope) → Prop
  | .error _ => True
  | .ok (after, scope) => state.Keeps after ∧ scope.Gathers symbols given roots type

theorem remarkRepeated_keeps (state : State) (name : String) (slots : List Slot) (index : Nat) :
    state.Keeps (remarkRepeated state name slots index) := by
  rw [remarkRepeated]
  split
  · exact ⟨rfl, rfl, rfl⟩
  · exact .rfl

/-- A scope of a body that takes what belongs to the slot which it is about to fill keeps what it has gathered. -/
theorem accept_forms {slot : TypeId} {result : Yield} (forms : result.Forms symbols given roots slot) {scope : Scope}
    (target : scope.target = some slot) (gathers : scope.Gathers symbols given roots type) :
    AcceptForms symbols given roots type state (scope.accept state result) := by
  cases scope with
  | named name slots pending =>
    cases result with
    | value value =>
      cases pending with
      | none => trivial
      | some index =>
        obtain ⟨found, there, rfl⟩ := Option.map_eq_some_iff.mp target
        exact ⟨remarkRepeated_keeps state name slots index, gathers.1, gathers.2.fill there forms⟩
    | _ => trivial
  | union name alternatives chosen value =>
    cases result with
    | value value =>
      obtain ⟨alternative, found, rfl⟩ := Option.map_eq_some_iff.mp target
      obtain ⟨first, rfl, there⟩ := Option.bind_eq_some_iff.mp found
      obtain ⟨member, rfl⟩ := Field.mem_of_find? there
      obtain ⟨isName, isUnion, fields, -⟩ := gathers
      refine ⟨.rfl, isName, isUnion, fields, ?_⟩
      rintro _ ⟨⟩
      exact ⟨alternative, member, rfl, forms⟩
    | _ => trivial
  | sequence name element elements listed =>
    cases result with
    | value value =>
      cases target
      obtain ⟨isName, found, values⟩ := gathers
      refine ⟨.rfl, isName, found, ?_⟩
      intro other member
      rcases List.mem_append.mp member with earlier | last
      · exact values other earlier
      · rw [List.mem_singleton.mp last]
        exact forms
    | _ => trivial
  | positional name slots next current listed =>
    cases result with
    | value value =>
      cases current with
      | none => trivial
      | some index =>
        obtain ⟨found, there, rfl⟩ := Option.map_eq_some_iff.mp target
        exact ⟨.rfl, gathers.1, gathers.2.fill there forms⟩
    | _ => trivial
  | overrideList name path fields pending overrides =>
    obtain ⟨structured, isFields, ⟨root, inRoots, leads⟩, amends⟩ := gathers
    cases result with
    | value value =>
      cases pending with
      | none => trivial
      | some first =>
        obtain ⟨field, there, rfl⟩ := Option.map_eq_some_iff.mp target
        obtain ⟨member, rfl⟩ := Field.mem_of_find? there
        refine ⟨.rfl, structured, isFields, ⟨root, inRoots, leads⟩, ?_⟩
        intro other among
        rcases List.mem_append.mp among with earlier | last
        · exact amends other earlier
        · rw [List.mem_singleton.mp last]
          exact ⟨root, inRoots, field.type, leads.field structured (isFields ▸ member), forms⟩
    | overrides more =>
      refine ⟨.rfl, structured, isFields, ⟨root, inRoots, leads⟩, ?_⟩
      intro other among
      rcases List.mem_append.mp among with earlier | later
      · exact amends other earlier
      · exact forms other later
    | _ => trivial
  | _ => trivial

end Scope

end TtcnTemplates
