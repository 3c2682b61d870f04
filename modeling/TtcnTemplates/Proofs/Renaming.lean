import TtcnTemplates.Proofs.Effect

/-! # Tables that number types differently

Two tables can have the same types under different numbers. The numbers are carried from one to the other by a function
`f` (`Symbols.Renames`), which also carries every scope and every step of the compiler. Numbers never get into the
registry or the log, so compiling a module with either table gives the same (`compile_renames`).
-/

namespace TtcnTemplates

/-! ### Renaming the numbers in a table -/

/-- A field with its type renamed. -/
def Field.map {ρ σ : Type} (f : ρ → σ) (field : Field ρ) : Field σ := ⟨field.name, f field.type⟩

/-- A shape with the types in it renamed. -/
def TypeShape.map {ρ σ : Type} (f : ρ → σ) : TypeShape ρ → TypeShape σ
  | .record fields => .record (fields.map (Field.map f))
  | .set fields => .set (fields.map (Field.map f))
  | .union alternatives => .union (alternatives.map (Field.map f))
  | .recordOf element => .recordOf (f element)
  | .setOf element => .setOf (f element)
  | .enumerated values => .enumerated values

/-- An entry with the types in it renamed. -/
def TypeEntry.map (f : TypeId → TypeId) (entry : TypeEntry) : TypeEntry :=
  { entry with shape := entry.shape.map (TypeShape.map f) }

/-- The table `symbols'` has what the table `symbols` has, with the numbers that `f` gives. -/
structure Symbols.Renames (f : TypeId → TypeId) (symbols symbols' : Symbols) : Prop where
  lookup : ∀ use, symbols'.lookup use = (symbols.lookup use).map f
  entry : ∀ id, symbols'.entry? (f id) = (symbols.entry? id).map (TypeEntry.map f)
  constant : ∀ name, symbols'.isConstant name = symbols.isConstant name

namespace Symbols.Renames

variable {f : TypeId → TypeId} {symbols symbols' : Symbols}

theorem javaName (renames : symbols.Renames f symbols') (id : TypeId) :
    symbols'.javaName (f id) = symbols.javaName id := by
  rw [Symbols.javaName, Symbols.javaName, renames.entry]
  cases symbols.entry? id <;> rfl

theorem shape (renames : symbols.Renames f symbols') (id : TypeId) :
    symbols'.shape? (f id) = (symbols.shape? id).map (TypeShape.map f) := by
  rw [Symbols.shape?, Symbols.shape?, renames.entry]
  cases symbols.entry? id <;> rfl

theorem isUnion (renames : symbols.Renames f symbols') (id : TypeId) :
    symbols'.isUnion (f id) = symbols.isUnion id := by
  rw [Symbols.isUnion, Symbols.isUnion, renames.shape]
  rcases symbols.shape? id with - | shape
  · rfl
  · cases shape <;> rfl

theorem isStructured (renames : symbols.Renames f symbols') (id : TypeId) :
    symbols'.isStructured (f id) = symbols.isStructured id := by
  rw [Symbols.isStructured, Symbols.isStructured, renames.shape]
  rcases symbols.shape? id with - | shape
  · rfl
  · cases shape <;> rfl

theorem fields (renames : symbols.Renames f symbols') (id : TypeId) :
    symbols'.fields (f id) = (symbols.fields id).map (Field.map f) := by
  rw [Symbols.fields, Symbols.fields, renames.shape]
  rcases symbols.shape? id with - | shape
  · rfl
  · cases shape <;> rfl

theorem element (renames : symbols.Renames f symbols') (id : TypeId) :
    symbols'.element? (f id) = (symbols.element? id).map f := by
  rw [Symbols.element?, Symbols.element?, renames.shape]
  rcases symbols.shape? id with - | shape
  · rfl
  · cases shape <;> rfl

theorem hasValue (renames : symbols.Renames f symbols') (id : TypeId) (name : String) :
    symbols'.hasValue (f id) name = symbols.hasValue id name := by
  rw [Symbols.hasValue, Symbols.hasValue, renames.shape]
  rcases symbols.shape? id with - | shape
  · rfl
  · cases shape <;> rfl

end Symbols.Renames

/-! ### Renaming the numbers in scopes -/

/-- A slot with its type renamed. -/
def Slot.rename (f : TypeId → TypeId) (slot : Slot) : Slot := { slot with field := slot.field.map f }

/-- A scope with the types in it renamed. -/
def Scope.rename (f : TypeId → TypeId) : Scope → Scope
  | .definition draft type modifying => .definition draft (type.map f) modifying
  | .specific type value => .specific (f type) value
  | .named type slots pending => .named type (slots.map (Slot.rename f)) pending
  | .union type alternatives chosen value => .union type (alternatives.map (Field.map f)) chosen value
  | .sequence type element elements listed => .sequence type (f element) elements listed
  | .positional type slots next current listed => .positional type (slots.map (Slot.rename f)) next current listed
  | .overrideList type path fields pending overrides =>
    .overrideList type path (fields.map (Field.map f)) pending overrides
  | scope => scope

/-- The state with another table. -/
def State.onto (symbols : Symbols) (state : State) : State := { state with symbols }

/-- An entry with another table and the types renamed. -/
def Entry.onto (f : TypeId → TypeId) (symbols : Symbols) (entry : Entry) : Entry :=
  ⟨entry.state.onto symbols, entry.scope.rename f, entry.opened.map (Scope.rename f)⟩

/-- An exit with the types renamed. -/
def Exit.rename (f : TypeId → TypeId) : Exit → Exit
  | .stay scope => .stay (scope.rename f)
  | .close result => .close result

variable {f : TypeId → TypeId} {symbols' : Symbols}

theorem Field.find?_map (fields : List (Field TypeId)) (name : String) :
    Field.find? (fields.map (Field.map f)) name = (Field.find? fields name).map (Field.map f) :=
  List.find?_map ..

theorem Slot.findIdx?_map (slots : List Slot) (name : String) :
    (slots.map (Slot.rename f)).findIdx? (fun slot => slot.field.name == name) =
      slots.findIdx? fun slot => slot.field.name == name :=
  List.findIdx?_map ..

theorem Slot.ofFields_map (fields : List (Field TypeId)) :
    Slot.ofFields (fields.map (Field.map f)) = (Slot.ofFields fields).map (Slot.rename f) := by
  simp [Slot.ofFields, Slot.rename]

theorem Scope.fill_map (slots : List Slot) (index : Nat) (value : Expr) :
    fill (slots.map (Slot.rename f)) index value = (fill slots index value).map (Slot.rename f) := by
  apply List.ext_getElem?
  intro position
  simp only [fill, List.getElem?_modify, List.getElem?_map]
  cases slots[position]? with
  | none => rfl
  | some slot => by_cases same : index = position <;> simp [same, Slot.rename]

namespace State

theorem valueScope_onto {state : State} (renames : state.symbols.Renames f symbols') (type : TypeId) (body : Tree) :
    (state.onto symbols').valueScope (f type) body =
      ((state.valueScope type body).1.onto symbols', (state.valueScope type body).2.rename f) := by
  simp only [valueScope, onto, renames.javaName, renames.isUnion, renames.isStructured, renames.fields, renames.element,
    Slot.ofFields_map]
  split
  · rfl
  · split
    · rfl
    · split <;> rfl
  · cases state.symbols.element? type with
    | some element => rfl
    | none =>
      dsimp only [Option.map_none]
      split <;> rfl
  · rfl
  · rfl
  · rfl

theorem overrideScope_onto {state : State} (renames : state.symbols.Renames f symbols') (type : TypeId)
    (path : FieldPath) (body : Tree) :
    (state.onto symbols').overrideScope (f type) path body =
      ((state.overrideScope type path body).1.onto symbols', (state.overrideScope type path body).2.rename f) := by
  simp only [overrideScope, valueScope_onto renames]
  simp only [onto, renames.javaName, renames.isStructured, renames.fields]
  split <;> rfl

theorem typeOf_onto {state : State} (renames : state.symbols.Renames f symbols') (use : TypeUse) :
    (state.onto symbols').typeOf use = (state.typeOf use).map f := by
  simp only [typeOf, onto, renames.lookup]
  cases state.symbols.lookup use <;> rfl

theorem referenceAtom_onto {state : State} (renames : state.symbols.Renames f symbols') (type : TypeId)
    (name : String) : (state.onto symbols').referenceAtom (f type) name = state.referenceAtom type name := by
  simp only [referenceAtom, onto, renames.constant, renames.hasValue]

theorem specific_onto {state : State} (renames : state.symbols.Renames f symbols') (type : TypeId) (form : Form) :
    (state.onto symbols').specific (f type) form = state.specific type form := by
  simp only [specific, referenceAtom_onto renames]
  simp only [onto, renames.javaName]

end State

namespace Scope

theorem enterDefinition_onto {state : State} (renames : state.symbols.Renames f symbols') (tree : Tree) (draft : Draft)
    (type : Option TypeId) (modifying : Bool) :
    enterDefinition (state.onto symbols') tree draft (type.map f) modifying =
      (enterDefinition state tree draft type modifying).map (Entry.onto f symbols') := by
  unfold enterDefinition
  cases tree.form with
  | type use =>
    simp only [State.typeOf_onto renames]
    cases state.typeOf use with
    | error fault => rfl
    | ok id =>
      have name : (state.onto symbols').symbols.javaName (f id) = state.symbols.javaName id := renames.javaName id
      simp only [Except.map, name]
      rfl
  | base name =>
    cases draft.type with
    | none => rfl
    | some typeName =>
      have registry : (state.onto symbols').registry = state.registry := rfl
      simp only [registry]
      by_cases missing : (state.registry.find? name).isNone = true
      · rw [if_pos missing, if_pos missing]
        rfl
      · rw [if_neg missing, if_neg missing]
        rfl
  | body =>
    cases type with
    | none => rfl
    | some id =>
      cases modifying with
      | true => simp only [Option.map_some, if_true, State.overrideScope_onto renames]; rfl
      | false => simp only [Option.map_some, Bool.false_eq_true, if_false, State.valueScope_onto renames]; rfl
  | _ => rfl

theorem enterParameters_onto {state : State} (renames : state.symbols.Renames f symbols') (tree : Tree)
    (pending : Option String) (parameters : List Parameter) :
    enterParameters (state.onto symbols') tree pending parameters =
      (enterParameters state tree pending parameters).map (Entry.onto f symbols') := by
  unfold enterParameters
  cases tree.form with
  | type use =>
    simp only [State.typeOf_onto renames]
    cases state.typeOf use with
    | error fault => rfl
    | ok id =>
      have name : (state.onto symbols').symbols.javaName (f id) = state.symbols.javaName id := renames.javaName id
      simp only [Except.map, name]
      rfl
  | identifier name => cases pending <;> rfl
  | _ => rfl

theorem enterSpecific_onto {state : State} (renames : state.symbols.Renames f symbols') (tree : Tree) (type : TypeId)
    (value : Option Expr) :
    enterSpecific (state.onto symbols') tree (f type) value =
      (enterSpecific state tree type value).map (Entry.onto f symbols') := by
  have read : ((state.onto symbols').specific (f type) tree.form).map
      (fun value => Entry.mk (state.onto symbols') (.specific (f type) (some value)) none) =
      ((state.specific type tree.form).map fun value => Entry.mk state (.specific type (some value)) none).map
        (Entry.onto f symbols') := by
    rw [State.specific_onto renames]
    cases state.specific type tree.form <;> rfl
  unfold enterSpecific
  cases tree.tag with
  | literal => exact read
  | reference => exact read
  | _ => rfl

theorem enterNamed_onto {state : State} (renames : state.symbols.Renames f symbols') (tree : Tree) (type : String)
    (slots : List Slot) (pending : Option Nat) :
    enterNamed (state.onto symbols') tree type (slots.map (Slot.rename f)) pending =
      (enterNamed state tree type slots pending).map (Entry.onto f symbols') := by
  unfold enterNamed
  cases tree.form with
  | identifier name =>
    simp only [Slot.findIdx?_map]
    cases slots.findIdx? fun slot => slot.field.name == name <;> rfl
  | body =>
    have same : (pending.bind fun index => (slots.map (Slot.rename f))[index]?) =
        (pending.bind fun index => slots[index]?).map (Slot.rename f) := by
      cases pending <;> simp
    simp only [same]
    cases pending.bind fun index => slots[index]? with
    | none => rfl
    | some slot =>
      have opened := State.valueScope_onto renames slot.field.type tree
      simp only [Option.map_some, Slot.rename, Field.map, opened]
      rfl
  | _ => rfl

theorem enterUnion_onto {state : State} (renames : state.symbols.Renames f symbols') (tree : Tree) (type : String)
    (alternatives : List (Field TypeId)) (chosen : Option String) (value : Option Expr) :
    enterUnion (state.onto symbols') tree type (alternatives.map (Field.map f)) chosen value =
      (enterUnion state tree type alternatives chosen value).map (Entry.onto f symbols') := by
  unfold enterUnion
  cases tree.form with
  | identifier name =>
    cases chosen with
    | some first => rfl
    | none =>
      simp only [Field.find?_map]
      cases Field.find? alternatives name <;> rfl
  | body =>
    have same : chosen.bind (Field.find? (alternatives.map (Field.map f))) =
        (chosen.bind (Field.find? alternatives)).map (Field.map f) := by
      cases chosen <;> simp [Field.find?_map]
    simp only [same]
    cases chosen.bind (Field.find? alternatives) with
    | none => rfl
    | some alternative =>
      have opened := State.valueScope_onto renames alternative.type tree
      simp only [Option.map_some, Field.map, opened]
      rfl
  | _ => rfl

theorem enterSequence_onto {state : State} (renames : state.symbols.Renames f symbols') (tree : Tree) (type : String)
    (element : TypeId) (elements : List Expr) (listed : Bool) :
    enterSequence (state.onto symbols') tree type (f element) elements listed =
      (enterSequence state tree type element elements listed).map (Entry.onto f symbols') := by
  unfold enterSequence
  cases tree.form with
  | elementList => cases listed <;> rfl
  | body =>
    simp only [State.valueScope_onto renames]
    rfl
  | _ => rfl

theorem enterPositional_onto {state : State} (renames : state.symbols.Renames f symbols') (tree : Tree) (type : String)
    (slots : List Slot) (next : Nat) (current : Option Nat) (listed : Bool) :
    enterPositional (state.onto symbols') tree type (slots.map (Slot.rename f)) next current listed =
      (enterPositional state tree type slots next current listed).map (Entry.onto f symbols') := by
  unfold enterPositional
  cases tree.form with
  | elementList => cases listed <;> rfl
  | body =>
    simp only [List.getElem?_map, List.length_map]
    cases slots[next]? with
    | none => rfl
    | some slot =>
      have opened := State.valueScope_onto renames slot.field.type tree
      simp only [Option.map_some, Slot.rename, Field.map, opened]
      rfl
  | _ => rfl

theorem enterOverrides_onto {state : State} (renames : state.symbols.Renames f symbols') (tree : Tree) (type : String)
    (path : FieldPath) (fields : List (Field TypeId)) (pending : Option String) (overrides : List Override) :
    enterOverrides (state.onto symbols') tree type path (fields.map (Field.map f)) pending overrides =
      (enterOverrides state tree type path fields pending overrides).map (Entry.onto f symbols') := by
  unfold enterOverrides
  cases tree.form with
  | identifier name =>
    simp only [Field.find?_map]
    cases Field.find? fields name <;> rfl
  | body =>
    have same : pending.bind (Field.find? (fields.map (Field.map f))) =
        (pending.bind (Field.find? fields)).map (Field.map f) := by
      cases pending <;> simp [Field.find?_map]
    simp only [same]
    cases pending.bind (Field.find? fields) with
    | none => rfl
    | some field =>
      have opened := State.overrideScope_onto renames field.type (path.child field.name) tree
      simp only [Option.map_some, Field.map, opened]
      rfl
  | _ => rfl

/-- Entering a node commutes with renaming. -/
theorem enter_onto {state : State} (renames : state.symbols.Renames f symbols') (tree : Tree) (scope : Scope) :
    (scope.rename f).enter (state.onto symbols') tree = (scope.enter state tree).map (Entry.onto f symbols') := by
  cases scope with
  | definition draft type modifying => exact enterDefinition_onto renames tree draft type modifying
  | parameterList pending parameters => exact enterParameters_onto renames tree pending parameters
  | specific type value => exact enterSpecific_onto renames tree type value
  | named type slots pending => exact enterNamed_onto renames tree type slots pending
  | union type alternatives chosen value => exact enterUnion_onto renames tree type alternatives chosen value
  | sequence type element elements listed => exact enterSequence_onto renames tree type element elements listed
  | positional type slots next current listed => exact enterPositional_onto renames tree type slots next current listed
  | overrideList type path fields pending overrides =>
    exact enterOverrides_onto renames tree type path fields pending overrides
  | _ => rfl

/-- Leaving a node commutes with renaming. -/
theorem leave_onto {state : State} (renames : state.symbols.Renames f symbols') (tree : Tree) (scope : Scope) :
    (scope.rename f).leave (state.onto symbols') tree =
      (scope.leave state tree).map fun (after, exit) => (after.onto symbols', exit.rename f) := by
  cases scope with
  | definition draft type modifying =>
    simp only [rename, leave]
    split
    · cases draft.template <;> rfl
    · rfl
  | specific type value =>
    have name : (state.onto symbols').symbols.javaName (f type) = state.symbols.javaName type := renames.javaName type
    simp only [rename, leave, name]
    split
    · cases value <;> rfl
    · rfl
  | named type slots pending =>
    simp only [rename, leave, List.map_map]
    split <;> rfl
  | union type alternatives chosen value =>
    simp only [rename, leave]
    split
    · cases chosen <;> cases value <;> rfl
    · rfl
  | positional type slots next current listed =>
    simp only [rename, leave, List.map_map]
    split <;> rfl
  | unsupported type description level =>
    simp only [rename, leave]
    split
    · cases level <;> rfl
    · rfl
  | skip tag level =>
    simp only [rename, leave]
    split
    · cases level <;> rfl
    · rfl
  | _ =>
    simp only [rename, leave]
    split <;> rfl

theorem remarkRepeated_onto (state : State) (type : String) (slots : List Slot) (index : Nat) :
    remarkRepeated (state.onto symbols') type (slots.map (Slot.rename f)) index =
      (remarkRepeated state type slots index).onto symbols' := by
  simp only [remarkRepeated, List.getElem?_map]
  rcases slots[index]? with - | ⟨field, - | value⟩ <;> rfl

/-- Taking a result commutes with renaming. -/
theorem accept_onto (state : State) (result : Yield) (scope : Scope) :
    (scope.rename f).accept (state.onto symbols') result =
      (scope.accept state result).map fun (after, scope) => (after.onto symbols', scope.rename f) := by
  cases scope with
  | definition draft type modifying =>
    cases result with
    | value value => cases modifying <;> rfl
    | _ => rfl
  | named type slots pending =>
    cases result with
    | value value =>
      cases pending with
      | none => rfl
      | some index =>
        simp only [rename, accept, remarkRepeated_onto, fill_map]
        rfl
    | _ => cases pending <;> rfl
  | positional type slots next current listed =>
    cases result with
    | value value =>
      cases current with
      | none => rfl
      | some index =>
        simp only [rename, accept, fill_map]
        rfl
    | _ => cases current <;> rfl
  | overrideList type path fields pending overrides => cases result <;> cases pending <;> rfl
  | _ => cases result <;> rfl

end Scope

/-! ### Renaming the numbers in a compiler -/

namespace Compiler

/-- The compiler with another table and the types renamed. -/
def onto (f : TypeId → TypeId) (symbols : Symbols) (compiler : Compiler) : Compiler :=
  ⟨compiler.state.onto symbols, compiler.stack.map (Scope.rename f)⟩

theorem recover_onto (state : State) (fault : Fault) (atEnd : Bool) :
    recover (state.onto symbols') fault atEnd = (recover state fault atEnd).onto f symbols' := by
  cases atEnd <;> rfl

theorem label_rename (scope : Scope) : (scope.rename f).label = scope.label := by
  cases scope <;> rfl

theorem enter_onto {compiler : Compiler} (renames : compiler.state.symbols.Renames f symbols') (tree : Tree) :
    (compiler.onto f symbols').enter tree = (compiler.enter tree).onto f symbols' := by
  obtain ⟨state, stack⟩ := compiler
  cases stack with
  | nil =>
    simp only [onto, enter, List.map_nil, enterRoot]
    cases tree.form <;> rfl
  | cons scope below =>
    simp only [onto, enter, List.map_cons, Scope.enter_onto renames]
    cases scope.enter state tree with
    | error fault => exact recover_onto state fault false
    | ok entry =>
      obtain ⟨after, scope, opened⟩ := entry
      cases opened with
      | none => rfl
      | some opened =>
        simp only [Except.map, Entry.onto, Option.map_some, label_rename]
        rfl

theorem deliver_onto (state : State) (tree : Tree) (result : Yield) (stack : List Scope) :
    deliver (state.onto symbols') tree result (stack.map (Scope.rename f)) =
      (deliver state tree result stack).onto f symbols' := by
  cases stack with
  | nil => cases result <;> rfl
  | cons parent below =>
    simp only [List.map_cons, deliver, Scope.accept_onto]
    cases parent.accept state result with
    | error fault => exact recover_onto state fault _
    | ok accepted => rfl

theorem leave_onto {compiler : Compiler} (renames : compiler.state.symbols.Renames f symbols') (tree : Tree) :
    (compiler.onto f symbols').leave tree = (compiler.leave tree).onto f symbols' := by
  obtain ⟨state, stack⟩ := compiler
  cases stack with
  | nil => rfl
  | cons scope below =>
    simp only [onto, leave, List.map_cons, Scope.leave_onto renames, label_rename]
    rcases scope.leave state tree with fault | ⟨after, scope' | result⟩
    · exact recover_onto state fault _
    · rfl
    · cases result with
      | none => rfl
      | some result => exact deliver_onto (after.note _) tree result below

theorem step_onto {compiler : Compiler} (renames : compiler.state.symbols.Renames f symbols') (event : Event) :
    (compiler.onto f symbols').step event = (compiler.step event).onto f symbols' := by
  cases event with
  | enter tree => exact enter_onto renames tree
  | leave tree => exact leave_onto renames tree

theorem run_onto {compiler : Compiler} (renames : compiler.state.symbols.Renames f symbols') (events : List Event) :
    (compiler.onto f symbols').run events = (compiler.run events).onto f symbols' := by
  induction events generalizing compiler with
  | nil => rfl
  | cons event rest ih =>
    change ((compiler.onto f symbols').step event).run rest = _
    rw [step_onto renames, ih (by rwa [step_symbols])]
    rfl

end Compiler

/-- A module is compiled alike with two tables that differ only in the numbers of types. -/
theorem compile_renames {symbols : Symbols} (renames : symbols.Renames f symbols') (tree : Tree) :
    compile symbols' tree = (compile symbols tree).onto symbols' := by
  have walked : (Compiler.new symbols').walk tree = ((Compiler.new symbols).walk tree).onto f symbols' := by
    have start : (Compiler.new symbols).state.symbols.Renames f symbols' := renames
    rw [Compiler.walk_eq_run, Compiler.walk_eq_run, ← Compiler.run_onto start]
    rfl
  rw [compile, compile, walked]
  generalize (Compiler.new symbols).walk tree = compiler
  obtain ⟨state, stack⟩ := compiler
  simp only [Compiler.finish, Compiler.onto, ← List.map_reverse, List.map_map, Function.comp_def, Compiler.label_rename,
    List.isEmpty_map]
  split <;> rfl

end TtcnTemplates
