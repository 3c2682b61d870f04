import TtcnTemplates.Proofs.Simulation

/-! # What scopes hold

A value is handed from scope to scope until the template that it ends in is registered. On its way it may be put into a
larger value or be dropped, but it is never copied. New values come from literals and references, from `?` and `*`, and
from constructs that have no Java form, each of which is remarked on. `Flow` says so of the values before and after, and
there is one lemma for each thing that a scope above the definition can do: enter a node, leave one, and take a result.
-/

namespace TtcnTemplates

/-! ### The atoms of values -/

mutual
/-- The atoms of an expression, at any depth. -/
def Expr.atoms : Expr → List Atom
  | .atom _ leaf => [leaf]
  | .named _ slots => Expr.namedAtoms slots
  | .positional _ slots => Expr.positionalAtoms slots
  | .sequence _ elements => Expr.elementAtoms elements
  | .union _ _ value => value.atoms

/-- The atoms in the slots of a record or set, by field name. -/
def Expr.namedAtoms : List (String × Option Expr) → List Atom
  | [] => []
  | (_, none) :: rest => Expr.namedAtoms rest
  | (_, some value) :: rest => value.atoms ++ Expr.namedAtoms rest

/-- The atoms in the slots of a record or set, by position. -/
def Expr.positionalAtoms : List (Option Expr) → List Atom
  | [] => []
  | none :: rest => Expr.positionalAtoms rest
  | some value :: rest => value.atoms ++ Expr.positionalAtoms rest

/-- The atoms in the elements of a record of or set of. -/
def Expr.elementAtoms : List Expr → List Atom
  | [] => []
  | value :: rest => value.atoms ++ Expr.elementAtoms rest
end

namespace Expr

/-- The number of atoms of some sort in a value. -/
def count (sort : Atom → Bool) (value : Expr) : Nat := value.atoms.countP sort

/-- The number of atoms of some sort in values. -/
def tally (sort : Atom → Bool) : List Expr → Nat
  | [] => 0
  | value :: rest => value.count sort + tally sort rest

variable (sort : Atom → Bool)

@[simp] theorem tally_nil : tally sort [] = 0 := rfl

@[simp] theorem tally_cons (value : Expr) (rest : List Expr) :
    tally sort (value :: rest) = value.count sort + tally sort rest := rfl

@[simp] theorem tally_append (first second : List Expr) :
    tally sort (first ++ second) = tally sort first + tally sort second := by
  induction first with
  | nil => exact (Nat.zero_add _).symm
  | cons value rest ih => rw [List.cons_append, tally_cons, tally_cons, ih, Nat.add_assoc]

/-- There are none of a sort where no atom is of it. -/
theorem tally_eq_zero_iff (values : List Expr) :
    tally sort values = 0 ↔ ∀ value ∈ values, ∀ leaf ∈ value.atoms, sort leaf = false := by
  induction values with
  | nil => simp
  | cons value rest ih => simp [Nat.add_eq_zero_iff, ih, count, List.countP_eq_zero]

theorem count_atom (type : String) (leaf : Atom) : (Expr.atom type leaf).count sort = if sort leaf then 1 else 0 := by
  simp [count, atoms, List.countP_cons]

theorem count_named (type : String) (slots : List Slot) :
    (Expr.named type (slots.map fun slot => (slot.field.name, slot.value))).count sort =
      tally sort (slots.filterMap Slot.value) := by
  rw [count, atoms]
  induction slots with
  | nil => rfl
  | cons slot rest ih =>
    obtain ⟨field, _ | value⟩ := slot
    · simpa [namedAtoms] using ih
    · simp [namedAtoms, ih, count]

theorem count_positional (type : String) (slots : List Slot) :
    (Expr.positional type (slots.map Slot.value)).count sort = tally sort (slots.filterMap Slot.value) := by
  rw [count, atoms]
  induction slots with
  | nil => rfl
  | cons slot rest ih =>
    obtain ⟨field, _ | value⟩ := slot
    · simpa [positionalAtoms] using ih
    · simp [positionalAtoms, ih, count]

theorem count_sequence (type : String) (elements : List Expr) :
    (Expr.sequence type elements).count sort = tally sort elements := by
  rw [count, atoms]
  induction elements with
  | nil => rfl
  | cons value rest ih => simp [elementAtoms, ih, count]

theorem count_union (type alternative : String) (value : Expr) :
    (Expr.union type alternative value).count sort = value.count sort := by
  rw [count, atoms, count]

/-- A slot that is filled gets one value and may lose another. -/
theorem tally_fill (slots : List Slot) (index : Nat) (value : Expr) :
    tally sort ((Scope.fill slots index value).filterMap Slot.value) ≤
      tally sort (slots.filterMap Slot.value) + value.count sort := by
  induction slots generalizing index with
  | nil => simp [Scope.fill]
  | cons slot rest ih =>
    obtain ⟨field, old⟩ := slot
    cases index with
    | zero => cases old <;> simp [Scope.fill] <;> omega
    | succ index =>
      have later := ih index
      simp only [Scope.fill] at later
      cases old <;> simp [Scope.fill] <;> omega

end Expr

/-! ### Values on their way -/

/-- The values of overrides. -/
def Override.values (overrides : List Override) : List Expr := overrides.map Override.value

/-- The values of a template. -/
def Template.values (template : Template) : List Expr := template.value.toList ++ Override.values template.overrides

/-- The values of the registered templates. -/
def Registry.values (registry : Registry) : List Expr := registry.templates.flatMap Template.values

theorem Registry.values_add (registry : Registry) (template : Template) :
    (registry.add template).values = registry.values ++ template.values := by
  simp [values, add]

/-- The values of a draft. -/
def Draft.values (draft : Draft) : List Expr := draft.value.toList ++ Override.values draft.overrides

/-- The values that are yielded. -/
def Yield.values : Yield → List Expr
  | .value result => [result]
  | .parameters _ => []
  | .overrides changes => Override.values changes
  | .template result => result.values

/-- The values that a scope holds. A construct without a Java form already holds its placeholder. -/
def Scope.values : Scope → List Expr
  | .definition draft _ _ => draft.values
  | .parameterList _ _ => []
  | .specific _ value => value.toList
  | .named _ slots _ => slots.filterMap Slot.value
  | .union _ _ _ value => value.toList
  | .sequence _ _ elements _ => elements
  | .positional _ slots _ _ _ => slots.filterMap Slot.value
  | .overrideList _ _ _ _ overrides => Override.values overrides
  | .unsupported type description _ => [.atom type (.unsupported description)]
  | .skip _ _ => []
  | .await _ result => result.elim [] Yield.values

/-- The values that scopes hold. -/
def held (scopes : List Scope) : List Expr := scopes.flatMap Scope.values

@[simp] theorem held_nil : held [] = [] := rfl

@[simp] theorem held_cons (scope : Scope) (rest : List Scope) : held (scope :: rest) = scope.values ++ held rest := rfl

@[simp] theorem held_append (first second : List Scope) : held (first ++ second) = held first ++ held second :=
  List.flatMap_append

/-- New slots are empty. -/
theorem Slot.values_ofFields (fields : List (Field TypeId)) : (Slot.ofFields fields).filterMap Slot.value = [] := by
  induction fields with
  | nil => rfl
  | cons field rest ih => exact ih

/-- Whether an atom stands for a construct that has no Java form. -/
def Atom.isPlaceholder : Atom → Bool
  | .unsupported _ => true
  | _ => false

/-- The atoms that can be made of a body where there are the given formal parameters. -/
def Atom.MadeWith (parameters : List Parameter) : Atom → Prop
  | .parameter name => ∃ parameter ∈ parameters, parameter.name = name
  | .baseCall _ => False
  | _ => True

/-- What becomes of values: they are kept or dropped, and atoms that can be made are added. Every placeholder that is
    added is remarked on. -/
structure Flow (parameters : List Parameter) (remarks : List Remark) (before after : List Expr) : Prop where
  kept : ∀ sort : Atom → Bool, (∀ leaf : Atom, leaf.MadeWith parameters → sort leaf = false) →
    Expr.tally sort after ≤ Expr.tally sort before
  placeholders : Expr.tally Atom.isPlaceholder after ≤ Expr.tally Atom.isPlaceholder before + remarks.length

namespace Flow

variable {parameters : List Parameter} {remarks more : List Remark} {first second third : List Expr}

/-- Values are only kept or dropped. -/
theorem of_le (fewer : ∀ sort, Expr.tally sort second ≤ Expr.tally sort first) :
    Flow parameters remarks first second :=
  ⟨fun sort _ => fewer sort, Nat.le_add_right_of_le (fewer _)⟩

theorem refl (values : List Expr) : Flow parameters remarks values values := of_le fun _ => Nat.le_refl _

theorem trans (left : Flow parameters remarks first second) (right : Flow parameters more second third) :
    Flow parameters (remarks ++ more) first third := by
  refine ⟨fun sort none => Nat.le_trans (right.kept sort none) (left.kept sort none), ?_⟩
  have left := left.placeholders
  have right := right.placeholders
  rw [List.length_append]
  omega

/-- What becomes of some values is independent of the others. -/
theorem append (flow : Flow parameters remarks first second) (others : List Expr) :
    Flow parameters remarks (first ++ others) (second ++ others) := by
  refine ⟨?_, ?_⟩
  · intro sort none
    have kept := flow.kept sort none
    simp only [Expr.tally_append]
    omega
  · have placeholders := flow.placeholders
    simp only [Expr.tally_append]
    omega

/-- One atom is made. -/
theorem atom (type : String) {leaf : Atom} (made : leaf.MadeWith parameters)
    (remarked : leaf.isPlaceholder = true → remarks ≠ []) : Flow parameters remarks first [.atom type leaf] := by
  refine ⟨?_, ?_⟩
  · intro sort none
    simp [Expr.count_atom, none leaf made]
  · cases placeholder : leaf.isPlaceholder with
    | false => simp [Expr.count_atom, placeholder]
    | true =>
      have some := List.length_pos_iff.mpr (remarked placeholder)
      simp only [Expr.tally_cons, Expr.count_atom, placeholder, if_true, Expr.tally_nil]
      omega

end Flow

/-! ### Remarks -/

/-- The state before and after remarks on the current template. Besides, only the log has changed. -/
def State.Remarked (before : State) (remarks : List Remark) (after : State) : Prop :=
  after.quiet = (before.warnAll remarks).quiet

theorem State.warnAll_diagnostics (state : State) (remarks : List Remark) :
    (state.warnAll remarks).registry.diagnostics =
      state.registry.diagnostics ++ remarks.map fun remark => ⟨state.current, .remark remark⟩ := by
  induction remarks generalizing state with
  | nil => simp [warnAll]
  | cons remark rest ih =>
    refine (ih (state.warn remark)).trans ?_
    simp [State.warn, State.note, Registry.report]

namespace State.Remarked

variable {before after last : State} {remarks more : List Remark}

theorem refl (state : State) : state.Remarked [] state := rfl

theorem warn (state : State) (remark : Remark) : state.Remarked [remark] (state.warn remark) := rfl

theorem note (remarked : before.Remarked remarks after) (notice : Notice) :
    before.Remarked remarks (after.note notice) := remarked

theorem trans (left : before.Remarked remarks after) (right : after.Remarked more last) :
    before.Remarked (remarks ++ more) last := by
  rw [State.Remarked, State.warnAll_append]
  exact Eq.trans right (State.quiet_applyAll left _)

theorem parameters (remarked : before.Remarked remarks after) : after.parameters = before.parameters :=
  (congrArg State.parameters remarked).trans (before.warnAll_parameters remarks)

theorem current (remarked : before.Remarked remarks after) : after.current = before.current :=
  (congrArg State.current remarked).trans (before.warnAll_current remarks)

theorem registry (remarked : before.Remarked remarks after) : after.registry = (before.warnAll remarks).registry :=
  congrArg (fun state => state.registry) (id remarked : after.quiet = _)

theorem templates (remarked : before.Remarked remarks after) :
    after.registry.templates = before.registry.templates := by
  rw [remarked.registry, State.warnAll_templates]

theorem registry_values (remarked : before.Remarked remarks after) : after.registry.values = before.registry.values :=
  congrArg (List.flatMap Template.values) remarked.templates

theorem index (remarked : before.Remarked remarks after) : after.registry.index = before.registry.index := by
  rw [remarked.registry]
  exact before.applyAll_index _

theorem diagnostics (remarked : before.Remarked remarks after) :
    after.registry.diagnostics =
      before.registry.diagnostics ++ remarks.map fun remark => ⟨before.current, .remark remark⟩ := by
  rw [remarked.registry, before.warnAll_diagnostics]

end State.Remarked

/-! ### Entering a node -/

/-- A scope that is opened for a body holds nothing yet, or the value that the body is known to have. -/
theorem State.valueScope_flow (state : State) (type : TypeId) (body : Tree) :
    ∃ remarks, state.Remarked remarks (state.valueScope type body).1 ∧
      Flow state.parameters remarks [] (state.valueScope type body).2.values := by
  have unsupported (notice : Notice) (name : String) :
      ∃ remarks, state.Remarked remarks ((state.note notice).unsupportedScope name body).1 ∧
        Flow state.parameters remarks [] ((state.note notice).unsupportedScope name body).2.values :=
    ⟨[.unsupported body.description name], rfl, .atom name trivial fun _ => List.cons_ne_nil _ _⟩
  have known (leaf : Atom) (made : leaf.MadeWith state.parameters) (fixed : leaf.isPlaceholder = false)
      (name : String) : Flow state.parameters [] [] (Scope.await .body (some (.value (.atom name leaf)))).values :=
    .atom name made (by simp [fixed])
  simp only [State.valueScope]
  split
  · exact ⟨[], rfl, .refl []⟩
  · split
    · exact ⟨[], rfl, .refl []⟩
    · split
      · refine ⟨[], rfl, ?_⟩
        rw [Scope.values, Slot.values_ofFields]
        exact .refl []
      · exact unsupported _ _
  · split
    · exact ⟨[], rfl, .refl []⟩
    · split
      · refine ⟨[], rfl, ?_⟩
        rw [Scope.values, Slot.values_ofFields]
        exact .refl []
      · exact unsupported _ _
  · exact ⟨[], rfl, known .any trivial rfl _⟩
  · exact ⟨[], rfl, known .anyOrOmit trivial rfl _⟩
  · exact unsupported _ _

theorem State.overrideScope_flow (state : State) (type : TypeId) (path : FieldPath) (body : Tree) :
    ∃ remarks, state.Remarked remarks (state.overrideScope type path body).1 ∧
      Flow state.parameters remarks [] (state.overrideScope type path body).2.values := by
  rw [State.overrideScope]
  split
  · exact ⟨[], rfl, .refl []⟩
  · exact state.valueScope_flow type body

/-- What a literal or a reference is read as can be made with the formal parameters, and is no placeholder. -/
theorem State.specific_made {state : State} {type : TypeId} {form : Form} {value : Expr}
    (read : state.specific type form = .ok value) (holds : form.tag = .literal ∨ form.tag = .reference) :
    ∃ leaf : Atom, value = .atom (state.symbols.javaName type) leaf ∧ leaf.MadeWith state.parameters ∧
      leaf.isPlaceholder = false := by
  have literal (literal : Literal) :
      literal.atom.MadeWith state.parameters ∧ literal.atom.isPlaceholder = false := by
    cases literal <;> exact ⟨trivial, rfl⟩
  cases form with
  | literal text =>
    simp only [State.specific] at read
    cases found : readLiteral text with
    | error fault => simp [found, Except.map] at read
    | ok value =>
      simp only [found, Except.map, Except.ok.injEq] at read
      exact ⟨_, read.symm, literal value⟩
  | reference name =>
    simp only [State.specific] at read
    cases found : state.referenceAtom type name with
    | error fault => simp [found, Except.map] at read
    | ok leaf =>
      simp only [found, Except.map, Except.ok.injEq] at read
      refine ⟨leaf, read.symm, ?_⟩
      rw [State.referenceAtom] at found
      split at found
      · rename_i isParameter
        obtain ⟨parameter, member, equal⟩ := List.any_eq_true.mp isParameter
        cases found
        exact ⟨⟨parameter, member, eq_of_beq equal⟩, rfl⟩
      · split at found
        · cases found
          exact ⟨trivial, rfl⟩
        · split at found
          · cases found
            exact ⟨trivial, rfl⟩
          · split at found
            · split at found
              · cases found
                exact literal _
              · cases found
            · cases found
  | _ => simp [Form.tag] at holds

/-- The outcome of entering a node: remarks, and what becomes of the values of the scope. -/
def EnterFlow (state : State) (before : List Expr) : Except Fault Entry → Prop
  | .error _ => True
  | .ok entry => ∃ remarks, state.Remarked remarks entry.state ∧
      Flow state.parameters remarks before (held (entry.opened.toList ++ [entry.scope]))

namespace EnterFlow

variable {state : State} {scope : Scope}

/-- A scope may keep its values, with or without a remark. -/
theorem keeps {after : State} {remarks : List Remark} {before : List Expr} {opened : Option Scope}
    (remarked : state.Remarked remarks after) (same : scope.values = before)
    (empty : held opened.toList = []) : EnterFlow state before (.ok ⟨after, scope, opened⟩) := by
  refine ⟨remarks, remarked, ?_⟩
  rw [held_append, empty, held_cons, same, held_nil, List.append_nil]
  exact .refl before

/-- A scope may keep its values and open another scope for a body. -/
theorem opens {after : State} {opened : Scope} {before : List Expr}
    (flow : ∃ remarks, state.Remarked remarks after ∧ Flow state.parameters remarks [] opened.values)
    (same : scope.values = before) : EnterFlow state before (.ok ⟨after, scope, some opened⟩) := by
  obtain ⟨remarks, remarked, made⟩ := flow
  refine ⟨remarks, remarked, ?_⟩
  simpa [same] using made.append before

end EnterFlow

namespace Scope

variable (state : State) (tree : Tree)

theorem enterParameters_flow (pending : Option String) (parameters : List Parameter) :
    EnterFlow state [] (enterParameters state tree pending parameters) := by
  unfold enterParameters
  cases tree.form with
  | type use =>
    dsimp only
    cases state.typeOf use with
    | error fault => trivial
    | ok id => exact .keeps (.refl state) rfl rfl
  | identifier name =>
    cases pending with
    | none => trivial
    | some type => exact .keeps (.refl state) rfl rfl
  | _ => exact .keeps (.refl state) rfl rfl

theorem enterSpecific_flow (type : TypeId) (value : Option Expr) :
    EnterFlow state value.toList (enterSpecific state tree type value) := by
  have read (holds : tree.tag = .literal ∨ tree.tag = .reference) :
      EnterFlow state value.toList
        ((state.specific type tree.form).map fun value => ⟨state, .specific type (some value), none⟩) := by
    cases found : state.specific type tree.form with
    | error fault => trivial
    | ok value =>
      obtain ⟨leaf, rfl, made, fixed⟩ := State.specific_made found holds
      exact ⟨[], .refl state, .atom _ made (by simp [fixed])⟩
  unfold enterSpecific
  cases tag : tree.tag with
  | literal => exact read (.inl tag)
  | reference => exact read (.inr tag)
  | _ => exact .keeps (.refl state) rfl rfl

theorem enterNamed_flow (type : String) (slots : List Slot) (pending : Option Nat) :
    EnterFlow state (slots.filterMap Slot.value) (enterNamed state tree type slots pending) := by
  unfold enterNamed
  cases tree.form with
  | identifier name =>
    dsimp only
    cases slots.findIdx? fun slot => slot.field.name == name with
    | none => trivial
    | some index => exact .keeps (.refl state) rfl rfl
  | body =>
    dsimp only
    cases pending.bind fun index => slots[index]? with
    | some slot => exact .opens (state.valueScope_flow slot.field.type tree) rfl
    | none => exact .keeps (State.Remarked.warn state _) rfl rfl
  | _ => exact .keeps (.refl state) rfl rfl

theorem enterUnion_flow (type : String) (alternatives : List (Field TypeId)) (chosen : Option String)
    (value : Option Expr) : EnterFlow state value.toList (enterUnion state tree type alternatives chosen value) := by
  unfold enterUnion
  cases tree.form with
  | identifier name =>
    cases chosen with
    | some first => trivial
    | none =>
      dsimp only
      cases Field.find? alternatives name with
      | none => trivial
      | some alternative => exact .keeps (.refl state) rfl rfl
  | body =>
    dsimp only
    cases chosen.bind (Field.find? alternatives) with
    | none => trivial
    | some alternative => exact .opens (state.valueScope_flow alternative.type tree) rfl
  | _ => exact .keeps (.refl state) rfl rfl

theorem enterSequence_flow (type : String) (element : TypeId) (elements : List Expr) (listed : Bool) :
    EnterFlow state elements (enterSequence state tree type element elements listed) := by
  unfold enterSequence
  cases tree.form with
  | elementList =>
    cases listed with
    | true => exact .keeps ((State.Remarked.refl state).note _) rfl rfl
    | false => exact .keeps (.refl state) rfl rfl
  | body => exact .opens (state.valueScope_flow element tree) rfl
  | _ => exact .keeps (.refl state) rfl rfl

theorem enterPositional_flow (type : String) (slots : List Slot) (next : Nat) (current : Option Nat)
    (listed : Bool) :
    EnterFlow state (slots.filterMap Slot.value) (enterPositional state tree type slots next current listed) := by
  unfold enterPositional
  cases tree.form with
  | elementList =>
    cases listed with
    | true => exact .keeps ((State.Remarked.refl state).note _) rfl rfl
    | false => exact .keeps (.refl state) rfl rfl
  | body =>
    dsimp only
    cases slots[next]? with
    | some slot => exact .opens (state.valueScope_flow slot.field.type tree) rfl
    | none => exact .keeps (State.Remarked.warn state _) rfl rfl
  | _ => exact .keeps (.refl state) rfl rfl

theorem enterOverrides_flow (type : String) (path : FieldPath) (fields : List (Field TypeId))
    (pending : Option String) (overrides : List Override) :
    EnterFlow state (Override.values overrides) (enterOverrides state tree type path fields pending overrides) := by
  unfold enterOverrides
  cases tree.form with
  | identifier name =>
    dsimp only
    cases Field.find? fields name with
    | none => trivial
    | some field => exact .keeps (.refl state) rfl rfl
  | body =>
    dsimp only
    cases pending.bind (Field.find? fields) with
    | some field => exact .opens (state.overrideScope_flow field.type _ tree) rfl
    | none => exact .keeps (State.Remarked.warn state _) rfl rfl
  | _ => exact .keeps (.refl state) rfl rfl

/-- Entering a node with a scope above the definition. -/
theorem enter_flow {scope : Scope} (inner : scope.kind ≠ some .template) :
    EnterFlow state scope.values (scope.enter state tree) := by
  cases scope with
  | definition draft type modifying => exact absurd rfl inner
  | parameterList pending parameters => exact enterParameters_flow state tree pending parameters
  | specific type value => exact enterSpecific_flow state tree type value
  | named type slots pending => exact enterNamed_flow state tree type slots pending
  | union type alternatives chosen value => exact enterUnion_flow state tree type alternatives chosen value
  | sequence type element elements listed => exact enterSequence_flow state tree type element elements listed
  | positional type slots next current listed => exact enterPositional_flow state tree type slots next current listed
  | overrideList type path fields pending overrides =>
    exact enterOverrides_flow state tree type path fields pending overrides
  | unsupported type description level => exact .keeps (.refl state) rfl rfl
  | skip tag level => exact .keeps (.refl state) rfl rfl
  | await tag result => exact .keeps (.refl state) rfl rfl

end Scope

/-! ### Leaving a node -/

/-- The values of a scope that has stayed, or those that it has yielded. -/
def Exit.values : Exit → List Expr
  | .stay scope => scope.values
  | .close result => result.elim [] Yield.values

/-- The outcome of leaving a node. -/
def LeaveFlow (state : State) (before : List Expr) : Except Fault (State × Exit) → Prop
  | .error _ => True
  | .ok (after, exit) => ∃ remarks, state.Remarked remarks after ∧ Flow state.parameters remarks before exit.values

/-- A scope may go on, or yield its values as they are or put together. -/
theorem LeaveFlow.of_tally {state : State} {before : List Expr} {exit : Exit}
    (same : ∀ sort, Expr.tally sort exit.values = Expr.tally sort before) :
    LeaveFlow state before (.ok (state, exit)) :=
  ⟨[], .refl state, .of_le fun sort => Nat.le_of_eq (same sort)⟩

namespace Scope

/-- Leaving a node with a scope above the definition. -/
theorem leave_flow (state : State) (tree : Tree) {scope : Scope} (inner : scope.kind ≠ some .template) :
    LeaveFlow state scope.values (scope.leave state tree) := by
  have stays : LeaveFlow state scope.values (.ok (state, .stay scope)) := .of_tally fun _ => rfl
  cases scope with
  | definition draft type modifying => exact absurd rfl inner
  | specific type value =>
    simp only [leave]
    split
    · cases value with
      | some value => exact .of_tally fun _ => rfl
      | none =>
        refine ⟨[.noLiteral (state.symbols.javaName type)], .warn state _, ?_⟩
        exact .atom _ trivial fun _ => List.cons_ne_nil _ _
    · exact stays
  | named type slots pending =>
    simp only [leave]
    split
    · exact .of_tally fun sort => Expr.count_named sort type slots
    · exact stays
  | union type alternatives chosen value =>
    simp only [leave]
    split
    · cases chosen with
      | none => trivial
      | some alternative =>
        cases value with
        | none => trivial
        | some value => exact .of_tally fun sort => by simp [Exit.values, Yield.values, values, Expr.count_union]
    · exact stays
  | sequence type element elements listed =>
    simp only [leave]
    split
    · exact .of_tally fun sort => Expr.count_sequence sort type elements
    · exact stays
  | positional type slots next current listed =>
    simp only [leave]
    split
    · exact .of_tally fun sort => Expr.count_positional sort type slots
    · exact stays
  | unsupported type description level =>
    simp only [leave]
    split
    · cases level <;> exact .of_tally fun _ => rfl
    · exact stays
  | skip tag level =>
    simp only [leave]
    split
    · cases level <;> exact .of_tally fun _ => rfl
    · exact stays
  | _ =>
    simp only [leave]
    split
    · exact .of_tally fun _ => rfl
    · exact stays

/-! ### Taking a result -/

/-- The outcome of taking a result. -/
def AcceptFlow (state : State) (before : List Expr) : Except Fault (State × Scope) → Prop
  | .error _ => True
  | .ok (after, scope) => ∃ remarks, state.Remarked remarks after ∧ Flow state.parameters remarks before scope.values

theorem remarkRepeated_remarked (state : State) (type : String) (slots : List Slot) (index : Nat) :
    ∃ remarks, state.Remarked remarks (remarkRepeated state type slots index) := by
  unfold remarkRepeated
  split
  · exact ⟨_, .warn state _⟩
  · exact ⟨[], .refl state⟩

/-- A scope above the definition puts what it takes beside what it holds, or in its place. -/
theorem accept_flow (state : State) (result : Yield) {scope : Scope} (inner : scope.kind ≠ some .template) :
    AcceptFlow state (result.values ++ scope.values) (scope.accept state result) := by
  cases scope with
  | definition draft type modifying => exact absurd rfl inner
  | named type slots pending =>
    cases result with
    | value value =>
      cases pending with
      | none => trivial
      | some index =>
        obtain ⟨remarks, remarked⟩ := remarkRepeated_remarked state type slots index
        refine ⟨remarks, remarked, .of_le fun sort => ?_⟩
        have filled := Expr.tally_fill sort slots index value
        simp only [values, Yield.values, Expr.tally_append, Expr.tally_cons, Expr.tally_nil]
        omega
    | _ => trivial
  | union type alternatives chosen value =>
    cases result with
    | value value =>
      refine ⟨[], .refl state, .of_le fun sort => ?_⟩
      simp [values, Yield.values]
    | _ => trivial
  | sequence type element elements listed =>
    cases result with
    | value value =>
      refine ⟨[], .refl state, .of_le fun sort => ?_⟩
      simp only [values, Yield.values, Expr.tally_append, Expr.tally_cons, Expr.tally_nil]
      omega
    | _ => trivial
  | positional type slots next current listed =>
    cases result with
    | value value =>
      cases current with
      | none => trivial
      | some index =>
        refine ⟨[], .refl state, .of_le fun sort => ?_⟩
        have filled := Expr.tally_fill sort slots index value
        simp only [values, Yield.values, Expr.tally_append, Expr.tally_cons, Expr.tally_nil]
        omega
    | _ => trivial
  | overrideList type path fields pending overrides =>
    cases result with
    | value value =>
      cases pending with
      | none => trivial
      | some field =>
        refine ⟨[], .refl state, .of_le fun sort => ?_⟩
        simp only [values, Yield.values, Override.values, List.map_append, List.map_cons, List.map_nil,
          Expr.tally_append, Expr.tally_cons, Expr.tally_nil]
        omega
    | overrides more =>
      refine ⟨[], .refl state, .of_le fun sort => ?_⟩
      simp only [values, Yield.values, Override.values, List.map_append, Expr.tally_append]
      omega
    | _ => trivial
  | _ => trivial

end Scope

end TtcnTemplates
