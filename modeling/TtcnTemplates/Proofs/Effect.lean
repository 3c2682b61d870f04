import Mathlib.Data.List.Induction
import TtcnTemplates.Compiler.Basic

/-! # What an event does

An event is a node that is entered or left. Whatever the scopes are, it has one of three effects: the scopes go on, the
definition that is being read is dropped, or its template is registered (`Effect`). Which effect it is, with the scopes
and with every change of the shared state, is decided by the stack, the node, the symbols, the formal parameters, the
current name and the question whether a base is registered (`step_effect`). The rest of the registry and the log are
only added to.
-/

namespace TtcnTemplates

/-! ### Updates of the shared state -/

/-- A change of the shared state that neither registers a template nor reports a fault. -/
inductive Update where
  | note (notice : Notice)
  | warn (remark : Remark)
  | setCurrent (name : String)
  | setParameters (parameters : List Parameter)
  | clear
  | setName (name : String)

namespace State

/-- Makes one change. -/
def apply (state : State) : Update → State
  | .note notice => state.note notice
  | .warn remark => state.warn remark
  | .setCurrent name => { state with current := some name }
  | .setParameters parameters => { state with parameters }
  | .clear => state.clear
  | .setName name => state.setName name

/-- Makes changes in order. -/
def applyAll (state : State) (updates : List Update) : State := updates.foldl State.apply state

@[simp] theorem applyAll_nil (state : State) : state.applyAll [] = state := rfl

@[simp] theorem applyAll_cons (state : State) (update : Update) (rest : List Update) :
    state.applyAll (update :: rest) = (state.apply update).applyAll rest := rfl

theorem applyAll_append (state : State) (first second : List Update) :
    state.applyAll (first ++ second) = (state.applyAll first).applyAll second := List.foldl_append

theorem note_applyAll (state : State) (updates : List Update) (notice : Notice) :
    (state.applyAll updates).note notice = state.applyAll (updates ++ [.note notice]) := by
  rw [applyAll_append]
  rfl

@[simp] theorem applyAll_symbols (state : State) (updates : List Update) :
    (state.applyAll updates).symbols = state.symbols := by
  induction updates generalizing state with
  | nil => rfl
  | cons update rest ih => cases update <;> exact ih _

@[simp] theorem applyAll_templates (state : State) (updates : List Update) :
    (state.applyAll updates).registry.templates = state.registry.templates := by
  induction updates generalizing state with
  | nil => rfl
  | cons update rest ih => cases update <;> exact ih _

@[simp] theorem applyAll_index (state : State) (updates : List Update) :
    (state.applyAll updates).registry.index = state.registry.index := by
  induction updates generalizing state with
  | nil => rfl
  | cons update rest ih => cases update <;> exact ih _

end State

/-- What changes report, where the current name is the given one before them. -/
def reported (current : Option String) : List Update → List Diagnostic
  | [] => []
  | .warn remark :: rest => ⟨current, .remark remark⟩ :: reported current rest
  | .setCurrent name :: rest => reported (some name) rest
  | .clear :: rest => reported none rest
  | _ :: rest => reported current rest

/-- No change reports a fault. -/
theorem isError_of_mem_reported {current : Option String} {updates : List Update} {diagnostic : Diagnostic}
    (member : diagnostic ∈ reported current updates) : diagnostic.isError = false := by
  induction updates generalizing current with
  | nil => cases member
  | cons update rest ih =>
    cases update with
    | warn remark =>
      rcases List.mem_cons.mp member with rfl | later
      · rfl
      · exact ih later
    | _ => exact ih member

theorem State.applyAll_diagnostics (state : State) (updates : List Update) :
    (state.applyAll updates).registry.diagnostics =
      state.registry.diagnostics ++ reported state.current updates := by
  induction updates generalizing state with
  | nil => simp [reported]
  | cons update rest ih =>
    rw [State.applyAll_cons, ih]
    cases update <;> simp [reported, State.apply, State.note, State.warn, State.clear, State.setName, Registry.report]

/-! ### States that scopes cannot tell apart -/

/-- The base that a node names. -/
def Form.bases : Form → List String
  | .base name => [name]
  | _ => []

/-- Two states in which scopes see the same, as long as they look for no other base than the given ones. -/
structure State.Agree (bases : List String) (left right : State) : Prop where
  symbols : left.symbols = right.symbols
  parameters : left.parameters = right.parameters
  current : left.current = right.current
  known : ∀ base ∈ bases, (left.registry.find? base).isSome = (right.registry.find? base).isSome

theorem State.Agree.refl (bases : List String) (state : State) : state.Agree bases state :=
  ⟨rfl, rfl, rfl, fun _ _ => rfl⟩

theorem Registry.find?_congr {left right : Registry} (templates : left.templates = right.templates)
    (index : left.index = right.index) (name : String) : left.find? name = right.find? name := by
  simp only [Registry.find?, Registry.position?, templates, index]

@[simp] theorem State.applyAll_find? (state : State) (updates : List Update) (name : String) :
    (state.applyAll updates).registry.find? name = state.registry.find? name :=
  Registry.find?_congr (by simp) (by simp) name

theorem State.Agree.apply {bases : List String} {left right : State} (agree : left.Agree bases right)
    (update : Update) : (left.apply update).Agree bases (right.apply update) := by
  refine ⟨?_, ?_, ?_, ?_⟩
  · cases update <;> exact agree.symbols
  · cases update with
    | setParameters parameters => rfl
    | clear => rfl
    | _ => exact agree.parameters
  · cases update with
    | setCurrent name => rfl
    | clear => rfl
    | _ => exact agree.current
  · intro base member
    have same := agree.known base member
    rwa [← State.applyAll_find? left [update], ← State.applyAll_find? right [update]] at same

theorem State.Agree.applyAll {bases : List String} {left right : State} (agree : left.Agree bases right)
    (updates : List Update) : (left.applyAll updates).Agree bases (right.applyAll updates) := by
  induction updates generalizing left right with
  | nil => exact agree
  | cons update rest ih => exact ih (agree.apply update)

/-! ### The scope of a body -/

/-- The scope that reads a body as a value of a type. -/
def Symbols.bodyScope (symbols : Symbols) (type : TypeId) (body : Tree) : Scope :=
  (State.valueScope { symbols } type body).2

/-- What is changed where that scope is opened: only a body without a Java form is remarked on. -/
def Symbols.bodyUpdates (symbols : Symbols) (type : TypeId) (body : Tree) : List Update :=
  .note (.reading body.shape (symbols.javaName type)) ::
    match symbols.bodyScope type body with
    | .unsupported type description _ => [.warn (.unsupported description type)]
    | _ => []

theorem State.valueScope_eq (state : State) (type : TypeId) (body : Tree) :
    state.valueScope type body =
      (state.applyAll (state.symbols.bodyUpdates type body), state.symbols.bodyScope type body) := by
  simp only [Symbols.bodyUpdates, Symbols.bodyScope, State.valueScope, State.unsupportedScope]
  split
  · rfl
  · split
    · rfl
    · split <;> rfl
  · split
    · rfl
    · split <;> rfl
  · rfl
  · rfl
  · rfl

/-- The scope that reads a body as overrides of the part at `path`. -/
def Symbols.partScope (symbols : Symbols) (type : TypeId) (path : FieldPath) (body : Tree) : Scope :=
  (State.overrideScope { symbols } type path body).2

/-- What is changed where that scope is opened. -/
def Symbols.partUpdates (symbols : Symbols) (type : TypeId) (body : Tree) : List Update :=
  if body.shape = some .fieldList ∧ symbols.isStructured type then [] else symbols.bodyUpdates type body

theorem State.overrideScope_eq (state : State) (type : TypeId) (path : FieldPath) (body : Tree) :
    state.overrideScope type path body =
      (state.applyAll (state.symbols.partUpdates type body), state.symbols.partScope type path body) := by
  simp only [Symbols.partUpdates, Symbols.partScope, State.overrideScope]
  split
  · rfl
  · exact state.valueScope_eq type body

/-! ### Scopes -/

/-- Entering a node has the same outcome in two states: the same fault, or the same updates and scopes. -/
inductive SameEntry (left right : State) : Except Fault Entry → Except Fault Entry → Prop
  | fault (fault : Fault) : SameEntry left right (.error fault) (.error fault)
  | entry (updates : List Update) (scope : Scope) (opened : Option Scope) :
      SameEntry left right (.ok ⟨left.applyAll updates, scope, opened⟩) (.ok ⟨right.applyAll updates, scope, opened⟩)

theorem State.typeOf_congr {left right : State} (symbols : left.symbols = right.symbols) (use : TypeUse) :
    left.typeOf use = right.typeOf use := by
  simp only [State.typeOf, symbols]

theorem State.specific_congr {left right : State} (symbols : left.symbols = right.symbols)
    (parameters : left.parameters = right.parameters) (type : TypeId) (form : Form) :
    left.specific type form = right.specific type form := by
  cases form <;> simp only [State.specific, State.referenceAtom, symbols, parameters]

namespace Scope

theorem enterDefinition_same {bases : List String} {left right : State} (agree : left.Agree bases right) (tree : Tree)
    (seen : tree.form.bases ⊆ bases) (draft : Draft) (type : Option TypeId) (modifying : Bool) :
    SameEntry left right (enterDefinition left tree draft type modifying)
      (enterDefinition right tree draft type modifying) := by
  unfold enterDefinition
  cases form : tree.form with
  | type use =>
    simp only [State.typeOf_congr agree.symbols, agree.symbols]
    cases right.typeOf use with
    | error fault => exact .fault fault
    | ok id => exact .entry [] _ _
  | identifier name => exact .entry [.setCurrent name] _ _
  | base name =>
    cases draft.type with
    | none => exact .fault _
    | some typeName =>
      have known : (left.registry.find? name).isNone = (right.registry.find? name).isNone := by
        rw [← Option.not_isSome, agree.known name (seen (by simp [form, Form.bases])), Option.not_isSome]
      simp only [known]
      split
      · exact .fault _
      · exact .entry [] _ _
  | body =>
    cases type with
    | none => exact .fault _
    | some id =>
      cases modifying with
      | true =>
        simp only [if_true, State.overrideScope_eq, agree.symbols]
        exact .entry _ _ _
      | false =>
        simp only [State.valueScope_eq, agree.symbols]
        exact .entry _ _ _
  | _ => exact .entry [] _ _

theorem enterParameters_same {left right : State} (symbols : left.symbols = right.symbols) (tree : Tree)
    (pending : Option String) (parameters : List Parameter) :
    SameEntry left right (enterParameters left tree pending parameters)
      (enterParameters right tree pending parameters) := by
  unfold enterParameters
  cases tree.form with
  | type use =>
    simp only [State.typeOf_congr symbols, symbols]
    cases right.typeOf use with
    | error fault => exact .fault fault
    | ok id => exact .entry [] _ _
  | identifier name =>
    cases pending with
    | none => exact .fault _
    | some type => exact .entry [] _ _
  | _ => exact .entry [] _ _

theorem enterSpecific_same {left right : State} (symbols : left.symbols = right.symbols)
    (parameters : left.parameters = right.parameters) (tree : Tree) (type : TypeId) (value : Option Expr) :
    SameEntry left right (enterSpecific left tree type value) (enterSpecific right tree type value) := by
  have read : SameEntry left right
      ((left.specific type tree.form).map fun value => ⟨left, .specific type (some value), none⟩)
      ((right.specific type tree.form).map fun value => ⟨right, .specific type (some value), none⟩) := by
    rw [State.specific_congr symbols parameters]
    cases right.specific type tree.form with
    | error fault => exact .fault fault
    | ok value => exact .entry [] _ _
  unfold enterSpecific
  cases tree.tag with
  | literal => exact read
  | reference => exact read
  | _ => exact .entry [] _ _

theorem enterNamed_same {left right : State} (symbols : left.symbols = right.symbols) (tree : Tree) (type : String)
    (slots : List Slot) (pending : Option Nat) :
    SameEntry left right (enterNamed left tree type slots pending) (enterNamed right tree type slots pending) := by
  unfold enterNamed
  cases tree.form with
  | identifier name =>
    dsimp only
    cases slots.findIdx? fun slot => slot.field.name == name with
    | some index => exact .entry [] _ _
    | none => exact .fault _
  | body =>
    cases pending.bind fun index => slots[index]? with
    | some slot =>
      simp only [State.valueScope_eq, symbols]
      exact .entry _ _ _
    | none => exact .entry [.warn _] _ _
  | _ => exact .entry [] _ _

theorem enterUnion_same {left right : State} (symbols : left.symbols = right.symbols) (tree : Tree) (type : String)
    (alternatives : List (Field TypeId)) (chosen : Option String) (value : Option Expr) :
    SameEntry left right (enterUnion left tree type alternatives chosen value)
      (enterUnion right tree type alternatives chosen value) := by
  unfold enterUnion
  cases tree.form with
  | identifier name =>
    cases chosen with
    | some first => exact .fault _
    | none =>
      dsimp only
      cases Field.find? alternatives name with
      | some alternative => exact .entry [] _ _
      | none => exact .fault _
  | body =>
    cases chosen.bind (Field.find? alternatives) with
    | some alternative =>
      simp only [State.valueScope_eq, symbols]
      exact .entry _ _ _
    | none => exact .fault _
  | _ => exact .entry [] _ _

theorem enterSequence_same {left right : State} (symbols : left.symbols = right.symbols) (tree : Tree)
    (type : String) (element : TypeId) (elements : List Expr) (listed : Bool) :
    SameEntry left right (enterSequence left tree type element elements listed)
      (enterSequence right tree type element elements listed) := by
  unfold enterSequence
  cases tree.form with
  | elementList =>
    cases listed with
    | true => exact .entry [.note _] _ _
    | false => exact .entry [] _ _
  | body =>
    simp only [State.valueScope_eq, symbols]
    exact .entry _ _ _
  | _ => exact .entry [] _ _

theorem enterPositional_same {left right : State} (symbols : left.symbols = right.symbols) (tree : Tree)
    (type : String) (slots : List Slot) (next : Nat) (current : Option Nat) (listed : Bool) :
    SameEntry left right (enterPositional left tree type slots next current listed)
      (enterPositional right tree type slots next current listed) := by
  unfold enterPositional
  cases tree.form with
  | elementList =>
    cases listed with
    | true => exact .entry [.note _] _ _
    | false => exact .entry [] _ _
  | body =>
    cases slots[next]? with
    | some slot =>
      simp only [State.valueScope_eq, symbols]
      exact .entry _ _ _
    | none => exact .entry [.warn _] _ _
  | _ => exact .entry [] _ _

theorem enterOverrides_same {left right : State} (symbols : left.symbols = right.symbols) (tree : Tree)
    (type : String) (path : FieldPath) (fields : List (Field TypeId)) (pending : Option String)
    (overrides : List Override) :
    SameEntry left right (enterOverrides left tree type path fields pending overrides)
      (enterOverrides right tree type path fields pending overrides) := by
  unfold enterOverrides
  cases tree.form with
  | identifier name =>
    dsimp only
    cases Field.find? fields name with
    | some field => exact .entry [] _ _
    | none => exact .fault _
  | body =>
    cases pending.bind (Field.find? fields) with
    | some field =>
      simp only [State.overrideScope_eq, symbols]
      exact .entry _ _ _
    | none => exact .entry [.warn _] _ _
  | _ => exact .entry [] _ _

/-- Scopes that see the same do the same when a node is entered. -/
theorem enter_same {bases : List String} {left right : State} (agree : left.Agree bases right) (tree : Tree)
    (seen : tree.form.bases ⊆ bases) (scope : Scope) :
    SameEntry left right (scope.enter left tree) (scope.enter right tree) := by
  cases scope with
  | definition draft type modifying => exact enterDefinition_same agree tree seen draft type modifying
  | parameterList pending parameters => exact enterParameters_same agree.symbols tree pending parameters
  | specific type value => exact enterSpecific_same agree.symbols agree.parameters tree type value
  | named type slots pending => exact enterNamed_same agree.symbols tree type slots pending
  | union type alternatives chosen value => exact enterUnion_same agree.symbols tree type alternatives chosen value
  | sequence type element elements listed => exact enterSequence_same agree.symbols tree type element elements listed
  | positional type slots next current listed =>
    exact enterPositional_same agree.symbols tree type slots next current listed
  | overrideList type path fields pending overrides =>
    exact enterOverrides_same agree.symbols tree type path fields pending overrides
  | unsupported type description level => exact .entry [] _ _
  | skip tag level => exact .entry [] _ _
  | await tag result => exact .entry [] _ _

end Scope

/-- Leaving a node or taking a result has the same outcome in two states: the same fault, or the same updates and the
    same value. -/
inductive SameResult {α : Type} (left right : State) : Except Fault (State × α) → Except Fault (State × α) → Prop
  | fault (fault : Fault) : SameResult left right (.error fault) (.error fault)
  | result (updates : List Update) (value : α) :
      SameResult left right (.ok (left.applyAll updates, value)) (.ok (right.applyAll updates, value))

namespace Scope

/-- Scopes that see the same do the same when a node is left. -/
theorem leave_same {left right : State} (symbols : left.symbols = right.symbols) (tree : Tree) (scope : Scope) :
    SameResult left right (scope.leave left tree) (scope.leave right tree) := by
  cases scope with
  | definition draft type modifying =>
    simp only [leave]
    split
    · cases draft.template with
      | error fault => exact .fault fault
      | ok template => exact .result [.setParameters []] _
    · exact .result [] _
  | specific type value =>
    simp only [leave, symbols]
    split
    · cases value with
      | some value => exact .result [] _
      | none => exact .result [.warn _] _
    · exact .result [] _
  | union type alternatives chosen value =>
    simp only [leave]
    split
    · cases chosen with
      | none => exact .fault _
      | some alternative =>
        cases value with
        | none => exact .fault _
        | some value => exact .result [] _
    · exact .result [] _
  | unsupported type description level =>
    simp only [leave]
    split
    · cases level <;> exact .result [] _
    · exact .result [] _
  | skip tag level =>
    simp only [leave]
    split
    · cases level <;> exact .result [] _
    · exact .result [] _
  | _ =>
    simp only [leave]
    split <;> exact .result [] _

/-- Scopes take a result in the same way in all states. -/
theorem accept_same (left right : State) (result : Yield) (scope : Scope) :
    SameResult left right (scope.accept left result) (scope.accept right result) := by
  cases scope with
  | definition draft type modifying =>
    cases result with
    | parameters parameters => exact .result [.setParameters parameters] _
    | value value => cases modifying <;> exact .result [] _
    | overrides overrides => exact .result [] _
    | template template => exact .fault _
  | named type slots pending =>
    cases result with
    | value value =>
      cases pending with
      | none => exact .fault _
      | some index =>
        simp only [accept, remarkRepeated]
        split
        · exact .result [.warn _] _
        · exact .result [] _
    | _ => exact .fault _
  | union type alternatives chosen value =>
    cases result with
    | value value => exact .result [] _
    | _ => exact .fault _
  | sequence type element elements listed =>
    cases result with
    | value value => exact .result [] _
    | _ => exact .fault _
  | positional type slots next current listed =>
    cases result with
    | value value =>
      cases current with
      | none => exact .fault _
      | some index => exact .result [] _
    | _ => exact .fault _
  | overrideList type path fields pending overrides =>
    cases result with
    | value value =>
      cases pending with
      | none => exact .fault _
      | some field => exact .result [] _
    | overrides more => exact .result [] _
    | _ => exact .fault _
  | _ => exact .fault _

end Scope

/-! ### Events -/

/-- A node that is entered or left. -/
inductive Event where
  | enter (tree : Tree)
  | leave (tree : Tree)

/-- The node of an event. -/
def Event.tree : Event → Tree
  | .enter tree => tree
  | .leave tree => tree

mutual
/-- The events of a tree, in the order in which it is walked. -/
def Tree.events : Tree → List Event
  | ⟨form, children⟩ => .enter ⟨form, children⟩ :: Tree.allEvents children ++ [.leave ⟨form, children⟩]

/-- The events of trees, one after the other. -/
def Tree.allEvents : List Tree → List Event
  | [] => []
  | tree :: rest => tree.events ++ Tree.allEvents rest
end

/-- The effect of an event on the compiler. -/
inductive Effect where
  /-- The scopes go on. -/
  | proceed (updates : List Update) (stack : List Scope)
  /-- The definition is dropped. -/
  | drop (updates : List Update) (fault : Fault) (atEnd : Bool)
  /-- The template is registered, and no scope stays open. -/
  | register (updates : List Update) (template : Template)

/-- The compiler after an effect. -/
def Effect.run (state : State) : Effect → Compiler
  | .proceed updates stack => ⟨state.applyAll updates, stack⟩
  | .drop updates fault atEnd => Compiler.recover (state.applyAll updates) fault atEnd
  | .register updates template => ⟨(state.applyAll updates).register template, []⟩

namespace Compiler

/-- Handles an event. -/
def step (compiler : Compiler) : Event → Compiler
  | .enter tree => compiler.enter tree
  | .leave tree => compiler.leave tree

/-- Handles events in order. -/
def run (compiler : Compiler) (events : List Event) : Compiler := events.foldl step compiler

theorem run_append (compiler : Compiler) (first second : List Event) :
    compiler.run (first ++ second) = (compiler.run first).run second := List.foldl_append

mutual
/-- Walking a tree is handling its events in order. -/
theorem walk_eq_run (compiler : Compiler) (tree : Tree) : compiler.walk tree = compiler.run tree.events := by
  cases tree with
  | mk form children =>
    rw [walk, walkAll_eq_run, Tree.events, run_append]
    rfl

theorem walkAll_eq_run (compiler : Compiler) (trees : List Tree) :
    compiler.walkAll trees = compiler.run (Tree.allEvents trees) := by
  cases trees with
  | nil => rfl
  | cons tree rest => rw [walkAll, walk_eq_run, walkAll_eq_run, Tree.allEvents, run_append]
end

theorem enterRoot_effect (left right : State) (tree : Tree) :
    ∃ effect : Effect, enterRoot left tree = effect.run left ∧ enterRoot right tree = effect.run right := by
  unfold enterRoot
  cases tree.form with
  | module name => exact ⟨.proceed [.setName name] [], rfl, rfl⟩
  | definition => exact ⟨.proceed [.clear, .note _] _, rfl, rfl⟩
  | _ => exact ⟨.proceed [] [], rfl, rfl⟩

theorem enter_effect {bases : List String} {left right : State} (agree : left.Agree bases right) (stack : List Scope)
    (tree : Tree) (seen : tree.form.bases ⊆ bases) :
    ∃ effect : Effect, enter ⟨left, stack⟩ tree = effect.run left ∧ enter ⟨right, stack⟩ tree = effect.run right := by
  cases stack with
  | nil => exact enterRoot_effect left right tree
  | cons scope below =>
    have same := Scope.enter_same agree tree seen scope
    simp only [enter]
    generalize scope.enter left tree = first at same
    generalize scope.enter right tree = second at same
    cases same with
    | fault fault => exact ⟨.drop [] fault false, rfl, rfl⟩
    | entry updates scope opened =>
      cases opened with
      | none => exact ⟨.proceed updates (scope :: below), rfl, rfl⟩
      | some opened =>
        simp only [State.note_applyAll]
        exact ⟨.proceed _ (opened :: scope :: below), rfl, rfl⟩

theorem deliver_effect (left right : State) (tree : Tree) (result : Yield) (stack : List Scope) :
    ∃ effect : Effect, deliver left tree result stack = effect.run left ∧
      deliver right tree result stack = effect.run right := by
  cases stack with
  | nil =>
    cases result with
    | template template => exact ⟨.register [] template, rfl, rfl⟩
    | _ => exact ⟨.drop [] (.unexpected _) true, rfl, rfl⟩
  | cons parent below =>
    have same := Scope.accept_same left right result parent
    simp only [deliver]
    generalize parent.accept left result = first at same
    generalize parent.accept right result = second at same
    cases same with
    | fault fault => exact ⟨.drop [] fault (tree.is .definition), rfl, rfl⟩
    | result updates parent => exact ⟨.proceed updates (parent :: below), rfl, rfl⟩

/-- An effect after some updates. -/
theorem exists_effect_after (left right : State) (updates : List Update) (effect : Effect) :
    ∃ effect' : Effect, effect.run (left.applyAll updates) = effect'.run left ∧
      effect.run (right.applyAll updates) = effect'.run right := by
  cases effect with
  | proceed more stack => exact ⟨.proceed (updates ++ more) stack, by simp [Effect.run, State.applyAll_append]⟩
  | drop more fault atEnd => exact ⟨.drop (updates ++ more) fault atEnd, by simp [Effect.run, State.applyAll_append]⟩
  | register more template => exact ⟨.register (updates ++ more) template, by simp [Effect.run, State.applyAll_append]⟩

theorem leave_effect {left right : State} (symbols : left.symbols = right.symbols) (stack : List Scope) (tree : Tree) :
    ∃ effect : Effect, leave ⟨left, stack⟩ tree = effect.run left ∧ leave ⟨right, stack⟩ tree = effect.run right := by
  cases stack with
  | nil => exact ⟨.proceed [] [], rfl, rfl⟩
  | cons scope below =>
    have same := Scope.leave_same symbols tree scope
    simp only [leave]
    generalize scope.leave left tree = first at same
    generalize scope.leave right tree = second at same
    cases same with
    | fault fault => exact ⟨.drop [] fault (tree.is .definition), rfl, rfl⟩
    | result updates exit =>
      cases exit with
      | stay scope => exact ⟨.proceed updates (scope :: below), rfl, rfl⟩
      | close result =>
        cases result with
        | none =>
          simp only [State.note_applyAll]
          exact ⟨.proceed _ below, rfl, rfl⟩
        | some result =>
          simp only [State.note_applyAll]
          generalize updates ++ [.note (.left scope.label)] = updates
          obtain ⟨effect, first, second⟩ :=
            deliver_effect (left.applyAll updates) (right.applyAll updates) tree result below
          rw [first, second]
          exact exists_effect_after left right updates effect

/-- An event has the same effect in states that scopes cannot tell apart. -/
theorem step_effect {bases : List String} {left right : State} (agree : left.Agree bases right) (stack : List Scope)
    (event : Event) (seen : event.tree.form.bases ⊆ bases) :
    ∃ effect : Effect, step ⟨left, stack⟩ event = effect.run left ∧ step ⟨right, stack⟩ event = effect.run right := by
  cases event with
  | enter tree => exact enter_effect agree stack tree seen
  | leave tree => exact leave_effect agree.symbols stack tree

/-- A step keeps the table. -/
theorem step_symbols (compiler : Compiler) (event : Event) :
    (compiler.step event).state.symbols = compiler.state.symbols := by
  obtain ⟨state, stack⟩ := compiler
  obtain ⟨effect, same, -⟩ := step_effect (State.Agree.refl _ state) stack event (List.Subset.refl _)
  rw [same]
  cases effect with
  | proceed updates stack => exact state.applyAll_symbols updates
  | drop updates fault atEnd => exact state.applyAll_symbols updates
  | register updates template => exact state.applyAll_symbols updates

theorem run_symbols (compiler : Compiler) (events : List Event) :
    (compiler.run events).state.symbols = compiler.state.symbols := by
  induction events generalizing compiler with
  | nil => rfl
  | cons event rest ih => exact (ih (compiler.step event)).trans (compiler.step_symbols event)

end Compiler

/-! ### The registry -/

/-- Whether one of the templates has the given name. -/
def Template.anyNamed (templates : List Template) (name : String) : Bool :=
  templates.any fun template => template.name == name

theorem Template.anyNamed_append (first second : List Template) (name : String) :
    anyNamed (first ++ second) name = (anyNamed first name || anyNamed second name) := List.any_append

theorem Template.anyNamed_append_of_forall_ne (first : List Template) {second : List Template} {name : String}
    (other : ∀ template ∈ second, template.name ≠ name) : anyNamed (first ++ second) name = anyNamed first name := by
  have none : anyNamed second name = false := by simpa [anyNamed] using other
  rw [anyNamed_append, none, Bool.or_false]

/-- The position of every template by its name, the latest first. -/
def Registry.indexOf (templates : List Template) : List (String × Nat) :=
  (templates.zipIdx.map fun (template, position) => (template.name, position)).reverse

theorem Registry.indexOf_append (templates : List Template) (template : Template) :
    indexOf (templates ++ [template]) = (template.name, templates.length) :: indexOf templates := by
  simp [indexOf, List.zipIdx_append]

/-- The index of a registry is the one of its templates. -/
def Registry.Indexed (registry : Registry) : Prop := registry.index = indexOf registry.templates

namespace Registry.Indexed

theorem congr {left right : Registry} (indexed : left.Indexed) (templates : right.templates = left.templates)
    (index : right.index = left.index) : right.Indexed := by
  rw [Registry.Indexed, templates, index]
  exact indexed

theorem add {registry : Registry} (indexed : registry.Indexed) (template : Template) :
    (registry.add template).Indexed := by
  rw [Registry.Indexed] at indexed
  rw [Registry.Indexed, Registry.add, Registry.indexOf_append, indexed]

theorem applyAll {state : State} (indexed : state.registry.Indexed) (updates : List Update) :
    (state.applyAll updates).registry.Indexed := indexed.congr (by simp) (by simp)

theorem position_lt {registry : Registry} (indexed : registry.Indexed) {name : String} {position : Nat}
    (found : registry.position? name = some position) : position < registry.templates.length := by
  obtain ⟨earlier, later, split, -⟩ := List.lookup_eq_some_iff.mp found
  have member : (name, position) ∈ registry.index := by simp [split]
  rw [indexed, Registry.indexOf, List.mem_reverse] at member
  obtain ⟨⟨template, position'⟩, member, equal⟩ := List.mem_map.mp member
  cases equal
  have bound := (List.mem_zipIdx member).2.1
  rwa [Nat.zero_add] at bound

/-- A template leaves what is found under other names. -/
theorem find?_add_of_ne {registry : Registry} (indexed : registry.Indexed) {name : String} {template : Template}
    (other : name ≠ template.name) : (registry.add template).find? name = registry.find? name := by
  simp only [Registry.find?, Registry.position?_add_of_ne registry template other]
  cases found : registry.position? name with
  | none => rfl
  | some position => exact List.getElem?_append_left (indexed.position_lt found)

/-- The latest template of a name is found. -/
theorem find?_eq {registry : Registry} (indexed : registry.Indexed) (name : String) :
    registry.find? name = registry.templates.reverse.find? fun template => template.name == name := by
  obtain ⟨module, templates, index, diagnostics⟩ := registry
  -- From the end, because the index puts the latest template first.
  induction templates using List.reverseRecOn generalizing index with
  | nil =>
    cases indexed
    rfl
  | append_singleton rest template ih =>
    rw [Registry.Indexed, Registry.indexOf_append] at indexed
    subst indexed
    have shorter : Registry.Indexed ⟨module, rest, Registry.indexOf rest, diagnostics⟩ := rfl
    change (Registry.add ⟨module, rest, Registry.indexOf rest, diagnostics⟩ template).find? name = _
    by_cases same : name = template.name
    · subst same
      rw [Registry.find?_add_self]
      simp
    · rw [shorter.find?_add_of_ne same, ih _ shorter]
      simp [Ne.symm same]

/-- A template is found under a name exactly if one of that name is registered. -/
theorem isSome_find? {registry : Registry} (indexed : registry.Indexed) (name : String) :
    (registry.find? name).isSome = Template.anyNamed registry.templates name := by
  rw [indexed.find?_eq, Bool.eq_iff_iff, List.find?_isSome]
  simp [Template.anyNamed]

end Registry.Indexed

end TtcnTemplates
