import TtcnTemplates.Proofs.Effect

/-! # The stack of scopes

Scopes talk to each other only through what they yield, so the stack is sound as long as every scope waits for what the
scope above it yields. `Scope.Awaits` says when it does, `WellFormed` says it of a whole stack, and every event keeps
it (`Compiler.step_sound`), in whatever order nodes are entered and left. It follows that no event meets what its scope
is not made for (`Breach`), and that no such fault is ever reported.
-/

namespace TtcnTemplates

/-! ### What scopes yield -/

/-- The kinds of what scopes yield. -/
inductive Kind where
  | value
  | parameters
  | overrides
  | template
deriving DecidableEq, Repr

/-- The kind of what is yielded. -/
def Yield.kind : Yield → Kind
  | .value _ => .value
  | .parameters _ => .parameters
  | .overrides _ => .overrides
  | .template _ => .template

/-- A scope gets what it has no use for. -/
def Fault.Internal : Fault → Prop
  | .unexpected _ => True
  | _ => False

namespace Scope

/-- The kind of what a scope yields when it closes. What is passed over yields nothing. -/
def kind : Scope → Option Kind
  | .definition .. => some .template
  | .parameterList .. => some .parameters
  | .overrideList .. => some .overrides
  | .skip .. => none
  | .await _ result => result.map Yield.kind
  | _ => some .value

/-- The construct at whose end a scope closes. -/
def endTag : Scope → Tag
  | .definition .. => .definition
  | .parameterList .. => .parameterList
  | .skip tag _ => tag
  | .await tag _ => tag
  | _ => .body

/-- The number of nested constructs that have to end before a scope can close. -/
def level : Scope → Nat
  | .unsupported _ _ level => level
  | .skip _ level => level
  | _ => 0

/-- Whether a scope counts nested constructs. -/
def counts : Scope → Bool
  | .unsupported .. => true
  | .skip .. => true
  | _ => false

/-- The slots that a scope is about to fill are there, and a result that is known is there and is a value. -/
def Valid : Scope → Prop
  | .named _ slots pending => ∀ index, pending = some index → index < slots.length
  | .positional _ slots _ current _ => ∀ index, current = some index → index < slots.length
  | .await tag result => tag = .body ∧ result.map Yield.kind = some .value
  | _ => True

/-- Whether a scope is ready for a scope above it that yields the given kind, or nothing: the field, slot or
    alternative that the result belongs to is known. -/
def Awaits : Scope → Option Kind → Prop
  | .definition _ _ modifying, kind =>
    kind = none ∨ kind = some .value ∨ kind = some .parameters ∨ kind = some .overrides ∧ modifying = true
  | .parameterList .., kind => kind = none
  | .named _ slots pending, kind =>
    kind = none ∨ kind = some .value ∧ ∃ index, pending = some index ∧ index < slots.length
  | .union _ _ chosen _, kind => kind = some .value ∧ chosen.isSome = true
  | .sequence .., kind => kind = none ∨ kind = some .value
  | .positional _ slots _ current _, kind =>
    kind = none ∨ kind = some .value ∧ ∃ index, current = some index ∧ index < slots.length
  | .overrideList _ _ _ pending _, kind =>
    kind = none ∨ (kind = some .value ∨ kind = some .overrides) ∧ pending.isSome = true
  | _, _ => False

/-- One scope before and after some events that it has outlived. -/
structure Continues (before after : Scope) : Prop where
  kind : after.kind = before.kind
  endTag : after.endTag = before.endTag
  level : after.level = before.level
  valid : after.Valid

theorem Continues.refl {scope : Scope} (valid : scope.Valid) : scope.Continues scope := ⟨rfl, rfl, rfl, valid⟩

theorem Continues.trans {first second third : Scope} (left : first.Continues second) (right : second.Continues third) :
    first.Continues third :=
  ⟨right.kind.trans left.kind, right.endTag.trans left.endTag, right.level.trans left.level, right.valid⟩

theorem valid_named (type : String) (slots : List Slot) : (Scope.named type slots none).Valid := by
  intro index pending
  cases pending

theorem valid_positional (type : String) (slots : List Slot) (next : Nat) (listed : Bool) :
    (Scope.positional type slots next none listed).Valid := by
  intro index current
  cases current

theorem level_of_not_counts {scope : Scope} (counts : scope.counts = false) : scope.level = 0 := by
  cases scope with
  | unsupported type description level => cases counts
  | skip tag level => cases counts
  | _ => rfl

/-- Scopes that count have no scope above them. -/
theorem level_of_awaits {scope : Scope} {kind : Option Kind} (awaits : scope.Awaits kind) : scope.level = 0 := by
  cases scope with
  | unsupported type description level => exact awaits.elim
  | skip tag level => exact awaits.elim
  | _ => rfl

end Scope

/-! ### The scope of a body -/

/-- A new scope for a node of the given construct, which yields the given kind. -/
structure Scope.Opens (scope : Scope) (tag : Tag) (kind : Option Kind) : Prop where
  kind : scope.kind = kind
  endTag : scope.endTag = tag
  level : scope.level = 0
  valid : scope.Valid

theorem Scope.passOver_opens (tag : Tag) : (Scope.passOver tag).Opens tag none := ⟨rfl, rfl, rfl, trivial⟩

theorem Symbols.bodyScope_opens (symbols : Symbols) (type : TypeId) (body : Tree) :
    (symbols.bodyScope type body).Opens .body (some .value) := by
  simp only [Symbols.bodyScope, State.valueScope, State.unsupportedScope]
  split
  · exact ⟨rfl, rfl, rfl, trivial⟩
  · split
    · exact ⟨rfl, rfl, rfl, trivial⟩
    · split
      · exact ⟨rfl, rfl, rfl, Scope.valid_named _ _⟩
      · exact ⟨rfl, rfl, rfl, trivial⟩
  · split
    · exact ⟨rfl, rfl, rfl, trivial⟩
    · split
      · exact ⟨rfl, rfl, rfl, Scope.valid_positional _ _ _ _⟩
      · exact ⟨rfl, rfl, rfl, trivial⟩
  · exact ⟨rfl, rfl, rfl, rfl, rfl⟩
  · exact ⟨rfl, rfl, rfl, rfl, rfl⟩
  · exact ⟨rfl, rfl, rfl, trivial⟩

theorem Symbols.partScope_opens (symbols : Symbols) (type : TypeId) (path : FieldPath) (body : Tree) :
    (symbols.partScope type path body).Opens .body (some .overrides) ∨
      (symbols.partScope type path body).Opens .body (some .value) := by
  simp only [Symbols.partScope, State.overrideScope]
  split
  · exact .inl ⟨rfl, rfl, rfl, trivial⟩
  · exact .inr (symbols.bodyScope_opens type body)

/-! ### Entering a node -/

/-- What entering a node leaves of a scope, and what it opens. A scope that counts has counted the node, and the scope
    that is opened belongs to the node. -/
structure Entry.Fits (scope : Scope) (tree : Tree) (entry : Entry) : Prop where
  kind : entry.scope.kind = scope.kind
  endTag : entry.scope.endTag = scope.endTag
  level : entry.scope.level = scope.level + if scope.counts && tree.is scope.endTag then 1 else 0
  valid : entry.scope.Valid
  opened : ∀ opened, entry.opened = some opened → ∃ kind, opened.Opens tree.tag kind ∧ entry.scope.Awaits kind

/-- The outcome of entering a node: a fault of the source, or an entry that fits. -/
def EnterFits (scope : Scope) (tree : Tree) : Except Fault Entry → Prop
  | .error fault => ¬ fault.Internal
  | .ok entry => entry.Fits scope tree

namespace EnterFits

variable {scope after : Scope} {tree : Tree} {state : State}

/-- A scope that does not count may go on without opening anything. -/
theorem unopened (continues : scope.Continues after) (plain : scope.counts = false) :
    EnterFits scope tree (.ok ⟨state, after, none⟩) := by
  refine ⟨continues.kind, continues.endTag, ?_, continues.valid, ?_⟩
  · rw [plain]
    exact continues.level
  · intro opened isSome
    cases isSome

/-- A scope that does not count may go on below a scope that yields what it waits for. -/
theorem opening {opened : Scope} {kind : Option Kind} (continues : scope.Continues after)
    (plain : scope.counts = false) (opens : opened.Opens tree.tag kind) (awaits : after.Awaits kind) :
    EnterFits scope tree (.ok ⟨state, after, some opened⟩) := by
  refine ⟨continues.kind, continues.endTag, ?_, continues.valid, ?_⟩
  · rw [plain]
    exact continues.level
  · rintro _ ⟨⟩
    exact ⟨kind, opens, awaits⟩

/-- A scope that does not count may have a node passed over. -/
theorem passing {tag : Tag} (isTag : tree.tag = tag) (continues : scope.Continues after)
    (plain : scope.counts = false) (awaits : after.Awaits none) :
    EnterFits scope tree (.ok ⟨state, after, some (.passOver tag)⟩) := by
  subst isTag
  exact opening continues plain (Scope.passOver_opens tree.tag) awaits

end EnterFits

namespace Scope

theorem typeOf_not_internal {state : State} {use : TypeUse} {fault : Fault} (failed : state.typeOf use = .error fault) :
    ¬ fault.Internal := by
  simp only [State.typeOf] at failed
  split at failed
  · cases failed
  · cases failed
    exact id

theorem specific_not_internal {state : State} {type : TypeId} {form : Form} {fault : Fault}
    (failed : state.specific type form = .error fault) : ¬ fault.Internal := by
  have literal {text : String} {fault : Fault} (failed : readLiteral text = .error fault) : ¬ fault.Internal := by
    simp only [readLiteral] at failed
    split at failed
    · cases failed
    · cases failed
      exact id
  cases form with
  | literal text =>
    cases read : readLiteral text with
    | ok literal => simp [State.specific, read, Except.map] at failed
    | error fault' =>
      simp only [State.specific, read, Except.map, Except.error.injEq] at failed
      exact failed ▸ literal read
  | reference name =>
    simp only [State.specific, State.referenceAtom] at failed
    split at failed
    · cases failed
    · split at failed
      · cases failed
      · split at failed
        · cases failed
        · split at failed
          · split at failed
            · cases failed
            · cases failed
              exact id
          · cases failed
            exact id
  | _ => cases failed

theorem enterDefinition_fits (state : State) (tree : Tree) (draft : Draft) (type : Option TypeId) (modifying : Bool) :
    EnterFits (.definition draft type modifying) tree (enterDefinition state tree draft type modifying) := by
  unfold enterDefinition
  cases form : tree.form with
  | type use =>
    dsimp only
    cases found : state.typeOf use with
    | error fault => exact typeOf_not_internal found
    | ok id => exact .passing (congrArg Form.tag form) ⟨rfl, rfl, rfl, trivial⟩ rfl (.inl rfl)
  | identifier name => exact .unopened ⟨rfl, rfl, rfl, trivial⟩ rfl
  | parameterList =>
    have opens : (Scope.parameterList none []).Opens tree.tag (some .parameters) := by
      rw [Tree.tag, form]
      exact ⟨rfl, rfl, rfl, trivial⟩
    exact .opening (.refl trivial) rfl opens (.inr (.inr (.inl rfl)))
  | base name =>
    cases draft.type with
    | none => exact id
    | some typeName =>
      dsimp only
      split
      · exact id
      · exact .passing (congrArg Form.tag form) ⟨rfl, rfl, rfl, trivial⟩ rfl (.inl rfl)
  | body =>
    have isBody : tree.tag = .body := congrArg Form.tag form
    cases type with
    | none => exact id
    | some id =>
      cases modifying with
      | true =>
        simp only [State.overrideScope_eq]
        rcases state.symbols.partScope_opens id .root tree with part | value
        · exact .opening (.refl trivial) rfl (isBody ▸ part) (.inr (.inr (.inr ⟨rfl, rfl⟩)))
        · exact .opening (.refl trivial) rfl (isBody ▸ value) (.inr (.inl rfl))
      | false =>
        simp only [State.valueScope_eq]
        exact .opening (.refl trivial) rfl (isBody ▸ state.symbols.bodyScope_opens id tree) (.inr (.inl rfl))
  | _ => exact .unopened (.refl trivial) rfl

theorem enterParameters_fits (state : State) (tree : Tree) (pending : Option String) (parameters : List Parameter) :
    EnterFits (.parameterList pending parameters) tree (enterParameters state tree pending parameters) := by
  unfold enterParameters
  cases form : tree.form with
  | type use =>
    dsimp only
    cases found : state.typeOf use with
    | error fault => exact typeOf_not_internal found
    | ok id => exact .passing (congrArg Form.tag form) ⟨rfl, rfl, rfl, trivial⟩ rfl rfl
  | identifier name =>
    cases pending with
    | none => exact id
    | some type => exact .unopened ⟨rfl, rfl, rfl, trivial⟩ rfl
  | _ => exact .unopened (.refl trivial) rfl

theorem enterSpecific_fits (state : State) (tree : Tree) (type : TypeId) (value : Option Expr) :
    EnterFits (.specific type value) tree (enterSpecific state tree type value) := by
  have read : EnterFits (.specific type value) tree
      ((state.specific type tree.form).map fun value => ⟨state, .specific type (some value), none⟩) := by
    cases found : state.specific type tree.form with
    | error fault => exact specific_not_internal found
    | ok value => exact .unopened ⟨rfl, rfl, rfl, trivial⟩ rfl
  unfold enterSpecific
  cases tree.tag with
  | literal => exact read
  | reference => exact read
  | _ => exact .unopened (.refl trivial) rfl

theorem enterNamed_fits (state : State) (tree : Tree) (type : String) (slots : List Slot) (pending : Option Nat)
    (valid : (Scope.named type slots pending).Valid) :
    EnterFits (.named type slots pending) tree (enterNamed state tree type slots pending) := by
  unfold enterNamed
  cases form : tree.form with
  | identifier name =>
    dsimp only
    cases found : slots.findIdx? fun slot => slot.field.name == name with
    | none => exact id
    | some index =>
      refine .unopened ⟨rfl, rfl, rfl, ?_⟩ rfl
      rintro _ ⟨⟩
      exact (List.findIdx?_eq_some_iff_findIdx_eq.mp found).1
  | body =>
    have isBody : tree.tag = .body := congrArg Form.tag form
    dsimp only
    cases found : pending.bind fun index => slots[index]? with
    | none => exact .passing isBody (.refl valid) rfl (.inl rfl)
    | some slot =>
      obtain ⟨index, pendingIs, -⟩ := Option.bind_eq_some_iff.mp found
      have awaits : (Scope.named type slots pending).Awaits (some .value) :=
        .inr ⟨rfl, index, pendingIs, valid index pendingIs⟩
      simp only [State.valueScope_eq]
      exact .opening (.refl valid) rfl (isBody ▸ state.symbols.bodyScope_opens slot.field.type tree) awaits
  | _ => exact .unopened (.refl valid) rfl

theorem enterUnion_fits (state : State) (tree : Tree) (type : String) (alternatives : List (Field TypeId))
    (chosen : Option String) (value : Option Expr) :
    EnterFits (.union type alternatives chosen value) tree
      (enterUnion state tree type alternatives chosen value) := by
  unfold enterUnion
  cases form : tree.form with
  | identifier name =>
    cases chosen with
    | some first => exact id
    | none =>
      dsimp only
      cases Field.find? alternatives name with
      | none => exact id
      | some alternative => exact .unopened ⟨rfl, rfl, rfl, trivial⟩ rfl
  | body =>
    have isBody : tree.tag = .body := congrArg Form.tag form
    dsimp only
    cases found : chosen.bind (Field.find? alternatives) with
    | none => exact id
    | some alternative =>
      obtain ⟨name, rfl, -⟩ := Option.bind_eq_some_iff.mp found
      simp only [State.valueScope_eq]
      exact .opening (.refl trivial) rfl (isBody ▸ state.symbols.bodyScope_opens alternative.type tree) ⟨rfl, rfl⟩
  | _ => exact .unopened (.refl trivial) rfl

theorem enterSequence_fits (state : State) (tree : Tree) (type : String) (element : TypeId) (elements : List Expr)
    (listed : Bool) :
    EnterFits (.sequence type element elements listed) tree
      (enterSequence state tree type element elements listed) := by
  unfold enterSequence
  cases form : tree.form with
  | elementList =>
    cases listed with
    | true => exact .passing (congrArg Form.tag form) (.refl trivial) rfl (.inl rfl)
    | false => exact .unopened ⟨rfl, rfl, rfl, trivial⟩ rfl
  | body =>
    have isBody : tree.tag = .body := congrArg Form.tag form
    simp only [State.valueScope_eq]
    exact .opening (.refl trivial) rfl (isBody ▸ state.symbols.bodyScope_opens element tree) (.inr rfl)
  | _ => exact .unopened (.refl trivial) rfl

theorem enterPositional_fits (state : State) (tree : Tree) (type : String) (slots : List Slot) (next : Nat)
    (current : Option Nat) (listed : Bool) (valid : (Scope.positional type slots next current listed).Valid) :
    EnterFits (.positional type slots next current listed) tree
      (enterPositional state tree type slots next current listed) := by
  unfold enterPositional
  cases form : tree.form with
  | elementList =>
    cases listed with
    | true => exact .passing (congrArg Form.tag form) (.refl valid) rfl (.inl rfl)
    | false => exact .unopened ⟨rfl, rfl, rfl, valid⟩ rfl
  | body =>
    have isBody : tree.tag = .body := congrArg Form.tag form
    dsimp only
    cases found : slots[next]? with
    | none => exact .passing isBody ⟨rfl, rfl, rfl, valid⟩ rfl (.inl rfl)
    | some slot =>
      have inside : next < slots.length := (List.getElem?_eq_some_iff.mp found).1
      have continues : (Scope.positional type slots next current listed).Continues
          (.positional type slots (next + 1) (some next) listed) := by
        refine ⟨rfl, rfl, rfl, ?_⟩
        rintro _ ⟨⟩
        exact inside
      simp only [State.valueScope_eq]
      exact .opening continues rfl (isBody ▸ state.symbols.bodyScope_opens slot.field.type tree)
        (.inr ⟨rfl, next, rfl, inside⟩)
  | _ => exact .unopened (.refl valid) rfl

theorem enterOverrides_fits (state : State) (tree : Tree) (type : String) (path : FieldPath)
    (fields : List (Field TypeId)) (pending : Option String) (overrides : List Override) :
    EnterFits (.overrideList type path fields pending overrides) tree
      (enterOverrides state tree type path fields pending overrides) := by
  unfold enterOverrides
  cases form : tree.form with
  | identifier name =>
    dsimp only
    cases Field.find? fields name with
    | none => exact id
    | some field => exact .unopened ⟨rfl, rfl, rfl, trivial⟩ rfl
  | body =>
    have isBody : tree.tag = .body := congrArg Form.tag form
    dsimp only
    cases found : pending.bind (Field.find? fields) with
    | none => exact .passing isBody (.refl trivial) rfl (.inl rfl)
    | some field =>
      obtain ⟨name, rfl, -⟩ := Option.bind_eq_some_iff.mp found
      simp only [State.overrideScope_eq]
      rcases state.symbols.partScope_opens field.type (path.child field.name) tree with part | value
      · exact .opening (.refl trivial) rfl (isBody ▸ part) (.inr ⟨.inr rfl, rfl⟩)
      · exact .opening (.refl trivial) rfl (isBody ▸ value) (.inr ⟨.inl rfl, rfl⟩)
  | _ => exact .unopened (.refl trivial) rfl

/-- Entering a node leaves a scope that waits for what it opens. -/
theorem enter_fits (state : State) (tree : Tree) {scope : Scope} (valid : scope.Valid) :
    EnterFits scope tree (scope.enter state tree) := by
  cases scope with
  | definition draft type modifying => exact enterDefinition_fits state tree draft type modifying
  | parameterList pending parameters => exact enterParameters_fits state tree pending parameters
  | specific type value => exact enterSpecific_fits state tree type value
  | named type slots pending => exact enterNamed_fits state tree type slots pending valid
  | union type alternatives chosen value => exact enterUnion_fits state tree type alternatives chosen value
  | sequence type element elements listed => exact enterSequence_fits state tree type element elements listed
  | positional type slots next current listed =>
    exact enterPositional_fits state tree type slots next current listed valid
  | overrideList type path fields pending overrides =>
    exact enterOverrides_fits state tree type path fields pending overrides
  | unsupported type description level =>
    refine ⟨rfl, rfl, ?_, trivial, fun _ opened => by cases opened⟩
    cases nested : tree.is .body <;> simp [Scope.level, counts, endTag, nested]
  | skip tag level =>
    refine ⟨rfl, rfl, ?_, trivial, fun _ opened => by cases opened⟩
    cases nested : tree.is tag <;> simp [Scope.level, counts, endTag, nested]
  | await tag result => exact .unopened (.refl valid) rfl

end Scope

/-! ### Leaving a node -/

/-- What leaving a node makes of a scope. It closes at the end of its own construct, unless a nested one ends. -/
def Exit.Fits (scope : Scope) (tree : Tree) : Exit → Prop
  | .stay after =>
    after.kind = scope.kind ∧ after.endTag = scope.endTag ∧ after.Valid ∧
      (scope.level = after.level + if tree.is scope.endTag then 1 else 0) ∧
      (tree.is scope.endTag = false → after = scope)
  | .close result => tree.is scope.endTag = true ∧ scope.level = 0 ∧ result.map Yield.kind = scope.kind

/-- The outcome of leaving a node: a fault of the source, or an exit that fits. -/
def LeaveFits (scope : Scope) (tree : Tree) : Except Fault (State × Exit) → Prop
  | .error fault => ¬ fault.Internal
  | .ok (_, exit) => exit.Fits scope tree

namespace Scope

theorem leave_fits (state : State) (tree : Tree) {scope : Scope} (valid : scope.Valid) :
    LeaveFits scope tree (scope.leave state tree) := by
  have stays (away : ¬ tree.is scope.endTag = true) : LeaveFits scope tree (.ok (state, .stay scope)) :=
    ⟨rfl, rfl, valid, by simp [away], fun _ => rfl⟩
  cases scope with
  | definition draft type modifying =>
    simp only [leave]
    split
    · rename_i ends
      cases made : draft.template with
      | ok template => exact ⟨ends, rfl, rfl⟩
      | error fault =>
        simp only [Draft.template] at made
        split at made
        · cases made
          exact id
        · cases made
          exact id
        · cases made
    · exact stays ‹_›
  | specific type value =>
    simp only [leave]
    split
    · cases value <;> exact ⟨‹_›, rfl, rfl⟩
    · exact stays ‹_›
  | union type alternatives chosen value =>
    simp only [leave]
    split
    · rename_i ends
      cases chosen with
      | none => exact id
      | some alternative =>
        cases value with
        | none => exact id
        | some value => exact ⟨ends, rfl, rfl⟩
    · exact stays ‹_›
  | unsupported type description level =>
    simp only [leave]
    split
    · rename_i ends
      cases level with
      | zero => exact ⟨ends, rfl, rfl⟩
      | succ level => exact ⟨rfl, rfl, trivial, by simp [Scope.level, endTag, ends], by simp [endTag, ends]⟩
    · exact stays ‹_›
  | skip tag level =>
    simp only [leave]
    split
    · rename_i ends
      cases level with
      | zero => exact ⟨ends, rfl, rfl⟩
      | succ level => exact ⟨rfl, rfl, trivial, by simp [Scope.level, endTag, ends], by simp [endTag, ends]⟩
    · exact stays ‹_›
  | _ =>
    simp only [leave]
    split
    · exact ⟨‹_›, rfl, rfl⟩
    · exact stays ‹_›

/-! ### Taking a result -/

/-- A scope takes what it waits for. -/
theorem accept_of_awaits (state : State) {scope : Scope} {result : Yield} (awaits : scope.Awaits (some result.kind)) :
    ∃ after scope', scope.accept state result = .ok (after, scope') ∧ scope.Continues scope' := by
  cases scope with
  | definition draft type modifying =>
    cases result with
    | parameters parameters => exact ⟨_, _, rfl, rfl, rfl, rfl, trivial⟩
    | value value => cases modifying <;> exact ⟨_, _, rfl, rfl, rfl, rfl, trivial⟩
    | overrides overrides => exact ⟨_, _, rfl, rfl, rfl, rfl, trivial⟩
    | template template => simp [Awaits, Yield.kind] at awaits
  | named type slots pending =>
    cases result with
    | value value =>
      obtain ⟨⟨⟩⟩ | ⟨-, index, rfl, -⟩ := awaits
      exact ⟨_, _, rfl, rfl, rfl, rfl, valid_named _ _⟩
    | _ => simp [Awaits, Yield.kind] at awaits
  | union type alternatives chosen value =>
    cases result with
    | value value => exact ⟨_, _, rfl, rfl, rfl, rfl, trivial⟩
    | _ => simp [Awaits, Yield.kind] at awaits
  | sequence type element elements listed =>
    cases result with
    | value value => exact ⟨_, _, rfl, rfl, rfl, rfl, trivial⟩
    | _ => simp [Awaits, Yield.kind] at awaits
  | positional type slots next current listed =>
    cases result with
    | value value =>
      obtain ⟨⟨⟩⟩ | ⟨-, index, rfl, -⟩ := awaits
      exact ⟨_, _, rfl, rfl, rfl, rfl, valid_positional _ _ _ _⟩
    | _ => simp [Awaits, Yield.kind] at awaits
  | overrideList type path fields pending overrides =>
    cases result with
    | value value =>
      obtain ⟨⟨⟩⟩ | ⟨-, given⟩ := awaits
      obtain ⟨field, rfl⟩ := Option.isSome_iff_exists.mp given
      exact ⟨_, _, rfl, rfl, rfl, rfl, trivial⟩
    | overrides more => exact ⟨_, _, rfl, rfl, rfl, rfl, trivial⟩
    | _ => simp [Awaits, Yield.kind] at awaits
  | parameterList pending parameters => simp [Awaits] at awaits
  | _ => exact awaits.elim

end Scope

/-! ### The scopes of a definition -/

/-- The scopes while a definition is read: the definition is at the bottom and only there, and every other scope stands
    on one that waits for what it yields. -/
inductive Underway : List Scope → Prop
  | definition (draft : Draft) (type : Option TypeId) (modifying : Bool) :
      Underway [.definition draft type modifying]
  | push {scope parent : Scope} {below : List Scope} (rest : Underway (parent :: below))
      (awaits : parent.Awaits scope.kind) (valid : scope.Valid) : Underway (scope :: parent :: below)

namespace Underway

theorem valid {scope : Scope} {below : List Scope} (underway : Underway (scope :: below)) : scope.Valid := by
  cases underway with
  | definition draft type modifying => trivial
  | push rest awaits valid => exact valid

/-- The top scope may change as long as it yields the same kind. -/
theorem replace {scope scope' : Scope} {below : List Scope} (underway : Underway (scope :: below))
    (kind : scope'.kind = scope.kind) (valid : scope'.Valid) : Underway (scope' :: below) := by
  cases underway with
  | definition draft type modifying =>
    cases scope' with
    | definition draft type modifying => exact .definition draft type modifying
    | await tag result =>
      -- A result that is known is a value, and a definition yields a template.
      have known : result.map Yield.kind = some Kind.template := kind
      rw [valid.2] at known
      cases known
    | _ => cases kind
  | push rest awaits _ => exact .push rest (kind ▸ awaits) valid

/-- Entering a node keeps the scopes of a definition in order. -/
theorem enter {scope : Scope} {tree : Tree} {entry : Entry} {below : List Scope} (underway : Underway (scope :: below))
    (fits : entry.Fits scope tree) : Underway (entry.opened.toList ++ entry.scope :: below) := by
  have kept : Underway (entry.scope :: below) := underway.replace fits.kind fits.valid
  cases opened : entry.opened with
  | none => exact kept
  | some scope =>
    obtain ⟨kind, opens, awaits⟩ := fits.opened scope opened
    exact .push kept (opens.kind ▸ awaits) opens.valid

/-- All scopes below the top have one above them, so none of them counts. -/
theorem level_of_mem {scope : Scope} {below : List Scope} (underway : Underway (scope :: below)) :
    ∀ lower ∈ below, lower.level = 0 := by
  generalize whole : scope :: below = stack at underway
  induction underway generalizing scope below with
  | definition draft type modifying =>
    cases whole
    exact nofun
  | push rest awaits _ ih =>
    cases whole
    intro lower member
    rcases List.mem_cons.mp member with rfl | later
    · exact Scope.level_of_awaits awaits
    · exact ih rfl lower later

end Underway

/-- A stack is empty, or what is left of a dropped definition is passed over, or a definition is read. -/
def WellFormed (stack : List Scope) : Prop :=
  stack = [] ∨ (∃ level, stack = [.skip .definition level]) ∨ Underway stack

/-! ### Events while a definition is read -/

/-- What entering a node does while a definition is read, in two states that scopes cannot tell apart. -/
inductive EnterCases (left right : State) (tree : Tree) (scope : Scope) (below : List Scope) :
    Compiler → Compiler → Prop
  | drop (fault : Fault) (external : ¬ fault.Internal) :
      EnterCases left right tree scope below (Compiler.recover left fault false) (Compiler.recover right fault false)
  | proceed (updates : List Update) (after : Scope) (opened : Option Scope)
      (fits : ∀ state, Entry.Fits scope tree ⟨state, after, opened⟩) :
      EnterCases left right tree scope below ⟨left.applyAll updates, opened.toList ++ after :: below⟩
        ⟨right.applyAll updates, opened.toList ++ after :: below⟩

theorem Compiler.enter_cases {bases : List String} {left right : State} (agree : left.Agree bases right) (tree : Tree)
    (seen : tree.form.bases ⊆ bases) {scope : Scope} {below : List Scope}
    (valid : scope.Valid) :
    EnterCases left right tree scope below (Compiler.enter ⟨left, scope :: below⟩ tree)
      (Compiler.enter ⟨right, scope :: below⟩ tree) := by
  have same := Scope.enter_same agree tree seen scope
  have fits := Scope.enter_fits left tree valid
  simp only [Compiler.enter]
  generalize scope.enter left tree = first at same fits
  generalize scope.enter right tree = second at same
  cases same with
  | fault fault => exact .drop fault fits
  | entry updates after opened =>
    have fits' : ∀ state, Entry.Fits scope tree ⟨state, after, opened⟩ := fun _ =>
      ⟨fits.kind, fits.endTag, fits.level, fits.valid, fits.opened⟩
    cases opened with
    | none => exact .proceed updates after none fits'
    | some opened =>
      simp only [State.note_applyAll]
      exact .proceed _ after (some opened) fits'

/-- What leaving a node does while a definition is read, in two states that scopes cannot tell apart. -/
inductive LeaveCases (left right : State) (tree : Tree) (scope : Scope) : List Scope → Compiler → Compiler → Prop
  | drop {below : List Scope} (fault : Fault) (external : ¬ fault.Internal) :
      LeaveCases left right tree scope below (Compiler.recover left fault (tree.is .definition))
        (Compiler.recover right fault (tree.is .definition))
  | stay {below : List Scope} (updates : List Update) (after : Scope) (fits : (Exit.stay after).Fits scope tree) :
      LeaveCases left right tree scope below ⟨left.applyAll updates, after :: below⟩
        ⟨right.applyAll updates, after :: below⟩
  | close {parent : Scope} {below : List Scope} (updates : List Update) (after : Scope)
      (ends : tree.is scope.endTag = true) (level : scope.level = 0) (continues : parent.Continues after) :
      LeaveCases left right tree scope (parent :: below) ⟨left.applyAll updates, after :: below⟩
        ⟨right.applyAll updates, after :: below⟩
  | register (updates : List Update) (template : Template) (ends : tree.is .definition = true)
      (cleared : ∀ state : State, (state.applyAll updates).parameters = []) :
      LeaveCases left right tree scope [] ⟨(left.applyAll updates).register template, []⟩
        ⟨(right.applyAll updates).register template, []⟩

theorem Compiler.leave_definition_cases (left right : State) (tree : Tree) (draft : Draft) (type : Option TypeId)
    (modifying : Bool) :
    LeaveCases left right tree (.definition draft type modifying) []
      (Compiler.leave ⟨left, [.definition draft type modifying]⟩ tree)
      (Compiler.leave ⟨right, [.definition draft type modifying]⟩ tree) := by
  have fits : LeaveFits (.definition draft type modifying) tree _ := Scope.leave_fits left tree trivial
  simp only [Scope.leave] at fits
  simp only [Compiler.leave, Scope.leave]
  cases ends : tree.is .definition with
  | false =>
    rw [ends] at fits
    exact .stay [] _ fits
  | true =>
    rw [ends] at fits
    cases made : draft.template with
    | error fault =>
      rw [made] at fits
      have dropped : LeaveCases left right tree (.definition draft type modifying) [] _ _ := .drop fault fits
      rwa [ends] at dropped
    | ok template => exact .register [.setParameters [], .note _] template ends (fun _ => rfl)

theorem Compiler.leave_cases {left right : State} (symbols : left.symbols = right.symbols) (tree : Tree) {scope : Scope}
    {below : List Scope} (underway : Underway (scope :: below)) :
    LeaveCases left right tree scope below (Compiler.leave ⟨left, scope :: below⟩ tree)
      (Compiler.leave ⟨right, scope :: below⟩ tree) := by
  cases underway with
  | definition draft type modifying => exact leave_definition_cases left right tree draft type modifying
  | @push _ parent below rest awaits valid =>
    have same := Scope.leave_same symbols tree scope
    have fits := Scope.leave_fits left tree valid
    simp only [Compiler.leave]
    generalize scope.leave left tree = first at same fits
    generalize scope.leave right tree = second at same
    cases same with
    | fault fault => exact .drop fault fits
    | result updates exit =>
      cases exit with
      | stay after => exact .stay updates after fits
      | close result =>
        obtain ⟨ends, level, kind⟩ := fits
        cases result with
        | none =>
          simp only [State.note_applyAll]
          exact .close _ parent ends level (.refl rest.valid)
        | some result =>
          simp only [State.note_applyAll, Compiler.deliver]
          generalize updates ++ [.note (.left scope.label)] = updates
          rw [← kind] at awaits
          obtain ⟨state, after, accepted, continues⟩ := Scope.accept_of_awaits (left.applyAll updates) awaits
          have same := Scope.accept_same (left.applyAll updates) (right.applyAll updates) result parent
          generalize parent.accept (left.applyAll updates) result = first at same accepted
          generalize parent.accept (right.applyAll updates) result = second at same
          cases same with
          | fault fault => cases accepted
          | result more after =>
            cases accepted
            simp only [← State.applyAll_append]
            exact .close (updates ++ more) after ends level continues

/-! ### Passing over -/

namespace Compiler

theorem enter_skip (state : State) (tag : Tag) (level : Nat) (below : List Scope) (tree : Tree) :
    enter ⟨state, .skip tag level :: below⟩ tree =
      ⟨state, .skip tag (if tree.is tag then level + 1 else level) :: below⟩ := rfl

theorem leave_skip_away {tag : Tag} {tree : Tree} (away : tree.is tag = false) (state : State) (level : Nat)
    (below : List Scope) : leave ⟨state, .skip tag level :: below⟩ tree = ⟨state, .skip tag level :: below⟩ := by
  simp [leave, Scope.leave, away]

theorem leave_skip_nested {tag : Tag} {tree : Tree} (ends : tree.is tag = true) (state : State) (level : Nat)
    (below : List Scope) :
    leave ⟨state, .skip tag (level + 1) :: below⟩ tree = ⟨state, .skip tag level :: below⟩ := by
  simp [leave, Scope.leave, ends]

theorem leave_skip_end {tag : Tag} {tree : Tree} (ends : tree.is tag = true) (state : State) (below : List Scope) :
    leave ⟨state, .skip tag 0 :: below⟩ tree = ⟨state.note (.left (Scope.skip tag 0).label), below⟩ := by
  simp [leave, Scope.leave, ends]

/-- Where something is passed over, leaving a node at most changes the level or ends the passing over. -/
theorem leave_skip_cases (state : State) (tag : Tag) (level : Nat) (below : List Scope) (tree : Tree) :
    (∃ level', leave ⟨state, .skip tag level :: below⟩ tree = ⟨state, .skip tag level' :: below⟩) ∨
      leave ⟨state, .skip tag level :: below⟩ tree = ⟨state.note (.left (Scope.skip tag 0).label), below⟩ := by
  cases ends : tree.is tag with
  | false => exact .inl ⟨level, leave_skip_away ends state level below⟩
  | true =>
    cases level with
    | zero => exact .inr (leave_skip_end ends state below)
    | succ level => exact .inl ⟨level, leave_skip_nested ends state level below⟩

end Compiler

/-! ### Any events -/

/-- No diagnostic says that a scope got what it has no use for. -/
def State.Clean (state : State) : Prop :=
  ∀ diagnostic ∈ state.registry.diagnostics, ∀ fault, diagnostic.problem = .fault fault → ¬ fault.Internal

namespace State.Clean

theorem applyAll {state : State} (clean : state.Clean) (updates : List Update) : (state.applyAll updates).Clean := by
  intro diagnostic member fault problem
  rw [State.applyAll_diagnostics] at member
  rcases List.mem_append.mp member with earlier | later
  · exact clean diagnostic earlier fault problem
  · have remark := isError_of_mem_reported later
    simp [Diagnostic.isError, problem] at remark

theorem recover {state : State} (clean : state.Clean) {fault : Fault} (external : ¬ fault.Internal) (atEnd : Bool) :
    (Compiler.recover state fault atEnd).state.Clean := by
  intro diagnostic member fault' problem
  rcases List.mem_append.mp member with earlier | later
  · exact clean diagnostic earlier fault' problem
  · cases List.mem_singleton.mp later
    cases problem
    exact external

end State.Clean

/-- A compiler whose stack is well formed and that has reported no internal fault. -/
structure Compiler.Sound (compiler : Compiler) : Prop where
  wellFormed : WellFormed compiler.stack
  clean : compiler.state.Clean

namespace Compiler

theorem recover_sound {state : State} (clean : state.Clean) {fault : Fault} (external : ¬ fault.Internal)
    (atEnd : Bool) : (recover state fault atEnd).Sound := by
  refine ⟨?_, clean.recover external atEnd⟩
  cases atEnd with
  | true => exact .inl rfl
  | false => exact .inr (.inl ⟨0, rfl⟩)

theorem enterRoot_sound {state : State} (clean : state.Clean) (tree : Tree) : (enterRoot state tree).Sound := by
  unfold enterRoot
  cases tree.form with
  | module name => exact ⟨.inl rfl, clean⟩
  | definition => exact ⟨.inr (.inr (.definition _ _ _)), clean⟩
  | _ => exact ⟨.inl rfl, clean⟩

theorem enter_sound {compiler : Compiler} (sound : compiler.Sound) (tree : Tree) : (compiler.enter tree).Sound := by
  obtain ⟨state, stack⟩ := compiler
  obtain ⟨rfl | ⟨level, rfl⟩ | underway, clean⟩ := sound
  · exact enterRoot_sound clean tree
  · exact ⟨.inr (.inl ⟨_, rfl⟩), clean⟩
  · cases stack with
    | nil => cases underway
    | cons scope below =>
      have agree := State.Agree.refl tree.form.bases state
      have outcome : EnterCases state state tree scope below _ _ :=
        enter_cases agree tree (List.Subset.refl _) underway.valid
      generalize enter ⟨state, scope :: below⟩ tree = next at outcome
      cases outcome with
      | drop fault external => exact recover_sound clean external false
      | proceed updates after opened fits =>
        exact ⟨.inr (.inr (underway.enter (fits state))), clean.applyAll updates⟩

theorem leave_sound {compiler : Compiler} (sound : compiler.Sound) (tree : Tree) : (compiler.leave tree).Sound := by
  obtain ⟨state, stack⟩ := compiler
  obtain ⟨rfl | ⟨level, rfl⟩ | underway, clean⟩ := sound
  · exact ⟨.inl rfl, clean⟩
  · obtain ⟨level', stays⟩ | closes := leave_skip_cases state .definition level [] tree
    · rw [stays]
      exact ⟨.inr (.inl ⟨level', rfl⟩), clean⟩
    · rw [closes]
      exact ⟨.inl rfl, clean⟩
  · cases stack with
    | nil => cases underway
    | cons scope below =>
      have outcome : LeaveCases state state tree scope below _ _ := leave_cases rfl tree underway
      generalize leave ⟨state, scope :: below⟩ tree = next at outcome
      cases outcome with
      | drop fault external => exact recover_sound clean external _
      | stay updates after fits =>
        exact ⟨.inr (.inr (underway.replace fits.1 fits.2.2.1)), clean.applyAll updates⟩
      | close updates after ends level continues =>
        refine ⟨.inr (.inr ?_), clean.applyAll updates⟩
        cases underway with
        | push rest awaits valid => exact rest.replace continues.kind continues.valid
      | register updates template ends cleared => exact ⟨.inl rfl, clean.applyAll updates⟩

theorem step_sound {compiler : Compiler} (sound : compiler.Sound) (event : Event) : (compiler.step event).Sound := by
  cases event with
  | enter tree => exact enter_sound sound tree
  | leave tree => exact leave_sound sound tree

theorem run_sound {compiler : Compiler} (sound : compiler.Sound) (events : List Event) :
    (compiler.run events).Sound := by
  induction events generalizing compiler with
  | nil => exact sound
  | cons event rest ih => exact ih (step_sound sound event)

theorem new_sound (symbols : Symbols) : (new symbols).Sound := ⟨.inl rfl, nofun⟩

end Compiler

/-! ### What no event can meet -/

/-- An event that meets what its scope is not made for. -/
inductive Breach : Compiler → Event → Prop
  /-- A scope yields what the scope below it has no use for. -/
  | refused {state after : State} {tree : Tree} {scope parent : Scope} {below : List Scope} {result : Yield}
      {fault : Fault} (closes : scope.leave state tree = .ok (after, .close (some result)))
      (refuses : parent.accept (after.note (.left scope.label)) result = .error fault) :
      Breach ⟨state, scope :: parent :: below⟩ (.leave tree)
  /-- The outermost scope yields something else than a template. -/
  | stray {state after : State} {tree : Tree} {scope : Scope} {result : Yield}
      (closes : scope.leave state tree = .ok (after, .close (some result))) (other : result.kind ≠ .template) :
      Breach ⟨state, [scope]⟩ (.leave tree)
  /-- Something is read off a node that holds neither a literal nor a reference. -/
  | unreadable {state : State} {tree : Tree} {type : TypeId} {value : Option Expr} {below : List Scope}
      (noLiteral : ∀ text, tree.form ≠ .literal text) (noReference : ∀ name, tree.form ≠ .reference name)
      (reads : (Scope.specific type value).enter state tree ≠ .ok ⟨state, .specific type value, none⟩) :
      Breach ⟨state, .specific type value :: below⟩ (.enter tree)
  /-- The field that was named has no slot when its body is entered. -/
  | noField {state : State} {tree : Tree} {type : String} {slots : List Slot} {index : Nat} {below : List Scope}
      (body : tree.is .body = true) (outside : slots.length ≤ index) :
      Breach ⟨state, .named type slots (some index) :: below⟩ (.enter tree)
  /-- The field that was named has no slot for its value. -/
  | noSlot {state after : State} {tree : Tree} {scope : Scope} {value : Expr} {type : String} {slots : List Slot}
      {index : Nat} {below : List Scope} (closes : scope.leave state tree = .ok (after, .close (some (.value value))))
      (outside : slots.length ≤ index) :
      Breach ⟨state, scope :: .named type slots (some index) :: below⟩ (.leave tree)
  /-- The element that was counted has no slot for its value. -/
  | noPosition {state after : State} {tree : Tree} {scope : Scope} {value : Expr} {type : String} {slots : List Slot}
      {next index : Nat} {listed : Bool} {below : List Scope}
      (closes : scope.leave state tree = .ok (after, .close (some (.value value)))) (outside : slots.length ≤ index) :
      Breach ⟨state, scope :: .positional type slots next (some index) listed :: below⟩ (.leave tree)
  /-- The construct whose result is known ends, and its result is not there or is not yielded. -/
  | lost {state : State} {tree : Tree} {tag : Tag} {result : Option Yield} {below : List Scope}
      (ends : tree.is tag = true)
      (missing : ∀ after known, result = some known →
        (Scope.await tag result).leave state tree ≠ .ok (after, .close (some known))) :
      Breach ⟨state, .await tag result :: below⟩ (.leave tree)
  /-- A scope that has no nested construct open counts one as ended: it stays open at the end of its own construct, or
      it is another scope after the end of something else. -/
  | uncounted {state after : State} {tree : Tree} {scope scope' : Scope} {below : List Scope}
      (innermost : scope.level = 0) (stays : scope.leave state tree = .ok (after, .stay scope'))
      (counted : tree.is scope.endTag = true ∨ scope' ≠ scope) :
      Breach ⟨state, scope :: below⟩ (.leave tree)

theorem WellFormed.underway {scope parent : Scope} {below : List Scope}
    (wellFormed : WellFormed (scope :: parent :: below)) : Underway (scope :: parent :: below) := by
  rcases wellFormed with empty | ⟨level, lone⟩ | underway
  · cases empty
  · cases lone
  · exact underway

theorem WellFormed.valid {scope : Scope} {below : List Scope} (wellFormed : WellFormed (scope :: below)) :
    scope.Valid := by
  rcases wellFormed with empty | ⟨level, lone⟩ | underway
  · cases empty
  · cases lone
    trivial
  · exact underway.valid

/-- What a scope yields is of the scope's kind. -/
theorem Scope.kind_of_close {state after : State} {tree : Tree} {scope : Scope} {result : Option Yield}
    (valid : scope.Valid) (closes : scope.leave state tree = .ok (after, .close result)) :
    result.map Yield.kind = scope.kind := by
  have fits := Scope.leave_fits state tree valid
  rw [closes] at fits
  exact fits.2.2

/-- The scope below a scope that yields a result waits for it. -/
theorem WellFormed.awaits {state after : State} {tree : Tree} {scope parent : Scope} {below : List Scope}
    {result : Yield} (wellFormed : WellFormed (scope :: parent :: below))
    (closes : scope.leave state tree = .ok (after, .close (some result))) : parent.Awaits (some result.kind) := by
  have kind := Scope.kind_of_close wellFormed.valid closes
  cases wellFormed.underway with
  | push rest awaits valid =>
    rw [← kind] at awaits
    exact awaits

/-- A specific value is read off literals and references only. -/
theorem Scope.enter_specific_away {state : State} {tree : Tree} (noLiteral : ∀ text, tree.form ≠ .literal text)
    (noReference : ∀ name, tree.form ≠ .reference name) (type : TypeId) (value : Option Expr) :
    (Scope.specific type value).enter state tree = .ok ⟨state, .specific type value, none⟩ := by
  simp only [Scope.enter, Scope.enterSpecific, Tree.tag]
  cases form : tree.form with
  | literal text => exact absurd form (noLiteral text)
  | reference name => exact absurd form (noReference name)
  | _ => rfl

theorem not_breach {compiler : Compiler} (wellFormed : WellFormed compiler.stack) (event : Event) :
    ¬ Breach compiler event := by
  intro breach
  cases breach with
  | refused closes refuses =>
    obtain ⟨_, _, accepted, _⟩ := Scope.accept_of_awaits _ (wellFormed.awaits closes)
    rw [refuses] at accepted
    cases accepted
  | stray closes other =>
    have kind := Scope.kind_of_close wellFormed.valid closes
    rcases wellFormed with empty | ⟨level, lone⟩ | underway
    · cases empty
    · cases lone
      cases kind
    · cases underway with
      | definition draft type modifying => exact other (Option.some.inj kind)
  | @unreadable state tree type value below noLiteral noReference reads =>
    exact reads (Scope.enter_specific_away noLiteral noReference type value)
  | noField body outside => exact absurd (wellFormed.valid _ rfl) (by omega)
  | noSlot closes outside =>
    obtain ⟨⟨⟩⟩ | ⟨-, index, ⟨⟩, inside⟩ := wellFormed.awaits closes
    omega
  | noPosition closes outside =>
    obtain ⟨⟨⟩⟩ | ⟨-, index, ⟨⟩, inside⟩ := wellFormed.awaits closes
    omega
  | @lost state tree tag result below ends missing =>
    obtain ⟨-, kind⟩ := wellFormed.valid
    obtain ⟨known, rfl, -⟩ := Option.map_eq_some_iff.mp kind
    exact missing state known rfl (by simp [Scope.leave, ends])
  | @uncounted state after tree scope scope' below innermost stays counted =>
    have fits := Scope.leave_fits state tree wellFormed.valid
    rw [stays] at fits
    obtain ⟨-, -, -, level, same⟩ := fits
    have away : tree.is scope.endTag = false := by
      cases ends : tree.is scope.endTag with
      | false => rfl
      | true =>
        rw [innermost, ends] at level
        simp at level
    rcases counted with ends | changed
    · rw [away] at ends
      cases ends
    · exact changed (same away)

/-- In whatever order nodes are entered and left, balanced or not, the stack is well formed, no diagnostic says that a
    scope got what it has no use for, and no further event can make a scope meet what it is not made for. -/
theorem run_wellFormed_not_breach (symbols : Symbols) (events : List Event) :
    WellFormed ((Compiler.new symbols).run events).stack ∧
      (∀ diagnostic ∈ ((Compiler.new symbols).run events).state.registry.diagnostics, ∀ what,
        diagnostic.problem ≠ .fault (.unexpected what)) ∧
      ∀ event, ¬ Breach ((Compiler.new symbols).run events) event := by
  have sound := Compiler.run_sound (Compiler.new_sound symbols) events
  refine ⟨sound.wellFormed, ?_, not_breach sound.wellFormed⟩
  intro diagnostic member what problem
  exact sound.clean diagnostic member _ problem trivial

end TtcnTemplates
