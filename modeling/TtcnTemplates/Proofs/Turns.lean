import TtcnTemplates.Proofs.Holdings

/-! # What an event does with a definition

While a definition is read, it is at the bottom of the stack, and an event does one of eight things with it (`Turn`).
Where no definition is read, an event only names the module, ends what is passed over, or begins a definition (`Rest`).
What these keep holds after all events, in whatever order nodes are entered and left (`Compiler.run_holds`).
-/

namespace TtcnTemplates

/-! ### While a definition is read -/

/-- What an event does with the definition that is read and with the scopes above it. -/
inductive Turn (state : State) (above : List Scope) (draft : Draft) (modifying : Bool) : Compiler → Prop
  /-- The definition is dropped. -/
  | drop {after : State} {remarks : List Remark} (remarked : state.Remarked remarks after) (fault : Fault)
      (atEnd : Bool) : Turn state above draft modifying (.recover after fault atEnd)
  /-- The scopes above go on, and the definition may be given its type. -/
  | proceed {after : State} {remarks : List Remark} (above' : List Scope) (remarked : state.Remarked remarks after)
      (flow : Flow state.parameters remarks (held above) (held above')) (name : Option String)
      (type : Option TypeId) :
      Turn state above draft modifying ⟨after, above' ++ [.definition { draft with type := name } type modifying]⟩
  /-- The definition is given its name. -/
  | name (name : String) (type : Option TypeId) (alone : above = []) :
      Turn state above draft modifying
        ⟨{ state with current := some name }, [] ++ [.definition { draft with name := some name } type modifying]⟩
  /-- The definition is given its base, which is registered. -/
  | base {after : State} (base type : String) (id : Option TypeId) (remarked : state.Remarked [] after)
      (known : (state.registry.find? base).isSome = true) (alone : above = []) :
      Turn state above draft modifying
        ⟨after, [.passOver .base] ++
          [.definition { draft with type := some type, value := some (.atom type (.baseCall base)) } id true]⟩
  /-- The definition takes its formal parameters. -/
  | parameters {after : State} {remarks : List Remark} (parameters : List Parameter) (type : Option TypeId)
      (remarked : state.Remarked remarks after) :
      Turn state above draft modifying
        ⟨{ after with parameters }, [] ++ [.definition { draft with parameters } type modifying]⟩
  /-- The definition takes its value. -/
  | value {after : State} {remarks : List Remark} {value : Expr} (type : Option TypeId) (plain : modifying = false)
      (remarked : state.Remarked remarks after) (flow : Flow state.parameters remarks (held above) [value]) :
      Turn state above draft modifying
        ⟨after, [] ++ [.definition { draft with value := some value } type modifying]⟩
  /-- The definition takes overrides of its base. -/
  | overrides {after : State} {remarks : List Remark} {overrides : List Override} (type : Option TypeId)
      (modifies : modifying = true) (remarked : state.Remarked remarks after)
      (flow : Flow state.parameters remarks (held above) (Override.values overrides)) :
      Turn state above draft modifying
        ⟨after, [] ++ [.definition { draft with overrides := draft.overrides ++ overrides } type modifying]⟩
  /-- The template of the definition is registered. -/
  | register {after : State} {template : Template} (made : draft.template = .ok template)
      (remarked : State.Remarked { state with parameters := [] } [] after) (alone : above = []) :
      Turn state above draft modifying ⟨after.register template, []⟩

/-- The template of a draft has its parts. -/
theorem Draft.eq_of_template {draft : Draft} {template : Template} (made : draft.template = .ok template) :
    draft.name = some template.name ∧ template.value = draft.value ∧ template.parameters = draft.parameters ∧
      template.overrides = draft.overrides := by
  rw [Draft.template] at made
  split at made
  · cases made
  · cases made
  · rename_i name type isName isType
    cases made
    exact ⟨isName, rfl, rfl, rfl⟩

theorem Draft.values_template {draft : Draft} {template : Template} (made : draft.template = .ok template) :
    template.values = draft.values := by
  obtain ⟨-, value, -, overrides⟩ := Draft.eq_of_template made
  rw [Template.values, value, overrides, Draft.values]

/-- The definition that is read is at the bottom. -/
theorem Underway.exists_definition {stack : List Scope} (underway : Underway stack) :
    ∃ above draft type modifying, stack = above ++ [.definition draft type modifying] := by
  induction underway with
  | definition draft type modifying => exact ⟨[], draft, type, modifying, rfl⟩
  | @push scope parent below rest awaits valid ih =>
    obtain ⟨above, draft, type, modifying, same⟩ := ih
    exact ⟨scope :: above, draft, type, modifying, congrArg (scope :: ·) same⟩

/-- A scope above the definition is no definition. -/
theorem Underway.inner {scope : Scope} {above : List Scope} {draft : Draft} {type : Option TypeId} {modifying : Bool}
    (underway : Underway (scope :: above ++ [.definition draft type modifying])) : scope.kind ≠ some .template := by
  have awaited {parent : Scope} {kind : Option Kind} (awaits : parent.Awaits kind) : kind ≠ some .template := by
    rintro rfl
    cases parent <;> simp [Scope.Awaits] at awaits
  cases above with
  | nil => cases underway with
    | push rest awaits valid => exact awaited awaits
  | cons parent above => cases underway with
    | push rest awaits valid => exact awaited awaits

/-- The scopes below a scope. -/
theorem Underway.pop {scope : Scope} {above : List Scope} {draft : Draft} {type : Option TypeId} {modifying : Bool}
    (underway : Underway (scope :: above ++ [.definition draft type modifying])) :
    Underway (above ++ [.definition draft type modifying]) := by
  cases above with
  | nil => cases underway with
    | push rest awaits valid => exact rest
  | cons parent above => cases underway with
    | push rest awaits valid => exact rest

namespace Compiler

variable {state : State} {above : List Scope} {draft : Draft} {type : Option TypeId} {modifying : Bool}

/-- Entering a node with no scope above the definition. -/
theorem enter_definition_turn (tree : Tree) :
    Turn state [] draft modifying (enter ⟨state, [.definition draft type modifying]⟩ tree) := by
  simp only [enter, Scope.enter, Scope.enterDefinition]
  cases tree.form with
  | type use =>
    dsimp only
    cases state.typeOf use with
    | error fault => exact .drop (.refl state) fault false
    | ok id => exact .proceed [.passOver .type] ((State.Remarked.refl state).note _) (.refl []) _ _
  | identifier name => exact .name name type rfl
  | parameterList =>
    exact .proceed [.parameterList none []] ((State.Remarked.refl state).note _) (.refl []) draft.type _
  | base name =>
    cases draft.type with
    | none => exact .drop (.refl state) _ false
    | some typeName =>
      dsimp only
      cases found : state.registry.find? name with
      | none => exact .drop (.refl state) _ false
      | some template =>
        have known : (state.registry.find? name).isSome = true := by simp [found]
        exact .base name typeName type ((State.Remarked.refl state).note _) known rfl
  | body =>
    cases type with
    | none => exact .drop (.refl state) _ false
    | some id =>
      have opens {after : State} {opened : Scope} (notice : Notice)
          (flow : ∃ remarks, state.Remarked remarks after ∧ Flow state.parameters remarks [] opened.values) :
          Turn state [] draft modifying
            ⟨after.note notice, opened :: [.definition draft (some id) modifying]⟩ := by
        obtain ⟨remarks, remarked, flow⟩ := flow
        refine .proceed [opened] (remarked.note notice) ?_ draft.type (some id)
        simpa using flow
      cases modifying with
      | true => exact opens _ (state.overrideScope_flow id .root tree)
      | false => exact opens _ (state.valueScope_flow id tree)
  | _ => exact .proceed [] (.refl state) (.refl []) draft.type _

/-- Entering a node while a definition is read. -/
theorem enter_turn (underway : Underway (above ++ [.definition draft type modifying])) (tree : Tree) :
    Turn state above draft modifying (enter ⟨state, above ++ [.definition draft type modifying]⟩ tree) := by
  cases above with
  | nil => exact enter_definition_turn tree
  | cons scope above =>
    have flow := Scope.enter_flow state tree underway.inner
    simp only [List.cons_append, enter]
    generalize scope.enter state tree = outcome at flow
    cases outcome with
    | error fault => exact .drop (.refl state) fault false
    | ok entry =>
      obtain ⟨after, scope', opened⟩ := entry
      obtain ⟨remarks, remarked, flow⟩ := flow
      cases opened with
      | none =>
        refine .proceed (scope' :: above) remarked ?_ draft.type type
        simpa using flow.append (held above)
      | some opened =>
        refine .proceed (opened :: scope' :: above) (remarked.note _) ?_ draft.type type
        simpa using flow.append (held above)

/-- Leaving a node with no scope above the definition. -/
theorem leave_definition_turn (tree : Tree) :
    Turn state [] draft modifying (leave ⟨state, [.definition draft type modifying]⟩ tree) := by
  simp only [leave, Scope.leave]
  cases tree.is .definition with
  | true =>
    cases made : draft.template with
    | error fault => exact .drop (.refl state) fault _
    | ok template => exact .register made ((State.Remarked.refl _).note _) rfl
  | false => exact .proceed [] (.refl state) (.refl []) draft.type _

/-- A result that goes to the definition. Only a definition that modifies another one waits for overrides. -/
theorem deliver_definition_turn {after : State} {remarks : List Remark} {scope : Scope} {result : Yield}
    (remarked : state.Remarked remarks after) (flow : Flow state.parameters remarks scope.values result.values)
    (awaits : (Scope.definition draft type modifying).Awaits (some result.kind)) (tree : Tree) :
    Turn state [scope] draft modifying (deliver after tree result [.definition draft type modifying]) := by
  have flow : Flow state.parameters remarks (held [scope]) result.values := by simpa using flow
  cases result with
  | parameters list => exact .parameters list type remarked
  | value value =>
    cases modifying with
    | true => exact .overrides type rfl remarked flow
    | false => exact .value type rfl remarked flow
  | overrides changes =>
    have modifies : modifying = true := by simpa [Scope.Awaits, Yield.kind] using awaits
    exact .overrides type modifies remarked flow
  | template template => simp [Scope.Awaits, Yield.kind] at awaits

/-- A result that goes to a scope above the definition. -/
theorem deliver_inner_turn {after : State} {remarks : List Remark} {scope parent : Scope} {result : Yield}
    (remarked : state.Remarked remarks after) (flow : Flow state.parameters remarks scope.values result.values)
    (inner : parent.kind ≠ some .template) (tree : Tree) :
    Turn state (scope :: parent :: above) draft modifying
      (deliver after tree result (parent :: above ++ [.definition draft type modifying])) := by
  have taken := Scope.accept_flow after result inner
  simp only [List.cons_append, deliver]
  generalize parent.accept after result = outcome at taken
  cases outcome with
  | error fault => exact .drop remarked fault _
  | ok accepted =>
    obtain ⟨last, parent'⟩ := accepted
    obtain ⟨more, remarked', flow'⟩ := taken
    refine .proceed (parent' :: above) (remarked.trans remarked') ?_ draft.type type
    rw [remarked.parameters] at flow'
    simpa using ((flow.append parent.values).trans flow').append (held above)

/-- Leaving a node while a definition is read. -/
theorem leave_turn (underway : Underway (above ++ [.definition draft type modifying])) (tree : Tree) :
    Turn state above draft modifying (leave ⟨state, above ++ [.definition draft type modifying]⟩ tree) := by
  cases above with
  | nil => exact leave_definition_turn tree
  | cons scope above =>
    have flow := Scope.leave_flow state tree underway.inner
    simp only [List.cons_append, leave]
    cases outcome : scope.leave state tree with
    | error fault => exact .drop (.refl state) fault _
    | ok result =>
      rw [outcome] at flow
      obtain ⟨after, exit⟩ := result
      obtain ⟨remarks, remarked, flow⟩ := flow
      cases exit with
      | stay scope' =>
        refine .proceed (scope' :: above) remarked ?_ draft.type type
        simpa [Exit.values] using flow.append (held above)
      | close result =>
        cases result with
        | none =>
          refine .proceed above (remarked.note _) ?_ draft.type type
          simpa [Exit.values] using flow.append (held above)
        | some result =>
          cases above with
          | nil =>
            have awaits := WellFormed.awaits (.inr (.inr underway)) outcome
            exact deliver_definition_turn (remarked.note _) flow awaits tree
          | cons parent above => exact deliver_inner_turn (remarked.note _) flow underway.pop.inner tree

/-- An event while a definition is read. -/
theorem step_turn (underway : Underway (above ++ [.definition draft type modifying])) (event : Event) :
    Turn state above draft modifying (step ⟨state, above ++ [.definition draft type modifying]⟩ event) := by
  cases event with
  | enter tree => exact enter_turn underway tree
  | leave tree => exact leave_turn underway tree

end Compiler

/-! ### Where no definition is read -/

/-- The scopes where no definition is read: at most what is left of a dropped definition is passed over. -/
def Resting (stack : List Scope) : Prop := stack = [] ∨ ∃ level, stack = [.skip .definition level]

theorem Compiler.recover_rests (state : State) (fault : Fault) (atEnd : Bool) :
    Resting (recover state fault atEnd).stack := by
  cases atEnd with
  | true => exact .inl rfl
  | false => exact .inr ⟨0, rfl⟩

/-- What can change where no definition is read. -/
inductive State.Passes (state : State) : State → Prop
  | same : Passes state state
  | name (name : String) : Passes state (state.setName name)
  | note (notice : Notice) : Passes state (state.note notice)

/-- What an event does where no definition is read. -/
inductive Rest (state : State) : Compiler → Prop
  | pass {after : State} {stack : List Scope} (passes : state.Passes after) (rests : Resting stack) :
      Rest state ⟨after, stack⟩
  | start (notice : Notice) : Rest state ⟨state.clear.note notice, [] ++ [.definition {} none false]⟩

/-- An event where no definition is read. -/
theorem Compiler.step_rest {stack : List Scope} (rests : Resting stack) (state : State) (event : Event) :
    Rest state (step ⟨state, stack⟩ event) := by
  obtain rfl | ⟨level, rfl⟩ := rests
  · cases event with
    | leave tree => exact .pass .same (.inl rfl)
    | enter tree =>
      simp only [step, enter, enterRoot]
      cases tree.form with
      | module name => exact .pass (.name name) (.inl rfl)
      | definition => exact .start _
      | _ => exact .pass .same (.inl rfl)
  · cases event with
    | enter tree => exact .pass .same (.inr ⟨_, rfl⟩)
    | leave tree =>
      simp only [step]
      obtain ⟨level', stays⟩ | closes := leave_skip_cases state .definition level [] tree
      · rw [stays]
        exact .pass .same (.inr ⟨level', rfl⟩)
      · rw [closes]
        exact .pass (.note _) (.inl rfl)

/-! ### After all events -/

/-- Something holds of the state where no definition is read, and something of the state, of the scopes above the
    definition, of its draft and of whether it modifies another one, where a definition is read. -/
inductive Compiler.Holds (resting : State → Prop) (reading : State → List Scope → Draft → Bool → Prop) :
    Compiler → Prop
  | resting {state : State} {stack : List Scope} (rests : Resting stack) (holds : resting state) :
      Holds resting reading ⟨state, stack⟩
  | reading {state : State} {above : List Scope} {draft : Draft} (type : Option TypeId) {modifying : Bool}
      (holds : reading state above draft modifying) :
      Holds resting reading ⟨state, above ++ [.definition draft type modifying]⟩

/-- What every event keeps. -/
structure Kept (resting : State → Prop) (reading : State → List Scope → Draft → Bool → Prop) : Prop where
  pass {state after : State} (holds : resting state) (passes : state.Passes after) : resting after
  start {state : State} (holds : resting state) (notice : Notice) : reading (state.clear.note notice) [] {} false
  turn {state : State} {above : List Scope} {draft : Draft} {modifying : Bool} {next : Compiler}
    (holds : reading state above draft modifying) (turn : Turn state above draft modifying next) :
    next.Holds resting reading

namespace Compiler

variable {resting : State → Prop} {reading : State → List Scope → Draft → Bool → Prop}

/-- No definition is read once it is dropped. -/
theorem Holds.recover {state : State} {fault : Fault} (holds : resting (state.fail fault).clear) (atEnd : Bool) :
    (Compiler.recover state fault atEnd).Holds resting reading := .resting (recover_rests state fault atEnd) holds

/-- A stack with a definition at its bottom is one of a definition that is read. -/
theorem underway_of_definition {above : List Scope} {draft : Draft} {type : Option TypeId} {modifying : Bool}
    (wellFormed : WellFormed (above ++ [.definition draft type modifying])) :
    Underway (above ++ [.definition draft type modifying]) := by
  rcases wellFormed with empty | ⟨level, lone⟩ | underway
  · simp at empty
  · cases above <;> simp at lone
  · exact underway

theorem Holds.step (kept : Kept resting reading) {compiler : Compiler} (wellFormed : WellFormed compiler.stack)
    (holds : compiler.Holds resting reading) (event : Event) : (compiler.step event).Holds resting reading := by
  cases holds with
  | @resting state stack rests holds =>
    have rest := step_rest rests state event
    generalize Compiler.step ⟨state, stack⟩ event = next at rest ⊢
    cases rest with
    | pass passes rests => exact .resting rests (kept.pass holds passes)
    | start notice => exact .reading none (kept.start holds notice)
  | reading type holds => exact kept.turn holds (step_turn (underway_of_definition wellFormed) event)

/-- What holds at first and is kept by every event holds after all events. -/
theorem run_holds (kept : Kept resting reading) (symbols : Symbols) (start : resting { symbols })
    (events : List Event) : ((new symbols).run events).Holds resting reading := by
  have first : (new symbols).Holds resting reading := .resting (.inl rfl) start
  have sound := new_sound symbols
  generalize new symbols = compiler at first sound
  induction events generalizing compiler with
  | nil => exact first
  | cons event rest ih => exact ih _ (first.step kept sound.wellFormed event) (step_sound sound event)

end Compiler

end TtcnTemplates
