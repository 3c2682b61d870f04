import TtcnTemplates.Proofs.Derivation
import TtcnTemplates.Proofs.Modules
import TtcnTemplates.Proofs.Placeholders

/-! # What is shared belongs to the definition that is read

The formal parameters and the name of the definition that is read are kept twice: in its draft, and in the state that
all scopes share. They are changed in both together, and when the definition is dropped or registered the parameters go.
So a reference is only taken for a parameter of the definition that it stands in, and what is reported names that
definition.
-/

namespace TtcnTemplates

/-! ### The definition that is read -/

namespace Compiler

/-- The draft of the definition that is read, at the bottom of the stack. -/
def definition? (compiler : Compiler) : Option Draft :=
  match compiler.stack.getLast? with
  | some (.definition draft _ _) => some draft
  | _ => none

@[simp] theorem definition?_reading (state : State) (above : List Scope) (draft : Draft) (type : Option TypeId)
    (modifying : Bool) : definition? ⟨state, above ++ [.definition draft type modifying]⟩ = some draft := by
  simp [definition?]

theorem definition?_resting (state : State) {stack : List Scope} (rests : Resting stack) :
    definition? ⟨state, stack⟩ = none := by
  obtain rfl | ⟨level, rfl⟩ := rests <;> rfl

end Compiler

/-- The state has the formal parameters and the name of a draft. -/
structure State.Describes (state : State) (draft : Draft) : Prop where
  parameters : state.parameters = draft.parameters
  current : state.current = draft.name

/-- Remarks change neither, and a draft may get its other parts. -/
theorem State.Describes.of_remarked {state after : State} {remarks : List Remark} {draft other : Draft}
    (describes : state.Describes draft) (remarked : state.Remarked remarks after)
    (parameters : other.parameters = draft.parameters) (name : other.name = draft.name) : after.Describes other := by
  refine ⟨?_, ?_⟩
  · rw [remarked.parameters, describes.parameters, parameters]
  · rw [remarked.current, describes.current, name]

theorem describes_kept : Kept (fun state => state.parameters = []) (fun state _ draft _ => state.Describes draft) where
  pass holds passes := by cases passes <;> exact holds
  start _ _ := ⟨rfl, rfl⟩
  turn {state above draft modifying next} describes turn := by
    cases turn with
    | @drop after remarks remarked fault atEnd =>
      have cleared : (after.fail fault).clear.parameters = [] := rfl
      exact .recover cleared atEnd
    | proceed above' remarked flow name type => exact .reading type (describes.of_remarked remarked rfl rfl)
    | name name type alone => exact .reading type ⟨describes.parameters, rfl⟩
    | base base type id remarked known alone => exact .reading id (describes.of_remarked remarked rfl rfl)
    | parameters parameters type remarked => exact .reading type ⟨rfl, remarked.current.trans describes.current⟩
    | value type plain remarked flow => exact .reading type (describes.of_remarked remarked rfl rfl)
    | overrides type modifies remarked flow => exact .reading type (describes.of_remarked remarked rfl rfl)
    | register made remarked alone => exact .resting (.inl rfl) remarked.parameters

/-- What is known of a compiler by the definition that it reads. -/
theorem Compiler.run_describes (symbols : Symbols) (events : List Event) :
    (∃ draft, ((new symbols).run events).definition? = some draft ∧ ((new symbols).run events).state.Describes draft) ∨
      (((new symbols).run events).definition? = none ∧ Resting ((new symbols).run events).stack ∧
        ((new symbols).run events).state.parameters = []) := by
  have holds := run_holds describes_kept symbols rfl events
  generalize (new symbols).run events = compiler at holds ⊢
  cases holds with
  | resting rests holds => exact .inr ⟨definition?_resting _ rests, rests, holds⟩
  | reading type holds => exact .inl ⟨_, definition?_reading .., holds⟩

/-- Where no definition is read, an event reports nothing and shows no formal parameter. -/
theorem Rest.silent {state : State} {next : Compiler} (rest : Rest state next) (none : state.parameters = []) :
    next.state.parameters = [] ∧ next.state.registry.diagnostics = state.registry.diagnostics := by
  cases rest with
  | pass passes rests => cases passes <;> exact ⟨none, rfl⟩
  | start notice => exact ⟨rfl, rfl⟩

/-! ### Parameters -/

/-- A node is only read as a formal parameter that the state shows. -/
theorem State.exists_parameter {state : State} {type : TypeId} {form : Form} {value : Expr} {name : String}
    (read : state.specific type form = .ok value) (mentioned : .parameter name ∈ value.atoms) :
    ∃ parameter ∈ state.parameters, parameter.name = name := by
  have made (holds : form.tag = .literal ∨ form.tag = .reference) :
      ∃ parameter ∈ state.parameters, parameter.name = name := by
    obtain ⟨leaf, rfl, made, -⟩ := State.specific_made read holds
    cases List.mem_singleton.mp mentioned
    exact made
  cases form with
  | literal text => exact made (.inl rfl)
  | reference text => exact made (.inr rfl)
  | _ =>
    cases read
    cases List.mem_singleton.mp mentioned

/-- An event adds a reference to a parameter only where the state shows a formal parameter of that name. -/
theorem Compiler.Makes.exists_parameter {before after : Compiler} (makes : before.Makes after) {name : String}
    (more : Expr.tally (· == .parameter name) before.values < Expr.tally (· == .parameter name) after.values) :
    ∃ parameter ∈ before.state.parameters, parameter.name = name := by
  obtain ⟨remarks, -, bounded⟩ := makes
  by_contra absent
  have unmade : ∀ leaf : Atom, leaf.MadeWith before.state.parameters → (leaf == .parameter name) = false := by
    intro leaf made
    rw [beq_eq_false_iff_ne]
    rintro rfl
    exact absent made
  have fewer := bounded (· == .parameter name) 0 (fun flow => flow.kept _ unmade) fun _ => rfl
  omega

/-! ### Diagnostics -/

/-- What the translation of a definition reports. -/
theorem Definition.translate_diagnostics (definition : Definition) (symbols : Symbols) (registry : Registry) :
    ∃ added, (definition.translate symbols registry).diagnostics = registry.diagnostics ++ added ∧
      match symbols.lookup definition.type with
      | none => added = [⟨none, .fault (.unknownType definition.type.name)⟩]
      | some _ => ∀ diagnostic ∈ added, diagnostic.template = some definition.name := by
  rw [Definition.translate]
  cases symbols.lookup definition.type with
  | none => exact ⟨_, rfl, rfl⟩
  | some type =>
    dsimp only
    generalize definition.template symbols registry.templates type = reading
    obtain ⟨remarks, result⟩ := reading
    cases result with
    | ok template =>
      refine ⟨_, rfl, ?_⟩
      simp
    | error fault =>
      refine ⟨_, List.append_assoc _ _ _, ?_⟩
      intro diagnostic member
      rcases List.mem_append.mp member with remark | fault
      · obtain ⟨remark, -, rfl⟩ := List.mem_map.mp remark
        rfl
      · cases List.mem_singleton.mp fault
        rfl

/-- What is reported while a definition is walked where no other one is read. -/
theorem Compiler.walk_reports (definition : Definition) {compiler : Compiler} (rests : Resting compiler.stack)
    (distinct : compiler.state.symbols.Distinct) (indexed : compiler.state.registry.Indexed) :
    ∃ added, (compiler.walk definition.tree).state.registry.diagnostics =
        compiler.state.registry.diagnostics ++ added ∧
      match compiler.state.symbols.lookup definition.type with
      | none => ∀ diagnostic ∈ added, diagnostic = ⟨none, .fault (.unknownType definition.type.name)⟩
      | some _ => ∀ diagnostic ∈ added, diagnostic.template = some definition.name := by
  obtain ⟨state, stack⟩ := compiler
  obtain rfl | ⟨level, rfl⟩ := rests
  · obtain ⟨added, same, named⟩ := definition.translate_diagnostics state.symbols state.registry
    obtain ⟨-, -, registry⟩ := walk_translates definition state distinct indexed
    refine ⟨added, by rw [registry, same], ?_⟩
    cases found : state.symbols.lookup definition.type with
    | none =>
      simp only [found] at named
      simp [named]
    | some type =>
      simp only [found] at named
      exact named
  · refine ⟨[], ?_, ?_⟩
    · rw [(Counter.skip .definition).walk, List.append_nil]
    · split <;> simp

/-- The shared state describes the definition that is read. After all events, however nodes are entered and left: where
    a definition is read, its formal parameters and its name are the shared ones, and where none is read, there are no
    shared parameters, the next event shares none, and it reports nothing. A node is only read as a parameter of the
    definition that is read, and an event adds no other to the values. What is reported while a definition is walked
    names it, apart from a type of its own that is not known, which is reported before the definition has its name. -/
theorem context_describes_definition (order : List Builtin) (declarations : Declarations) (symbols : Symbols)
    (resolved : declarations.resolveIn order = .ok symbols) (events : List Event) :
    let compiler := (Compiler.new symbols).run events
    (match compiler.definition? with
      | some draft => compiler.state.parameters = draft.parameters ∧ compiler.state.current = draft.name
      | none => compiler.state.parameters = [] ∧ ∀ event, (compiler.step event).state.parameters = [] ∧
          (compiler.step event).state.registry.diagnostics = compiler.state.registry.diagnostics) ∧
    (∀ type form value name, compiler.state.specific type form = .ok value → .parameter name ∈ value.atoms →
      ∃ draft, compiler.definition? = some draft ∧ ∃ parameter ∈ draft.parameters, parameter.name = name) ∧
    (∀ event name, Expr.tally (· == .parameter name) compiler.values <
        Expr.tally (· == .parameter name) (compiler.step event).values →
      ∃ draft, compiler.definition? = some draft ∧ ∃ parameter ∈ draft.parameters, parameter.name = name) ∧
    (compiler.definition? = none → ∀ definition : Definition, ∃ added,
      (compiler.walk definition.tree).state.registry.diagnostics = compiler.state.registry.diagnostics ++ added ∧
        match symbols.lookup definition.type with
        | none => ∀ diagnostic ∈ added, diagnostic = ⟨none, .fault (.unknownType definition.type.name)⟩
        | some _ => ∀ diagnostic ∈ added, diagnostic.template = some definition.name) := by
  intro compiler
  have makes := Compiler.step_makes (Compiler.run_sound (Compiler.new_sound symbols) events).wellFormed
  have indexed := (run_founded symbols events).indexed
  have same : compiler.state.symbols = symbols := Compiler.run_symbols _ events
  rcases Compiler.run_describes symbols events with ⟨draft, reads, describes⟩ | ⟨reads, rests, empty⟩
  · have read : compiler.definition? = some draft := reads
    have own {name : String} (shown : ∃ parameter ∈ compiler.state.parameters, parameter.name = name) :
        ∃ draft', some draft = some draft' ∧ ∃ parameter ∈ draft'.parameters, parameter.name = name :=
      ⟨draft, rfl, describes.parameters ▸ shown⟩
    rw [read]
    refine ⟨⟨describes.parameters, describes.current⟩, ?_, ?_, by simp⟩
    · intro type form value name given mentioned
      exact own (State.exists_parameter given mentioned)
    · intro event name more
      exact own ((makes event).exists_parameter more)
  · have read : compiler.definition? = none := reads
    have unshown {name : String} : ¬∃ parameter ∈ compiler.state.parameters, parameter.name = name := by
      rw [show compiler.state.parameters = [] from empty]
      simp
    rw [read]
    refine ⟨⟨empty, fun event => (Compiler.step_rest rests _ event).silent empty⟩, ?_, ?_, ?_⟩
    · intro type form value name given mentioned
      exact absurd (State.exists_parameter given mentioned) unshown
    · intro event name more
      exact absurd ((makes event).exists_parameter more) unshown
    · intro _ definition
      have reports := Compiler.walk_reports definition rests ?_ indexed
      · rw [same] at reports
        exact reports
      · rw [same]
        exact Declarations.resolveIn_distinct resolved

/-- A parameter of one definition is not one of the next, which fails where it refers to it and is named by the fault.
    In between no definition is read. A definition of a type that is not known is reported without a name. -/
theorem context_describes_definition_next :
    let declarations : Declarations := { types := [⟨"R", .record [⟨"a", .builtin "integer"⟩]⟩] }
    let symbols : Symbols :=
      { entries := [Builtin.integer.entry, ⟨"R", "R", some (.record [⟨"a", ⟨0⟩⟩])⟩]
        builtins := [("integer", ⟨0⟩)]
        declared := [("R", ⟨1⟩)]
        constants := [] }
    let first : Definition :=
      ⟨.declared "R", "first", [(.builtin "integer", "p")], none, .fields [("a", .reference "p")]⟩
    let second : Definition := ⟨.declared "R", "second", [], none, .fields [("a", .reference "p")]⟩
    let third : Definition := ⟨.declared "S", "third", [], none, .any⟩
    let compiler := (Compiler.new symbols).run first.tree.events
    declarations.resolveIn [.integer] = .ok symbols ∧ compiler.definition? = none ∧ compiler.state.parameters = [] ∧
      (∃ added, (compiler.walk second.tree).state.registry.diagnostics =
          compiler.state.registry.diagnostics ++ added ∧ ∀ diagnostic ∈ added, diagnostic.template = some "second") ∧
      (compiler.walk second.tree).state.registry.diagnostics = [⟨some "second", .fault (.unresolvedReference "p")⟩] ∧
      (compiler.walk third.tree).state.registry.diagnostics = [⟨none, .fault (.unknownType "S")⟩] := by
  intro declarations symbols first second third compiler
  have resolved : declarations.resolveIn [.integer] = .ok symbols := by rfl
  have found : symbols.lookup second.type = some ⟨1⟩ := by decide +kernel
  have ended : compiler.definition?.isNone = true := by decide +kernel
  have failed : (compiler.walk second.tree).state.registry.diagnostics =
      [⟨some "second", .fault (.unresolvedReference "p")⟩] := by decide +kernel
  have unknown : (compiler.walk third.tree).state.registry.diagnostics = [⟨none, .fault (.unknownType "S")⟩] := by
    decide +kernel
  have general := context_describes_definition [.integer] declarations symbols resolved first.tree.events
  -- What has been evaluated is all that is known of the compiler from here on.
  unfold compiler at ended failed unknown ⊢
  generalize (Compiler.new symbols).run first.tree.events = reached at general ended failed unknown ⊢
  rw [Option.isNone_iff_eq_none] at ended
  obtain ⟨describes, -, -, walked⟩ := general
  have reports := walked ended second
  rw [ended] at describes
  rw [found] at reports
  exact ⟨resolved, ended, describes.1, reports, failed, unknown⟩

end TtcnTemplates
