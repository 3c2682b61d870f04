import Mathlib.Data.List.Forall2
import TtcnTemplates.Proofs.Formation
import TtcnTemplates.Proofs.Stack

/-! # How templates are put together

Every scope on the stack was opened for the type of the slot that the scope below it is about to fill (`Standing`), and
every event keeps it so, in whatever order nodes are entered and left (`Compiler.Forms.run`). What a registered template
holds has therefore been put together by the rules, at one of the types that its definition has read (`TypeReads`).
-/

namespace TtcnTemplates

/-- Every scope of a stack stands on the one below it. -/
def Standing (symbols : Symbols) (given : String → Prop) (roots : List TypeId) : List Scope → Prop
  | [] => True
  | scope :: below => scope.Stands symbols given roots below.head? ∧ Standing symbols given roots below

/-- A registered template, whose definition has read the types `roots`. -/
structure Template.Forms (symbols : Symbols) (given : String → Prop) (roots : List TypeId) (template : Template) :
    Prop where
  name : given template.name
  known : ∀ type ∈ roots, symbols.Has type
  type : ∃ type, roots.getLast? = some type ∧ template.type = symbols.javaName type
  value : ∀ value, template.value = some value → ∃ type ∈ roots, value.Forms symbols given type
  parameters : ∀ parameter ∈ template.parameters, parameter.Forms symbols given
  overrides : ∀ override ∈ template.overrides, override.Amends symbols given roots

variable {symbols : Symbols} {given : String → Prop} {roots : List TypeId} {state : State}

/-! ### Definitions -/

/-- The types that a definition reads at a node. Other scopes read no type for it. -/
def Scope.reads (symbols : Symbols) (tree : Tree) : Scope → List TypeId
  | .definition .. =>
    match tree.form with
    | .type use => (symbols.lookup use).toList
    | _ => []
  | _ => []

theorem Scope.reads_of_gathers {type : TypeId} {scope : Scope} (gathers : scope.Gathers symbols given roots type)
    (tree : Tree) : scope.reads symbols tree = [] := by
  cases scope with
  | definition draft type' modifying => exact gathers.elim
  | _ => rfl

theorem Scope.has_of_mem_reads (closed : symbols.Closed) (scope : Scope) {tree : Tree} {type : TypeId}
    (member : type ∈ scope.reads symbols tree) : symbols.Has type := by
  cases scope with
  | definition draft type' modifying =>
    rw [Scope.reads] at member
    split at member
    · exact closed.lookup (Option.mem_toList.mp member)
    · cases member
  | _ => cases member

theorem Override.Amends.mono {override : Override} (amends : override.Amends symbols given roots) (more : List TypeId) :
    override.Amends symbols given (roots ++ more) := by
  obtain ⟨root, member, rest⟩ := amends
  exact ⟨root, List.mem_append_left more member, rest⟩

/-- A draft whose definition reads another type. -/
theorem Draft.Forms.read {draft : Draft} (forms : draft.Forms symbols given roots) (type : TypeId) :
    Draft.Forms symbols given (roots ++ [type]) { draft with type := some (symbols.javaName type) } := by
  refine ⟨forms.name, by simp, ?_, forms.parameters, ?_⟩
  · intro value isSome
    obtain ⟨root, member, made⟩ := forms.value value isSome
    exact ⟨root, List.mem_append_left _ member, made⟩
  · intro override member
    exact (forms.overrides override member).mono [type]

/-- The template of a draft that is put together by the rules. -/
theorem Draft.Forms.template {draft : Draft} (forms : draft.Forms symbols given roots)
    (known : ∀ type ∈ roots, symbols.Has type) {template : Template} (made : draft.template = .ok template) :
    template.Forms symbols given roots := by
  rw [Draft.template] at made
  split at made
  · cases made
  · cases made
  · rename_i name type isName isType
    cases made
    rw [forms.type] at isType
    obtain ⟨last, found, rfl⟩ := Option.map_eq_some_iff.mp isType
    exact ⟨forms.name name isName, known, ⟨last, found, rfl⟩, forms.value, forms.parameters, forms.overrides⟩

theorem Scope.enterDefinition_stands {tree : Tree} (same : state.symbols = symbols)
    (known : ∀ type ∈ roots, symbols.Has type) (gives : tree.form.Gives given) {draft : Draft} (modifying : Bool)
    (forms : draft.Forms symbols given roots) :
    let reads := (Scope.definition draft roots.getLast? modifying).reads symbols tree
    EnterForms symbols given (roots ++ reads) (Stands symbols given (roots ++ reads) none) state
      (enterDefinition state tree draft roots.getLast? modifying) := by
  subst same
  unfold enterDefinition Scope.reads
  cases form : tree.form with
  | type use =>
    simp only [State.typeOf]
    cases found : state.symbols.lookup use with
    | none => trivial
    | some type => exact .passing .type .rfl (.definition rfl (forms.read type) (by simp))
  | identifier name =>
    simp only [List.append_nil]
    rw [form] at gives
    refine .unopened ⟨rfl, rfl, rfl⟩ (.definition rfl ?_ rfl)
    refine ⟨?_, forms.type, forms.value, forms.parameters, forms.overrides⟩
    rintro _ ⟨⟩
    exact gives
  | parameterList =>
    simp only [List.append_nil]
    refine ⟨.rfl, .definition rfl forms rfl, ?_⟩
    rintro _ ⟨⟩
    exact .parameterList (by simp) (by simp)
  | base name =>
    simp only [List.append_nil, forms.type]
    rw [form] at gives
    cases last : roots.getLast? with
    | none => trivial
    | some type =>
      have member : type ∈ roots := List.mem_of_getLast? last
      dsimp only [Option.map_some]
      split
      · trivial
      · refine .passing .base .rfl (.definition rfl ?_ last.symm)
        refine ⟨forms.name, by simp [last], ?_, forms.parameters, forms.overrides⟩
        rintro _ ⟨⟩
        exact ⟨type, member, .atom (known type member) gives⟩
  | body =>
    simp only [List.append_nil]
    cases last : roots.getLast? with
    | none => trivial
    | some type =>
      have member : type ∈ roots := List.mem_of_getLast? last
      have definition : (Scope.definition draft (some type) modifying).Stands state.symbols given roots none :=
        .definition rfl forms last.symm
      cases modifying with
      | true =>
        exact .opening (state.overrideScope_keeps type .root tree) definition rfl (known type member)
          (state.overrideScope_gathers rfl member .root (known type member) tree)
      | false =>
        exact .opening (state.valueScope_keeps type tree) definition rfl (known type member)
          (state.valueScope_gathers rfl (known type member) tree)
  | _ =>
    simp only [List.append_nil]
    exact .unopened .rfl (.definition rfl forms rfl)

theorem Scope.enterParameters_stands {tree : Tree} (same : state.symbols = symbols) (closed : symbols.Closed)
    (gives : tree.form.Gives given) {parent : Option Scope} {pending : Option String} {parameters : List Parameter}
    (typed : ∀ name, pending = some name → ∃ type, symbols.Has type ∧ name = symbols.javaName type)
    (forms : ∀ parameter ∈ parameters, parameter.Forms symbols given) :
    EnterForms symbols given roots (Stands symbols given roots parent) state
      (enterParameters state tree pending parameters) := by
  subst same
  unfold enterParameters
  cases form : tree.form with
  | type use =>
    simp only [State.typeOf]
    cases found : state.symbols.lookup use with
    | none => trivial
    | some type =>
      refine .passing .type .rfl (.parameterList ?_ forms)
      rintro _ ⟨⟩
      exact ⟨type, closed.lookup found, rfl⟩
  | identifier name =>
    cases pending with
    | none => trivial
    | some typeName =>
      rw [form] at gives
      refine .unopened .rfl (.parameterList (by simp) ?_)
      intro parameter member
      rcases List.mem_append.mp member with earlier | last
      · exact forms parameter earlier
      · rw [List.mem_singleton.mp last]
        exact ⟨gives, typed typeName rfl⟩
  | _ => exact .unopened .rfl (.parameterList typed forms)

/-- Entering a node keeps a scope on its parent, and what it opens stands on it. -/
theorem Scope.enter_stands {tree : Tree} (same : state.symbols = symbols) (closed : symbols.Closed)
    (parameters : ∀ parameter ∈ state.parameters, given parameter.name) (known : ∀ type ∈ roots, symbols.Has type)
    (gives : tree.form.Gives given) {parent : Option Scope} {scope : Scope}
    (stands : scope.Stands symbols given roots parent) :
    let reads := scope.reads symbols tree
    EnterForms symbols given (roots ++ reads) (Stands symbols given (roots ++ reads) parent) state
      (scope.enter state tree) := by
  cases stands with
  | definition bottom forms last =>
    subst bottom last
    exact enterDefinition_stands same known gives _ forms
  | parameterList typed forms =>
    simp only [Scope.reads, List.append_nil]
    exact enterParameters_stands same closed gives typed forms
  | skip =>
    simp only [Scope.reads, List.append_nil]
    exact .unopened .rfl .skip
  | @body _ type target isKnown gathers =>
    have entered : EnterForms symbols given roots (Gathers symbols given roots type) state (scope.enter state tree) :=
      enter_forms same closed parameters isKnown gathers
    simp only [reads_of_gathers gathers, List.append_nil]
    cases outcome : scope.enter state tree with
    | error fault => trivial
    | ok entry =>
      rw [outcome] at entered
      exact ⟨entered.1, .body target isKnown entered.2.1, entered.2.2⟩

/-! ### Events -/

/-- The types that definitions have read: the one that is being read, and each of those whose templates are
    registered. -/
structure TypeReads where
  current : List TypeId := []
  registered : List (List TypeId) := []

/-- What an event adds to the types that definitions have read. A definition begins where no scope is open. -/
def TypeReads.step (compiler : Compiler) (event : Event) (reads : TypeReads) : TypeReads where
  current :=
    match compiler.stack, event with
    | [], _ => []
    | scope :: _, .enter tree => reads.current ++ scope.reads compiler.state.symbols tree
    | _, .leave _ => reads.current
  registered :=
    reads.registered ++ ((compiler.step event).state.registry.templates.drop
      compiler.state.registry.templates.length).map fun _ => reads.current

/-- The types that definitions have read after events, from the given compiler on. -/
def Compiler.typeReads (compiler : Compiler) (reads : TypeReads) : List Event → TypeReads
  | [] => reads
  | event :: rest => (compiler.step event).typeReads (reads.step compiler event) rest

/-- A compiler in which everything is put together by the rules. -/
structure Compiler.Forms (symbols : Symbols) (given : String → Prop) (reads : TypeReads) (compiler : Compiler) :
    Prop where
  same : compiler.state.symbols = symbols
  parameters : ∀ parameter ∈ compiler.state.parameters, given parameter.name
  templates : List.Forall₂ (Template.Forms symbols given) reads.registered compiler.state.registry.templates
  known : ∀ type ∈ reads.current, symbols.Has type
  standing : Standing symbols given reads.current compiler.stack

/-- The part of `Compiler.Forms` that concerns the scopes, after an event that registers no template. -/
structure Compiler.Goes (symbols : Symbols) (given : String → Prop) (roots : List TypeId) (before : State)
    (after : Compiler) : Prop where
  same : after.state.symbols = before.symbols
  parameters : ∀ parameter ∈ after.state.parameters, given parameter.name
  templates : after.state.registry.templates = before.registry.templates
  standing : Standing symbols given roots after.stack

namespace Compiler

theorem recover_goes (state : State) (fault : Fault) (atEnd : Bool) :
    Goes symbols given roots state (recover state fault atEnd) := by
  refine ⟨rfl, nofun, rfl, ?_⟩
  cases atEnd with
  | true => trivial
  | false => exact ⟨.skip, trivial⟩

theorem goes_of_keeps {after : State} {stack : List Scope} (keeps : state.Keeps after)
    (parameters : ∀ parameter ∈ state.parameters, given parameter.name)
    (standing : Standing symbols given roots stack) : Goes symbols given roots state ⟨after, stack⟩ :=
  ⟨keeps.symbols, keeps.parameters ▸ parameters, keeps.templates, standing⟩

/-- Only the definition at the bottom reads types. -/
theorem standing_reads {scope : Scope} {below : List Scope} (standing : Standing symbols given roots (scope :: below))
    (tree : Tree) : Standing symbols given (roots ++ scope.reads symbols tree) below := by
  obtain ⟨stands, rest⟩ := standing
  cases stands with
  | definition bottom forms last =>
    cases below with
    | nil => trivial
    | cons parent below => cases bottom
  | parameterList typed forms => simpa [Scope.reads] using rest
  | skip => simpa [Scope.reads] using rest
  | body target known gathers => simpa [Scope.reads_of_gathers gathers] using rest

theorem enter_goes {tree : Tree} {scope : Scope} {below : List Scope} (same : state.symbols = symbols)
    (closed : symbols.Closed) (parameters : ∀ parameter ∈ state.parameters, given parameter.name)
    (known : ∀ type ∈ roots, symbols.Has type) (gives : tree.form.Gives given)
    (standing : Standing symbols given roots (scope :: below)) :
    Goes symbols given (roots ++ scope.reads symbols tree) state (enter ⟨state, scope :: below⟩ tree) := by
  have rest := standing_reads standing tree
  have entered := Scope.enter_stands same closed parameters known gives standing.1
  simp only [enter]
  generalize scope.enter state tree = outcome at entered
  cases outcome with
  | error fault => exact recover_goes state fault false
  | ok entry =>
    obtain ⟨after, scope', opened⟩ := entry
    obtain ⟨keeps, stands, opens⟩ := entered
    cases opened with
    | none => exact goes_of_keeps keeps parameters ⟨stands, rest⟩
    | some opened =>
      exact goes_of_keeps ⟨keeps.symbols, keeps.parameters, keeps.templates⟩ parameters
        ⟨opens opened rfl, stands, rest⟩

/-- What a definition takes goes into its draft. -/
theorem accept_definition_goes {draft : Draft} {slot : TypeId} {result : Yield} {tree : Tree} (modifying : Bool)
    (parameters : ∀ parameter ∈ state.parameters, given parameter.name) (last : roots.getLast? = some slot)
    (draftForms : draft.Forms symbols given roots) (forms : result.Forms symbols given roots slot) :
    Goes symbols given roots state
      (deliver state tree result [.definition draft roots.getLast? modifying]) := by
  have member : slot ∈ roots := List.mem_of_getLast? last
  obtain ⟨name, type, value, formal, overrides⟩ := draftForms
  cases result with
  | value result =>
    cases modifying with
    | true =>
      refine ⟨rfl, parameters, rfl, .definition rfl ⟨name, type, value, formal, ?_⟩ rfl, trivial⟩
      intro override among
      rcases List.mem_append.mp among with earlier | new
      · exact overrides override earlier
      · rw [List.mem_singleton.mp new]
        exact ⟨slot, member, slot, .root, forms⟩
    | false =>
      refine ⟨rfl, parameters, rfl, .definition rfl ⟨name, type, ?_, formal, overrides⟩ rfl, trivial⟩
      rintro _ ⟨⟩
      exact ⟨slot, member, forms⟩
  | overrides changes =>
    refine ⟨rfl, parameters, rfl, .definition rfl ⟨name, type, value, formal, ?_⟩ rfl, trivial⟩
    intro override among
    rcases List.mem_append.mp among with earlier | later
    · exact overrides override earlier
    · exact forms override later
  | parameters list => exact forms.elim
  | template template => exact forms.elim

/-- What a scope of a body yields is taken by the slot for which the scope was opened. -/
theorem deliver_goes {tree : Tree} {below : List Scope} {slot : TypeId} {result : Yield}
    (parameters : ∀ parameter ∈ state.parameters, given parameter.name)
    (standing : Standing symbols given roots below) (target : below.head?.bind Scope.target = some slot)
    (forms : result.Forms symbols given roots slot) :
    Goes symbols given roots state (deliver state tree result below) := by
  cases below with
  | nil => cases target
  | cons parent below =>
    change parent.target = some slot at target
    obtain ⟨stands, rest⟩ := standing
    cases stands with
    | definition bottom draftForms last =>
      subst last
      cases below with
      | nil => exact accept_definition_goes _ parameters target draftForms forms
      | cons lower below => cases bottom
    | parameterList typed formal => cases target
    | skip => cases target
    | @body _ type outer known gathers =>
      have accepted : Scope.AcceptForms symbols given roots type state (parent.accept state result) :=
        Scope.accept_forms forms target gathers
      simp only [deliver]
      generalize parent.accept state result = outcome at accepted
      cases outcome with
      | error fault => exact recover_goes state fault _
      | ok accepting => exact goes_of_keeps accepted.1 parameters ⟨.body outer known accepted.2, rest⟩

/-- A list of formal parameters goes to the definition, which is the only scope that takes one. -/
theorem deliver_parameters_goes {tree : Tree} {below : List Scope} {list : List Parameter}
    (forms : ∀ parameter ∈ list, parameter.Forms symbols given) (standing : Standing symbols given roots below) :
    Goes symbols given roots state (deliver state tree (.parameters list) below) := by
  cases below with
  | nil => exact recover_goes state _ true
  | cons parent below =>
    obtain ⟨stands, rest⟩ := standing
    cases parent with
    | definition draft type modifying =>
      cases stands with
      | definition bottom draftForms last =>
        obtain ⟨name, isType, value, -, overrides⟩ := draftForms
        refine ⟨rfl, ?_, rfl, .definition bottom ⟨name, isType, value, forms, overrides⟩ last, rest⟩
        intro parameter member
        exact (forms parameter member).1
      | body target known gathers => exact gathers.elim
    | overrideList name path fields pending overrides =>
      cases pending <;> exact recover_goes state _ _
    | named name slots pending => cases pending <;> exact recover_goes state _ _
    | positional name slots next current listed => cases current <;> exact recover_goes state _ _
    | _ => exact recover_goes state _ _

/-- The compiler after the template of a definition has been registered. -/
structure Registers (symbols : Symbols) (given : String → Prop) (roots : List TypeId) (before : State)
    (after : Compiler) : Prop where
  same : after.state.symbols = before.symbols
  parameters : after.state.parameters = []
  stack : after.stack = []
  template : ∃ template, Template.Forms symbols given roots template ∧
    after.state.registry.templates = before.registry.templates ++ [template]

theorem leave_definition_goes {tree : Tree} {draft : Draft} (modifying : Bool)
    (parameters : ∀ parameter ∈ state.parameters, given parameter.name)
    (known : ∀ type ∈ roots, symbols.Has type) (forms : draft.Forms symbols given roots) :
    Goes symbols given roots state (leave ⟨state, [.definition draft roots.getLast? modifying]⟩ tree) ∨
      Registers symbols given roots state (leave ⟨state, [.definition draft roots.getLast? modifying]⟩ tree) := by
  cases ends : tree.is .definition with
  | false =>
    simp only [leave, Scope.leave, ends]
    exact .inl ⟨rfl, parameters, rfl, .definition rfl forms rfl, trivial⟩
  | true =>
    cases made : draft.template with
    | error fault =>
      simp only [leave, Scope.leave, ends, made, if_true, Except.map]
      exact .inl (recover_goes state fault true)
    | ok template =>
      simp only [leave, Scope.leave, ends, made, if_true, Except.map]
      exact .inr ⟨rfl, rfl, rfl, template, forms.template known made, rfl⟩

/-- Leaving a node keeps the scopes on each other, or the template of the definition is registered. -/
theorem leave_goes {tree : Tree} {scope : Scope} {below : List Scope} (same : state.symbols = symbols)
    (parameters : ∀ parameter ∈ state.parameters, given parameter.name)
    (known : ∀ type ∈ roots, symbols.Has type) (standing : Standing symbols given roots (scope :: below)) :
    Goes symbols given roots state (leave ⟨state, scope :: below⟩ tree) ∨
      Registers symbols given roots state (leave ⟨state, scope :: below⟩ tree) := by
  obtain ⟨stands, rest⟩ := standing
  cases stands with
  | definition bottom forms last =>
    subst last
    cases below with
    | nil => exact leave_definition_goes _ parameters known forms
    | cons parent below => cases bottom
  | @parameterList pending list typed forms =>
    refine .inl ?_
    cases ends : tree.is .parameterList with
    | false =>
      simp only [leave, Scope.leave, ends]
      exact goes_of_keeps .rfl parameters ⟨.parameterList typed forms, rest⟩
    | true =>
      simp only [leave, Scope.leave, ends, if_true]
      obtain ⟨symbols', parameters', templates, standing⟩ := deliver_parameters_goes forms rest
      exact ⟨symbols', parameters', templates, standing⟩
  | @skip tag level =>
    refine .inl ?_
    obtain ⟨level', stays⟩ | closes := leave_skip_cases state tag level below tree
    · rw [stays]
      exact goes_of_keeps .rfl parameters ⟨.skip, rest⟩
    · rw [closes]
      exact goes_of_keeps ⟨rfl, rfl, rfl⟩ parameters rest
  | @body _ type target isKnown gathers =>
    refine .inl ?_
    have left : Scope.LeaveForms symbols given roots type state (scope.leave state tree) :=
      Scope.leave_forms same isKnown gathers
    simp only [leave]
    generalize scope.leave state tree = outcome at left
    cases outcome with
    | error fault => exact recover_goes state fault _
    | ok result =>
      obtain ⟨after, exit⟩ := result
      cases exit with
      | stay scope' => exact goes_of_keeps left.1 parameters ⟨.body target isKnown left.2, rest⟩
      | close result =>
        obtain ⟨keeps, yielded, rfl, forms⟩ := left
        have parameters' : ∀ parameter ∈ after.parameters, given parameter.name := keeps.parameters ▸ parameters
        have delivered : Goes symbols given roots (after.note (.left scope.label)) (deliver _ tree yielded below) :=
          deliver_goes parameters' rest target forms
        obtain ⟨symbols', kept, templates, standing⟩ := delivered
        exact ⟨symbols'.trans keeps.symbols, kept, templates.trans keeps.templates, standing⟩

/-- An event that registers no template leaves the types of the registered ones. -/
theorem Forms.of_goes {compiler : Compiler} {reads : TypeReads} {event : Event}
    (forms : compiler.Forms symbols given reads)
    (known : ∀ type ∈ (reads.step compiler event).current, symbols.Has type)
    (goes : Goes symbols given (reads.step compiler event).current compiler.state (compiler.step event)) :
    (compiler.step event).Forms symbols given (reads.step compiler event) := by
  refine ⟨goes.same.trans forms.same, goes.parameters, ?_, known, goes.standing⟩
  simp only [TypeReads.step, goes.templates, List.drop_length, List.map_nil, List.append_nil]
  exact forms.templates

/-- An event that registers a template adds the types that its definition has read. -/
theorem Forms.of_registers {compiler : Compiler} {reads : TypeReads} {event : Event}
    (forms : compiler.Forms symbols given reads)
    (known : ∀ type ∈ (reads.step compiler event).current, symbols.Has type)
    (registers : Registers symbols given reads.current compiler.state (compiler.step event)) :
    (compiler.step event).Forms symbols given (reads.step compiler event) := by
  obtain ⟨same, none, empty, template, formed, added⟩ := registers
  refine ⟨same.trans forms.same, ?_, ?_, known, ?_⟩
  · rw [none]
    exact nofun
  · simp only [TypeReads.step, added, List.drop_left, List.map_cons, List.map_nil]
    exact List.rel_append forms.templates (.cons formed .nil)
  · rw [empty]
    trivial

theorem enterRoot_goes (parameters : ∀ parameter ∈ state.parameters, given parameter.name) (tree : Tree) :
    Goes symbols given [] state (enterRoot state tree) := by
  unfold enterRoot
  cases tree.form with
  | module name => exact ⟨rfl, parameters, rfl, trivial⟩
  | definition =>
    refine ⟨rfl, nofun, rfl, .definition rfl ?_ rfl, trivial⟩
    exact ⟨nofun, rfl, nofun, nofun, nofun⟩
  | _ => exact ⟨rfl, parameters, rfl, trivial⟩

/-- Every event keeps what is put together by the rules. -/
theorem Forms.step (closed : symbols.Closed) {compiler : Compiler} {reads : TypeReads}
    (forms : compiler.Forms symbols given reads) {event : Event} (gives : event.tree.form.Gives given) :
    (compiler.step event).Forms symbols given (reads.step compiler event) := by
  obtain ⟨state, stack⟩ := compiler
  obtain ⟨same, parameters, -, known, standing⟩ := id forms
  cases stack with
  | nil =>
    refine forms.of_goes nofun ?_
    cases event with
    | enter tree => exact enterRoot_goes parameters tree
    | leave tree => exact ⟨rfl, parameters, rfl, trivial⟩
  | cons scope below =>
    cases event with
    | enter tree =>
      subst same
      refine forms.of_goes ?_ (enter_goes rfl closed parameters known gives standing)
      intro type member
      rcases List.mem_append.mp member with earlier | read
      · exact known type earlier
      · exact scope.has_of_mem_reads closed read
    | leave tree =>
      rcases leave_goes same parameters known standing with goes | registers
      · exact forms.of_goes known goes
      · exact forms.of_registers known registers

/-- So does every run. -/
theorem Forms.run (closed : symbols.Closed) {compiler : Compiler} {reads : TypeReads}
    (forms : compiler.Forms symbols given reads) {events : List Event}
    (gives : ∀ event ∈ events, event.tree.form.Gives given) :
    (compiler.run events).Forms symbols given (compiler.typeReads reads events) := by
  induction events generalizing compiler reads with
  | nil => exact forms
  | cons event rest ih =>
    obtain ⟨here, later⟩ := List.forall_mem_cons.mp gives
    exact ih (forms.step closed here) later

/-- The types that the definition of a registered template has read. -/
theorem Forms.exists_reads {compiler : Compiler} {reads : TypeReads} (forms : compiler.Forms symbols given reads)
    {index : Nat} {template : Template} (there : compiler.state.registry.templates[index]? = some template) :
    ∃ roots, reads.registered[index]? = some roots ∧ template.Forms symbols given roots := by
  obtain ⟨bound, rfl⟩ := List.getElem?_eq_some_iff.mp there
  have bound' : index < reads.registered.length := forms.templates.length_eq ▸ bound
  exact ⟨reads.registered[index], List.getElem?_eq_getElem bound', forms.templates.get bound' bound⟩

theorem new_forms (symbols : Symbols) (given : String → Prop) : (new symbols).Forms symbols given {} :=
  ⟨rfl, nofun, .nil, nofun, trivial⟩

end Compiler

end TtcnTemplates
