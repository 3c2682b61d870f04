import TtcnTemplates.Proofs.Turns

/-! # Templates that are derived from others

A definition may modify another template, its base. The base is looked up when the clause that names it is entered, long
before the template is registered, but no template is registered in between. So the base of a registered template stands
before it in the registry, and following the bases from template to template comes to an end.
-/

namespace TtcnTemplates

/-! ### The registry -/

namespace Registry.Indexed

variable {registry : Registry}

/-- The latest template of a name is the one that none of the same name comes after. -/
theorem find?_eq_some_iff (indexed : registry.Indexed) (name : String) (template : Template) :
    registry.find? name = some template ↔ ∃ before after, registry.templates = before ++ template :: after ∧
      template.name = name ∧ ∀ later ∈ after, later.name ≠ name := by
  rw [indexed.find?_eq, List.find?_eq_some_iff_append]
  constructor
  · rintro ⟨named, after, before, split, none⟩
    refine ⟨before.reverse, after.reverse, ?_, eq_of_beq named, ?_⟩
    · simpa using congrArg List.reverse split
    · simpa using none
  · rintro ⟨before, after, split, rfl, none⟩
    refine ⟨beq_self_eq_true _, after.reverse, before.reverse, ?_, ?_⟩
    · simp [split]
    · simpa using none

theorem find?_eq_none_iff (indexed : registry.Indexed) (name : String) :
    registry.find? name = none ↔ ∀ template ∈ registry.templates, template.name ≠ name := by
  rw [indexed.find?_eq, List.find?_eq_none]
  simp

theorem exists_of_isSome (indexed : registry.Indexed) {name : String} (known : (registry.find? name).isSome = true) :
    ∃ template ∈ registry.templates, template.name = name := by
  obtain ⟨template, found⟩ := Option.isSome_iff_exists.mp known
  obtain ⟨before, after, split, named, -⟩ := (indexed.find?_eq_some_iff name template).mp found
  exact ⟨template, by simp [split], named⟩

end Registry.Indexed

/-- Templates and diagnostics are only ever added. -/
def Registry.Extends (before after : Registry) : Prop :=
  before.templates <+: after.templates ∧ before.diagnostics <+: after.diagnostics

theorem Compiler.step_extends (compiler : Compiler) (event : Event) :
    compiler.state.registry.Extends (compiler.step event).state.registry := by
  obtain ⟨state, stack⟩ := compiler
  obtain ⟨effect, same, -⟩ := step_effect (State.Agree.refl _ state) stack event (List.Subset.refl _)
  rw [same]
  have reported (updates : List Update) :
      state.registry.diagnostics <+: (state.applyAll updates).registry.diagnostics := by
    rw [State.applyAll_diagnostics]
    exact List.prefix_append _ _
  cases effect with
  | proceed updates stack => exact ⟨by simp [Effect.run], reported updates⟩
  | drop updates fault atEnd =>
    refine ⟨?_, (reported updates).trans (List.prefix_append _ _)⟩
    simp [Effect.run, recover, State.fail, State.clear, State.note, Registry.report]
  | register updates template =>
    refine ⟨?_, reported updates⟩
    simp [Effect.run, State.register, Registry.add]

theorem Compiler.run_extends (compiler : Compiler) (events : List Event) :
    compiler.state.registry.Extends (compiler.run events).state.registry := by
  induction events generalizing compiler with
  | nil => exact ⟨List.prefix_refl _, List.prefix_refl _⟩
  | cons event rest ih =>
    have first := compiler.step_extends event
    have later := ih (compiler.step event)
    exact ⟨first.1.trans later.1, first.2.trans later.2⟩

/-! ### Bases -/

/-- Whether an atom refers to the base. -/
def Atom.isBaseCall : Atom → Bool
  | .baseCall _ => true
  | _ => false

/-- What becomes of values on their way adds no reference to a base. -/
theorem Flow.no_baseCall {parameters : List Parameter} {remarks : List Remark} {before after : List Expr}
    (flow : Flow parameters remarks before after) (none : Expr.tally Atom.isBaseCall before = 0) :
    Expr.tally Atom.isBaseCall after = 0 := by
  have kept := flow.kept Atom.isBaseCall
  rw [none] at kept
  refine Nat.le_zero.mp (kept ?_)
  intro leaf made
  cases leaf with
  | baseCall base => exact made.elim
  | _ => rfl

/-- A template whose base, if it has one, is among the earlier templates. Only the whole value refers to the base, and
    only where it does are there overrides. -/
structure Template.Derives (earlier : List Template) (template : Template) : Prop where
  whole : ∀ value, template.value = some value → ∀ base, .baseCall base ∈ value.atoms →
    ∃ type, value = .atom type (.baseCall base)
  known : ∀ type base, template.value = some (.atom type (.baseCall base)) → ∃ other ∈ earlier, other.name = base
  plain : ∀ override ∈ template.overrides, ∀ base, .baseCall base ∉ override.value.atoms
  overrides : template.overrides ≠ [] → ∃ type base, template.value = some (.atom type (.baseCall base))

/-- A draft, by whether its definition modifies another one. -/
inductive Draft.Derives (earlier : List Template) (draft : Draft) : Bool → Prop
  | plain (value : Expr.tally Atom.isBaseCall draft.value.toList = 0) (overrides : draft.overrides = []) :
      Derives earlier draft false
  | derived (type base : String) (value : draft.value = some (.atom type (.baseCall base)))
      (known : ∃ other ∈ earlier, other.name = base)
      (overrides : Expr.tally Atom.isBaseCall (Override.values draft.overrides) = 0) : Derives earlier draft true

theorem Draft.Derives.congr {earlier : List Template} {draft other : Draft} {modifying : Bool}
    (derives : draft.Derives earlier modifying) (value : other.value = draft.value)
    (overrides : other.overrides = draft.overrides) : other.Derives earlier modifying := by
  cases derives with
  | plain plain none => exact .plain (value ▸ plain) (overrides.trans none)
  | derived type base whole known plain => exact .derived type base (value.trans whole) known (overrides ▸ plain)

theorem Draft.Derives.overrides_plain {earlier : List Template} {draft : Draft} {modifying : Bool}
    (derives : draft.Derives earlier modifying) : Expr.tally Atom.isBaseCall (Override.values draft.overrides) = 0 := by
  cases derives with
  | plain value overrides =>
    rw [overrides]
    rfl
  | derived type base value known overrides => exact overrides

theorem Draft.Derives.template {earlier : List Template} {draft : Draft} {modifying : Bool}
    (derives : draft.Derives earlier modifying) {template : Template} (made : draft.template = .ok template) :
    template.Derives earlier := by
  obtain ⟨-, sameValue, -, sameOverrides⟩ := Draft.eq_of_template made
  have overridesPlain : ∀ override ∈ template.overrides, ∀ base, .baseCall base ∉ override.value.atoms := by
    intro override member base mentioned
    rw [sameOverrides] at member
    have none := (Expr.tally_eq_zero_iff _ _).mp derives.overrides_plain _ (List.mem_map_of_mem member) _ mentioned
    cases none
  cases derives with
  | plain value overrides =>
    have valuePlain : ∀ value, template.value = some value → ∀ base, .baseCall base ∉ value.atoms := by
      intro found isSome base mentioned
      rw [sameValue] at isSome
      rw [isSome] at value
      have none := (Expr.tally_eq_zero_iff _ _).mp value found (List.mem_singleton_self _) _ mentioned
      cases none
    refine ⟨?_, ?_, overridesPlain, ?_⟩
    · intro value isSome base mentioned
      exact absurd mentioned (valuePlain value isSome base)
    · intro type base isSome
      exact absurd (by simp [Expr.atoms]) (valuePlain _ isSome base)
    · intro some
      rw [sameOverrides] at some
      exact absurd overrides some
  | derived type base value known overrides =>
    rw [← sameValue] at value
    refine ⟨?_, ?_, overridesPlain, fun _ => ⟨type, base, value⟩⟩
    · intro found isSome base' mentioned
      rw [value] at isSome
      cases isSome
      simp only [Expr.atoms, List.mem_singleton] at mentioned
      cases mentioned
      exact ⟨type, rfl⟩
    · intro type' base' isSome
      rw [value] at isSome
      cases isSome
      exact known

/-! ### After all events -/

/-- A registry that is indexed, in which every template is derived from those before it. -/
structure Registry.Founded (registry : Registry) : Prop where
  indexed : registry.Indexed
  derives : ∀ (position : Nat) (template : Template), registry.templates[position]? = some template →
    template.Derives (registry.templates.take position)

namespace Registry.Founded

variable {registry : Registry}

theorem congr {other : Registry} (founded : registry.Founded) (templates : other.templates = registry.templates)
    (index : other.index = registry.index) : other.Founded := by
  refine ⟨founded.indexed.congr templates index, ?_⟩
  rw [templates]
  exact founded.derives

theorem add (founded : registry.Founded) {template : Template} (derives : template.Derives registry.templates) :
    (registry.add template).Founded := by
  refine ⟨founded.indexed.add template, ?_⟩
  intro position found isThere
  simp only [Registry.add] at isThere ⊢
  rcases Nat.lt_or_ge position registry.templates.length with before | after
  · rw [List.getElem?_append_left before] at isThere
    rw [List.take_append_of_le_length (Nat.le_of_lt before)]
    exact founded.derives position found isThere
  · rw [List.getElem?_append_right after, List.getElem?_singleton] at isThere
    split at isThere
    · cases isThere
      have last : position = registry.templates.length := by omega
      rw [last, List.take_left]
      exact derives
    · cases isThere

end Registry.Founded

theorem State.Remarked.founded {before after : State} {remarks : List Remark} (remarked : before.Remarked remarks after)
    (founded : before.registry.Founded) : after.registry.Founded := founded.congr remarked.templates remarked.index

/-- What holds while a definition is read. -/
structure Deriving (state : State) (above : List Scope) (draft : Draft) (modifying : Bool) : Prop where
  founded : state.registry.Founded
  plain : Expr.tally Atom.isBaseCall (held above) = 0
  draft : draft.Derives state.registry.templates modifying

theorem founded_kept : Kept (fun state => state.registry.Founded) Deriving where
  pass holds passes := by cases passes <;> exact ⟨holds.indexed, holds.derives⟩
  start holds _ := ⟨⟨holds.indexed, holds.derives⟩, rfl, .plain rfl rfl⟩
  turn {state above draft modifying next} holds turn := by
    obtain ⟨founded, plain, derives⟩ := holds
    cases turn with
    | @drop after remarks remarked fault atEnd =>
      have dropped : (after.fail fault).clear.registry.Founded := (remarked.founded founded).congr rfl rfl
      exact .recover dropped atEnd
    | proceed above' remarked flow name type =>
      refine .reading type ⟨remarked.founded founded, flow.no_baseCall plain, ?_⟩
      rw [remarked.templates]
      exact derives.congr rfl rfl
    | name name type alone =>
      exact .reading type ⟨founded, rfl, derives.congr rfl rfl⟩
    | base base type id remarked known alone =>
      refine .reading id ⟨remarked.founded founded, rfl, ?_⟩
      rw [remarked.templates]
      exact .derived type base rfl (founded.indexed.exists_of_isSome known) derives.overrides_plain
    | parameters parameters type remarked =>
      refine .reading type ⟨remarked.founded founded, rfl, ?_⟩
      simp only [remarked.templates]
      exact derives.congr rfl rfl
    | value type notModifying remarked flow =>
      subst notModifying
      refine .reading type ⟨remarked.founded founded, rfl, ?_⟩
      cases derives with
      | plain value overrides => exact .plain (flow.no_baseCall plain) overrides
    | overrides type modifies remarked flow =>
      subst modifies
      refine .reading type ⟨remarked.founded founded, rfl, ?_⟩
      rw [remarked.templates]
      cases derives with
      | derived type base value known overrides =>
        refine .derived type base value known ?_
        have more := flow.no_baseCall plain
        simp only [Override.values, List.map_append, Expr.tally_append] at overrides more ⊢
        omega
    | register made remarked alone =>
      have templates := remarked.templates
      refine .resting (.inl rfl) ((remarked.founded founded).add ?_)
      rw [templates]
      exact derives.template made

theorem run_founded (symbols : Symbols) (events : List Event) :
    ((Compiler.new symbols).run events).state.registry.Founded := by
  have start : Registry.Founded {} := ⟨rfl, by simp⟩
  have holds := Compiler.run_holds founded_kept symbols start events
  generalize (Compiler.new symbols).run events = compiler at holds
  cases holds with
  | resting rests founded => exact founded
  | reading type holds => exact holds.founded

/-- Derivation is well founded and the registry is exact. After all events, however nodes are entered and left, the
    latest template of a name is found, and none only where there is none. A template is derived from one before it: only
    its whole value refers to a base, which is the name of an earlier template, and only then does it have overrides.
    Whatever events follow, templates and diagnostics stay as they are. -/
theorem derivation_wellFounded (symbols : Symbols) (events : List Event) :
    let compiler := (Compiler.new symbols).run events
    let registry := compiler.state.registry
    (∀ name template, registry.find? name = some template ↔ ∃ before after,
      registry.templates = before ++ template :: after ∧ template.name = name ∧
        ∀ later ∈ after, later.name ≠ name) ∧
    (∀ name, registry.find? name = none ↔ ∀ template ∈ registry.templates, template.name ≠ name) ∧
    (∀ (position : Nat) (template : Template), registry.templates[position]? = some template →
      template.Derives (registry.templates.take position)) ∧
    ∀ more, registry.templates <+: (compiler.run more).state.registry.templates ∧
      registry.diagnostics <+: (compiler.run more).state.registry.diagnostics := by
  intro compiler registry
  have founded : registry.Founded := run_founded symbols events
  exact ⟨founded.indexed.find?_eq_some_iff, founded.indexed.find?_eq_none_iff, founded.derives, compiler.run_extends⟩

end TtcnTemplates
