import TtcnTemplates.Proofs.Turns

/-! # Placeholders are remarked on

A construct that has no Java form becomes a placeholder. Some are remarked on when their body is entered, others when it
is left, and until their template is registered scopes hold them. The values that scopes hold are therefore counted with
those of the registered templates: an event adds to all of these only what can be made, and a placeholder only with a
remark (`Compiler.step_makes`).
-/

namespace TtcnTemplates

/-! ### Remarks -/

namespace Registry

/-- The number of remarks that are reported. -/
def remarks (registry : Registry) : Nat := registry.diagnostics.countP fun diagnostic => !diagnostic.isError

/-- A fault is no remark. -/
theorem remarks_report_fault (registry : Registry) (name : Option String) (fault : Fault) :
    (registry.report ⟨name, .fault fault⟩).remarks = registry.remarks := by
  simp [remarks, report, Diagnostic.isError]

end Registry

theorem State.Remarked.registry_remarks {before after : State} {remarks : List Remark}
    (remarked : before.Remarked remarks after) :
    after.registry.remarks = before.registry.remarks + remarks.length := by
  have all : (remarks.map fun remark => (⟨before.current, .remark remark⟩ : Diagnostic)).countP
      (fun diagnostic => !diagnostic.isError) = remarks.length := by
    rw [List.countP_map]
    exact List.countP_eq_length.mpr fun _ _ => rfl
  rw [Registry.remarks, remarked.diagnostics, List.countP_append, all, Registry.remarks]

/-! ### What an event makes -/

namespace Compiler

/-- The values that scopes hold and those of the registered templates. -/
def values (compiler : Compiler) : List Expr := held compiler.stack ++ compiler.state.registry.values

section
variable (sort : Atom → Bool)

theorem tally_reading (state : State) (above : List Scope) (draft : Draft) (type : Option TypeId) (modifying : Bool) :
    Expr.tally sort (values ⟨state, above ++ [.definition draft type modifying]⟩) =
      Expr.tally sort (held above) + Expr.tally sort draft.values + Expr.tally sort state.registry.values := by
  simp [values, Scope.values, Nat.add_assoc]

theorem tally_resting (state : State) {stack : List Scope} (rests : Resting stack) :
    Expr.tally sort (values ⟨state, stack⟩) = Expr.tally sort state.registry.values := by
  obtain rfl | ⟨level, rfl⟩ := rests <;> rfl

end

/-- All values before and after an event. Atoms of a sort grow in number by what a flow can add to them, apart from
    references to a base. -/
def Makes (before after : Compiler) : Prop :=
  ∃ remarks : List Remark, after.state.registry.remarks = before.state.registry.remarks + remarks.length ∧
    ∀ (sort : Atom → Bool) (bound : Nat),
      (∀ {first second}, Flow before.state.parameters remarks first second →
        Expr.tally sort second ≤ Expr.tally sort first + bound) →
      (∀ base, sort (.baseCall base) = false) →
      Expr.tally sort after.values ≤ Expr.tally sort before.values + bound

/-- An event while a definition is read. -/
theorem Makes.of_turn {state : State} {above : List Scope} {draft : Draft} {modifying : Bool} {next : Compiler}
    (turn : Turn state above draft modifying next) (type : Option TypeId) :
    Makes ⟨state, above ++ [.definition draft type modifying]⟩ next := by
  cases turn with
  | @drop after remarks remarked fault atEnd =>
    refine ⟨remarks, (Registry.remarks_report_fault ..).trans remarked.registry_remarks, fun sort bound _ _ => ?_⟩
    have dropped : Expr.tally sort (recover after fault atEnd).values = Expr.tally sort after.registry.values :=
      tally_resting sort _ (recover_rests after fault atEnd)
    rw [dropped, tally_reading, remarked.registry_values]
    omega
  | @proceed after remarks above' remarked flow name type' =>
    refine ⟨remarks, remarked.registry_remarks, fun sort bound flows _ => ?_⟩
    have added := flows flow
    rw [tally_reading, tally_reading, remarked.registry_values]
    simp only [Draft.values, Expr.tally_append]
    omega
  | name name type' alone =>
    subst alone
    exact ⟨[], rfl, fun sort bound _ _ => Nat.le_add_right _ _⟩
  | @base after base class' id remarked known alone =>
    subst alone
    refine ⟨[], remarked.registry_remarks, fun sort bound _ noBase => ?_⟩
    have passedOver : Expr.tally sort (held [.passOver .base]) = 0 := rfl
    rw [tally_reading, tally_reading, remarked.registry_values, passedOver]
    simp only [Draft.values, Option.toList_some, Expr.tally_append, Expr.tally_cons, Expr.tally_nil, Expr.count_atom,
      noBase, Bool.false_eq_true, if_false, held_nil]
    omega
  | @parameters after remarks parameters type' remarked =>
    refine ⟨remarks, remarked.registry_remarks, fun sort bound _ _ => ?_⟩
    rw [tally_reading, tally_reading, remarked.registry_values]
    simp only [Draft.values, held_nil, Expr.tally_nil]
    omega
  | @value after remarks value type' plain remarked flow =>
    refine ⟨remarks, remarked.registry_remarks, fun sort bound flows _ => ?_⟩
    have added := flows flow
    rw [tally_reading, tally_reading, remarked.registry_values]
    simp only [Draft.values, held_nil, Option.toList_some, Expr.tally_append, Expr.tally_nil]
    omega
  | @overrides after remarks overrides type' modifies remarked flow =>
    refine ⟨remarks, remarked.registry_remarks, fun sort bound flows _ => ?_⟩
    have added := flows flow
    rw [tally_reading, tally_reading, remarked.registry_values]
    simp only [Draft.values, Override.values, held_nil, List.map_append, Expr.tally_append, Expr.tally_nil] at added ⊢
    omega
  | @register after template made remarked alone =>
    subst alone
    refine ⟨[], remarked.registry_remarks, fun sort bound _ _ => ?_⟩
    have registered : (after.register template).registry.values = after.registry.values ++ draft.values := by
      rw [← Draft.values_template made]
      exact Registry.values_add after.registry template
    rw [tally_resting sort _ (.inl rfl), tally_reading, registered, remarked.registry_values, Expr.tally_append]
    simp only [held_nil, Expr.tally_nil]
    omega

/-- An event where no definition is read. -/
theorem Makes.of_rest {state : State} {stack : List Scope} {next : Compiler} (rests : Resting stack)
    (rest : Rest state next) : Makes ⟨state, stack⟩ next := by
  cases rest with
  | @pass after stack' passes rests' =>
    refine ⟨[], by cases passes <;> rfl, fun sort bound _ _ => ?_⟩
    rw [tally_resting sort _ rests, tally_resting sort _ rests']
    cases passes <;> exact Nat.le_add_right _ _
  | start notice =>
    refine ⟨[], rfl, fun sort bound _ _ => ?_⟩
    rw [tally_resting sort _ rests, tally_reading]
    exact Nat.le_add_right_of_le (Nat.le_of_eq (Nat.zero_add _))

theorem step_makes {compiler : Compiler} (wellFormed : WellFormed compiler.stack) (event : Event) :
    compiler.Makes (compiler.step event) := by
  obtain ⟨state, stack⟩ := compiler
  rcases wellFormed with empty | skipped | underway
  · exact .of_rest (.inl empty) (step_rest (.inl empty) state event)
  · exact .of_rest (.inr skipped) (step_rest (.inr skipped) state event)
  · obtain ⟨above, draft, type, modifying, rfl⟩ := underway.exists_definition
    exact .of_turn (step_turn underway event) type

/-! ### After all events -/

theorem step_placeholders {compiler : Compiler} (wellFormed : WellFormed compiler.stack)
    (remarked : Expr.tally Atom.isPlaceholder compiler.values ≤ compiler.state.registry.remarks) (event : Event) :
    Expr.tally Atom.isPlaceholder (compiler.step event).values ≤ (compiler.step event).state.registry.remarks := by
  obtain ⟨remarks, reported, bounded⟩ := step_makes wellFormed event
  have added := bounded Atom.isPlaceholder remarks.length Flow.placeholders fun _ => rfl
  omega

theorem run_placeholders {compiler : Compiler} (sound : compiler.Sound)
    (remarked : Expr.tally Atom.isPlaceholder compiler.values ≤ compiler.state.registry.remarks) (events : List Event) :
    Expr.tally Atom.isPlaceholder (compiler.run events).values ≤ (compiler.run events).state.registry.remarks := by
  induction events generalizing compiler with
  | nil => exact remarked
  | cons event rest ih => exact ih (step_sound sound event) (step_placeholders sound.wellFormed remarked event)

end Compiler

/-- A placeholder never comes without a remark: after all events, however nodes are entered and left, there are at most
    as many placeholders in the registered templates, at any depth, as there are remarks. Where nothing is reported,
    there is none. -/
theorem placeholders_remarked (symbols : Symbols) (events : List Event) :
    let registry := ((Compiler.new symbols).run events).state.registry
    Expr.tally Atom.isPlaceholder (registry.templates.flatMap Template.values) ≤
        registry.diagnostics.countP (fun diagnostic => !diagnostic.isError) ∧
      (registry.diagnostics = [] → ∀ template ∈ registry.templates, ∀ value ∈ template.values,
        ∀ description, .unsupported description ∉ value.atoms) := by
  intro registry
  have bound : Expr.tally Atom.isPlaceholder (registry.templates.flatMap Template.values) ≤
      registry.diagnostics.countP fun diagnostic => !diagnostic.isError := by
    have all := Compiler.run_placeholders (Compiler.new_sound symbols) (Nat.le_refl 0) events
    rw [Compiler.values, Expr.tally_append] at all
    exact Nat.le_trans (Nat.le_add_left _ _) all
  refine ⟨bound, ?_⟩
  intro silent template member value within description unsupported
  have zero : Expr.tally Atom.isPlaceholder (registry.templates.flatMap Template.values) = 0 := by
    rw [silent] at bound
    exact Nat.le_zero.mp bound
  have registered : value ∈ registry.templates.flatMap Template.values := List.mem_flatMap.mpr ⟨template, member, within⟩
  have none := (Expr.tally_eq_zero_iff _ _).mp zero value registered _ unsupported
  cases none

end TtcnTemplates
