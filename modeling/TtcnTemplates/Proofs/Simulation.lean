import TtcnTemplates.Proofs.Recovery
import TtcnTemplates.Proofs.Translation

/-! # Going on after a translation

What is left of a translation after some constructs is what the compiler still has to do from there on
(`Reading.resume`). After a fault nothing is read any more, so that walking trees and leaving nodes become part of what
is left to do. All this is up to the log, which has no influence on anything else (`Compiler.Same`).
-/

namespace TtcnTemplates

/-! ### Apart from the log -/

/-- A state without its log. -/
def State.quiet (state : State) : State := { state with log := [] }

theorem State.quiet_note (state : State) (notice : Notice) : (state.note notice).quiet = state.quiet := rfl

/-- Two compilers that differ at most in the log. -/
structure Compiler.Same (left right : Compiler) : Prop where
  state : left.state.quiet = right.state.quiet
  stack : left.stack = right.stack

theorem State.exists_log {left right : State} (same : left.quiet = right.quiet) :
    ∃ log, right = { left with log } := by
  obtain ⟨symbols, registry, parameters, current, log⟩ := left
  obtain ⟨symbols', registry', parameters', current', log'⟩ := right
  cases same
  exact ⟨log', rfl⟩

theorem State.quiet_applyAll {left right : State} (same : left.quiet = right.quiet) (updates : List Update) :
    (left.applyAll updates).quiet = (right.applyAll updates).quiet := by
  induction updates generalizing left right with
  | nil => exact same
  | cons update rest ih =>
    obtain ⟨log, rfl⟩ := State.exists_log same
    refine ih ?_
    cases update <;> rfl

namespace Compiler

theorem Same.rfl {compiler : Compiler} : compiler.Same compiler := ⟨.refl _, .refl _⟩

theorem Same.trans {first second third : Compiler} (left : first.Same second) (right : second.Same third) :
    first.Same third := ⟨left.state.trans right.state, left.stack.trans right.stack⟩

theorem Same.symbols {left right : Compiler} (same : left.Same right) : left.state.symbols = right.state.symbols := by
  obtain ⟨log, equal⟩ := State.exists_log same.state
  rw [equal]

theorem Same.registry {left right : Compiler} (same : left.Same right) :
    left.state.registry = right.state.registry := by
  obtain ⟨log, equal⟩ := State.exists_log same.state
  rw [equal]

theorem Same.of_eq {left right : Compiler} (equal : left = right) : left.Same right := equal ▸ Same.rfl

theorem Same.agree {left right : Compiler} (same : left.Same right) (bases : List String) :
    left.state.Agree bases right.state := by
  obtain ⟨log, equal⟩ := State.exists_log same.state
  rw [equal]
  exact ⟨.refl _, .refl _, .refl _, fun _ _ => .refl _⟩

theorem run_same {left right : State} (same : left.quiet = right.quiet) (effect : Effect) :
    (effect.run left).Same (effect.run right) := by
  cases effect with
  | proceed updates stack => exact ⟨State.quiet_applyAll same updates, .refl _⟩
  | drop updates fault atEnd =>
    obtain ⟨log, equal⟩ := State.exists_log (State.quiet_applyAll same updates)
    rw [Effect.run, Effect.run, equal]
    exact ⟨.refl _, .refl _⟩
  | register updates template =>
    obtain ⟨log, equal⟩ := State.exists_log (State.quiet_applyAll same updates)
    rw [Effect.run, Effect.run, equal]
    exact ⟨.refl _, .refl _⟩

/-- The log has no influence on what an event does. -/
theorem Same.step {left right : Compiler} (same : left.Same right) (event : Event) :
    (left.step event).Same (right.step event) := by
  obtain ⟨leftState, stack⟩ := left
  obtain ⟨rightState, stack'⟩ := right
  obtain ⟨states, frames⟩ := same
  cases frames
  obtain ⟨effect, first, second⟩ := step_effect (Same.agree ⟨states, .refl stack⟩ event.tree.form.bases) stack event
    (List.Subset.refl _)
  rw [first, second]
  exact run_same states effect

mutual
theorem Same.walk {left right : Compiler} (same : left.Same right) (tree : Tree) :
    (left.walk tree).Same (right.walk tree) := by
  cases tree with
  | mk form children =>
    rw [Compiler.walk, Compiler.walk]
    exact (Same.walkAll (same.step (.enter ⟨form, children⟩)) children).step (.leave ⟨form, children⟩)

theorem Same.walkAll {left right : Compiler} (same : left.Same right) (trees : List Tree) :
    (left.walkAll trees).Same (right.walkAll trees) := by
  cases trees with
  | nil => exact same
  | cons tree rest =>
    rw [Compiler.walkAll, Compiler.walkAll]
    exact Same.walkAll (Same.walk same tree) rest
end

theorem deliver_same {left right : State} (same : left.quiet = right.quiet) (tree : Tree) (result : Yield)
    (below : List Scope) : (deliver left tree result below).Same (deliver right tree result below) := by
  obtain ⟨effect, first, second⟩ := deliver_effect left right tree result below
  rw [first, second]
  exact run_same same effect

/-- A scope that closes hands its result on. -/
theorem leave_close {state after : State} {scope : Scope} {tree : Tree} {result : Yield} (below : List Scope)
    (closes : scope.leave state tree = .ok (after, .close (some result))) :
    (leave ⟨state, scope :: below⟩ tree).Same (deliver after tree result below) := by
  simp only [leave, closes]
  exact deliver_same (after.quiet_note _) tree result below

end Compiler

/-! ### Going on after a translation -/

namespace State

/-- Makes remarks on the current template. -/
def warnAll (state : State) (remarks : List Remark) : State := state.applyAll (remarks.map Update.warn)

theorem warnAll_append (state : State) (first second : List Remark) :
    state.warnAll (first ++ second) = (state.warnAll first).warnAll second := by
  simp [warnAll, applyAll_append]

@[simp] theorem warnAll_symbols (state : State) (remarks : List Remark) :
    (state.warnAll remarks).symbols = state.symbols := state.applyAll_symbols _

@[simp] theorem warnAll_templates (state : State) (remarks : List Remark) :
    (state.warnAll remarks).registry.templates = state.registry.templates := state.applyAll_templates _

@[simp] theorem warnAll_parameters (state : State) (remarks : List Remark) :
    (state.warnAll remarks).parameters = state.parameters := by
  induction remarks generalizing state with
  | nil => rfl
  | cons remark rest ih => exact ih (state.warn remark)

@[simp] theorem warnAll_current (state : State) (remarks : List Remark) :
    (state.warnAll remarks).current = state.current := by
  induction remarks generalizing state with
  | nil => rfl
  | cons remark rest ih => exact ih (state.warn remark)

theorem warnAll_withParameters (state : State) (parameters : List Parameter) (remarks : List Remark) :
    State.warnAll { state with parameters } remarks = { state.warnAll remarks with parameters } := by
  induction remarks generalizing state with
  | nil => rfl
  | cons remark rest ih => exact ih (state.warn remark)

/-- The registry after remarks on a template. -/
theorem warnAll_registry (state : State) {name : String} (current : state.current = some name)
    (remarks : List Remark) : (state.warnAll remarks).registry = state.registry.remarkAll name remarks := by
  induction remarks generalizing state with
  | nil => simp [warnAll, Registry.remarkAll]
  | cons remark rest ih =>
    refine (ih (state.warn remark) current).trans ?_
    simp [State.warn, Registry.remarkAll, Registry.report, current]

end State

namespace Reading

/-- What the compiler has to do after a translation: it goes on with the value, or it drops the definition. -/
def resume {α : Type} (reading : Reading α) (state : State) (next : State → α → Compiler) : Compiler :=
  match reading.result with
  | .ok value => next (state.warnAll reading.remarks) value
  | .error fault => Compiler.recover (state.warnAll reading.remarks) fault false

variable {α β : Type}

/-- A translation that succeeds has succeeded in its first part. -/
theorem exists_of_bind_eq_ok {reading : Reading α} {next : α → Reading β} {value : β}
    (succeeds : (reading >>= next).result = .ok value) :
    ∃ first, reading.result = .ok first ∧ (next first).result = .ok value := by
  obtain ⟨remarks, result⟩ := reading
  cases result with
  | error fault => cases succeeds
  | ok first => exact ⟨first, rfl, succeeds⟩

@[simp] theorem resume_pure (value : α) (state : State) (next : State → α → Compiler) :
    (pure value : Reading α).resume state next = next state value := rfl

@[simp] theorem resume_fail (fault : Fault) (state : State) (next : State → α → Compiler) :
    (fail fault : Reading α).resume state next = Compiler.recover state fault false := rfl

@[simp] theorem resume_remark (remarks : List Remark) (state : State) (next : State → Unit → Compiler) :
    (remark remarks).resume state next = next (state.warnAll remarks) () := rfl

@[simp] theorem resume_bind (reading : Reading α) (continuation : α → Reading β) (state : State)
    (next : State → β → Compiler) :
    (reading >>= continuation).resume state next =
      reading.resume state fun state value => (continuation value).resume state next := by
  obtain ⟨remarks, result⟩ := reading
  cases result with
  | error fault => rfl
  | ok value => simp only [bind, resume, State.warnAll_append]

/-- Two ways to go on have the same outcome if they have it after all remarks. -/
theorem resume_same (reading : Reading α) (state : State) {first second : State → α → Compiler}
    (same : ∀ remarks value,
      (first (state.warnAll remarks) value).Same (second (state.warnAll remarks) value)) :
    (reading.resume state first).Same (reading.resume state second) := by
  obtain ⟨remarks, result⟩ := reading
  cases result with
  | error fault => exact Compiler.Same.rfl
  | ok value => exact same remarks value

/-- After a fault nothing is read any more, so that walking trees belongs to going on. -/
theorem walkAll_resume (reading : Reading α) (state : State) (next : State → α → Compiler) (trees : List Tree) :
    (reading.resume state next).walkAll trees =
      reading.resume state fun state value => (next state value).walkAll trees := by
  obtain ⟨remarks, result⟩ := reading
  cases result with
  | error fault => exact Compiler.walkAll_recover _ fault trees
  | ok value => rfl

theorem leave_resume (reading : Reading α) (state : State) (next : State → α → Compiler) {tree : Tree}
    (inside : tree.is .definition = false) :
    (reading.resume state next).leave tree =
      reading.resume state fun state value => (next state value).leave tree := by
  obtain ⟨remarks, result⟩ := reading
  cases result with
  | error fault => exact Compiler.leave_recover inside _ fault
  | ok value => rfl

/-- Leaving a list and then the construct that it belongs to, where a translation has been resumed. -/
theorem leave_leave_resume {compiler : Compiler} {reading : Reading α} {state : State}
    {next : State → α → Compiler} (same : compiler.Same (reading.resume state next)) {list tree : Tree}
    (inList : list.is .definition = false) (inTree : tree.is .definition = false) :
    ((compiler.leave list).leave tree).Same
      (reading.resume state fun state value => ((next state value).leave list).leave tree) := by
  rw [← leave_resume reading state (fun state value => (next state value).leave list) inTree,
    ← leave_resume reading state next inList]
  exact (same.step (.leave list)).step (.leave tree)

/-- The formal parameters have no influence on remarks, and a fault clears them. -/
theorem resume_withParameters (reading : Reading α) (state : State) (parameters : List Parameter)
    (next : State → α → Compiler) :
    reading.resume { state with parameters } next =
      reading.resume state fun state value => next { state with parameters } value := by
  obtain ⟨remarks, result⟩ := reading
  simp only [resume, State.warnAll_withParameters]
  cases result <;> rfl

end Reading

/-! ### Nodes that are not read -/

namespace Compiler

/-- A node for which its scope is passed over leaves what entering it has changed. -/
theorem walk_passed {state after : State} {scope scope' : Scope} {tree : Tree} (below : List Scope)
    (enters : scope.enter state tree = .ok ⟨after, scope', some (.passOver tree.tag)⟩) :
    (walk ⟨state, scope :: below⟩ tree).Same ⟨after, scope' :: below⟩ := by
  obtain ⟨form, children⟩ := tree
  have itself : Tree.is ⟨form, children⟩ form.tag = true := Tree.is_iff.mpr rfl
  rw [walk]
  simp only [enter, enters, Scope.passOver, Tree.tag]
  rw [(Counter.skip form.tag).walkAll, leave_skip_end itself]
  exact ⟨rfl, rfl⟩

/-- A node whose scope finds a fault in it drops the definition. -/
theorem walk_fault {state : State} {scope : Scope} {tree : Tree} {fault : Fault} (below : List Scope)
    (inside : tree.is .definition = false) (enters : scope.enter state tree = .error fault) :
    walk ⟨state, scope :: below⟩ tree = recover state fault false := by
  obtain ⟨form, children⟩ := tree
  rw [walk]
  simp only [enter, enters]
  rw [walkAll_recover, leave_recover inside]

end Compiler

end TtcnTemplates
