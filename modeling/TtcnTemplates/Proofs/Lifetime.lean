import TtcnTemplates.Proofs.Recovery

/-! # How long scopes live

The scope of a body should be there from the moment the body is entered until it is left. The scopes that read nested
bodies open a scope for each of them, and those that pass over a body count what is nested in it. The scopes of
literals, references and wildcards do neither (`Scope.isLeaf`): they close at the next end of a body, whichever body
that is. So a scope lives as long as its body exactly if no such scope meets a nested body (`Compiler.apart`).
-/

namespace TtcnTemplates

/-! ### Faults -/

/-- The number of faults that have been reported. -/
def State.faults (state : State) : Nat := state.registry.diagnostics.countP Diagnostic.isError

@[simp] theorem State.applyAll_faults (state : State) (updates : List Update) :
    (state.applyAll updates).faults = state.faults := by
  have none : (reported state.current updates).countP Diagnostic.isError = 0 :=
    List.countP_eq_zero.mpr fun diagnostic member => by simp [isError_of_mem_reported member]
  rw [State.faults, State.applyAll_diagnostics, List.countP_append, none]
  rfl

namespace Compiler

theorem faults_recover (state : State) (fault : Fault) (atEnd : Bool) :
    (recover state fault atEnd).state.faults = state.faults + 1 := by
  simp [recover, State.faults, State.fail, State.clear, State.note, Registry.report, Diagnostic.isError]

/-- A fault that has been reported stays. -/
theorem faults_le_step (compiler : Compiler) (event : Event) :
    compiler.state.faults ≤ (compiler.step event).state.faults := by
  obtain ⟨state, stack⟩ := compiler
  obtain ⟨effect, same, -⟩ := step_effect (State.Agree.refl _ state) stack event (List.Subset.refl _)
  rw [same]
  cases effect with
  | proceed updates stack => exact Nat.le_of_eq (state.applyAll_faults updates).symm
  | drop updates fault atEnd =>
    simp only [Effect.run, faults_recover, State.applyAll_faults]
    omega
  | register updates template => exact Nat.le_of_eq (state.applyAll_faults updates).symm

theorem faults_le_run (compiler : Compiler) (events : List Event) :
    compiler.state.faults ≤ (compiler.run events).state.faults := by
  induction events generalizing compiler with
  | nil => exact Nat.le_refl _
  | cons event rest ih => exact Nat.le_trans (compiler.faults_le_step event) (ih (compiler.step event))

/-- Events that report no fault can be cut in two. -/
theorem faults_append {compiler : Compiler} {first second : List Event}
    (clean : (compiler.run (first ++ second)).state.faults = compiler.state.faults) :
    (compiler.run first).state.faults = compiler.state.faults ∧
      ((compiler.run first).run second).state.faults = (compiler.run first).state.faults := by
  rw [run_append] at clean
  have start := compiler.faults_le_run first
  have rest := (compiler.run first).faults_le_run second
  omega

end Compiler

/-! ### Scopes inside a body -/

namespace Scope

/-- A scope that closes at the next end of a body. -/
def isLeaf : Scope → Bool
  | .specific .. => true
  | .await .. => true
  | _ => false

/-- A scope that reads a body, or a part of one, or passes over it. -/
def Inner (scope : Scope) : Prop := scope.kind ≠ some .template ∧ scope.kind ≠ some .parameters

theorem Opens.inner {scope : Scope} {kind : Option Kind} (opens : scope.Opens .body kind) : scope.Inner := by
  obtain ⟨-, endTag, -, valid⟩ := opens
  cases scope with
  | definition draft type modifying => cases endTag
  | parameterList pending parameters => cases endTag
  | await tag result => simp [Inner, Scope.kind, valid.2]
  | _ => simp [Inner, Scope.kind]

/-- What stands on a scope inside a body is inside the body, too. -/
theorem Inner.of_awaits {parent scope : Scope} (inner : parent.Inner) (awaits : parent.Awaits scope.kind) :
    scope.Inner := by
  cases parent with
  | definition draft type modifying => exact absurd rfl inner.1
  | parameterList pending parameters => exact absurd rfl inner.2
  | _ =>
    constructor <;> intro kind <;> simp [kind, Awaits] at awaits

theorem Inner.endTag_of_not_counts {scope : Scope} (inner : scope.Inner) (valid : scope.Valid)
    (plain : scope.counts = false) : scope.endTag = .body := by
  cases scope with
  | definition draft type modifying => exact absurd rfl inner.1
  | parameterList pending parameters => exact absurd rfl inner.2
  | skip tag level => cases plain
  | await tag result => exact valid.1
  | _ => rfl

theorem endTag_of_isLeaf {scope : Scope} (leaf : scope.isLeaf = true) (valid : scope.Valid) :
    scope.endTag = .body := by
  cases scope with
  | specific type value => rfl
  | await tag result => exact valid.1
  | _ => cases leaf

theorem level_of_isLeaf {scope : Scope} (leaf : scope.isLeaf = true) : scope.level = 0 := by
  cases scope with
  | specific type value => rfl
  | await tag result => rfl
  | _ => cases leaf

/-- A scope that reads nested bodies opens a scope for each. -/
theorem isSome_opened {scope : Scope} (inner : scope.Inner) (plain : scope.counts = false)
    (branch : scope.isLeaf = false) {state : State} {tree : Tree} (isBody : tree.is .body = true) {entry : Entry}
    (entered : scope.enter state tree = .ok entry) : entry.opened.isSome = true := by
  have form : tree.form = .body := by
    have tag := Tree.is_iff.mp isBody
    unfold Tree.tag at tag
    cases form : tree.form <;> simp [form, Form.tag] at tag ⊢
  cases scope with
  | definition draft type modifying => exact absurd rfl inner.1
  | parameterList pending parameters => exact absurd rfl inner.2
  | specific type value => cases branch
  | await tag result => cases branch
  | unsupported type description level => cases plain
  | skip tag level => cases plain
  | named type slots pending =>
    simp only [Scope.enter, enterNamed, form] at entered
    split at entered <;> (cases entered; rfl)
  | union type alternatives chosen value =>
    simp only [Scope.enter, enterUnion, form] at entered
    split at entered <;> (cases entered; try rfl)
  | sequence type element elements listed =>
    simp only [Scope.enter, enterSequence, form] at entered
    cases entered
    rfl
  | positional type slots next current listed =>
    simp only [Scope.enter, enterPositional, form] at entered
    split at entered <;> (cases entered; rfl)
  | overrideList type path fields pending overrides =>
    simp only [Scope.enter, enterOverrides, form] at entered
    split at entered <;> (cases entered; rfl)

theorem enter_leaf {scope : Scope} (leaf : scope.isLeaf = true) {state : State} {tree : Tree} {entry : Entry}
    (entered : scope.enter state tree = .ok entry) : entry.opened = none ∧ entry.scope.isLeaf = true := by
  cases scope with
  | specific type value =>
    have read {outcome : Except Fault Expr}
        (entered : outcome.map (fun value => Entry.mk state (.specific type (some value)) none) = .ok entry) :
        entry.opened = none ∧ entry.scope.isLeaf = true := by
      cases outcome with
      | error fault => cases entered
      | ok value =>
        cases entered
        exact ⟨rfl, rfl⟩
    simp only [enter, enterSpecific] at entered
    split at entered
    · exact read entered
    · exact read entered
    · cases entered
      exact ⟨rfl, rfl⟩
  | await tag result =>
    cases entered
    exact ⟨rfl, rfl⟩
  | _ => cases leaf

end Scope

/-! ### Bodies that keep their scopes -/

namespace Compiler

/-- Whether no body is entered while the innermost scope is one that the next end of a body closes. -/
def apart (compiler : Compiler) : List Event → Bool
  | [] => true
  | .enter tree :: rest => !(tree.is .body && compiler.stack.head?.any Scope.isLeaf) && (compiler.enter tree).apart rest
  | .leave tree :: rest => (compiler.leave tree).apart rest

theorem apart_append (compiler : Compiler) (first second : List Event) :
    compiler.apart (first ++ second) = (compiler.apart first && (compiler.run first).apart second) := by
  induction first generalizing compiler with
  | nil => rfl
  | cons event rest ih =>
    cases event with
    | enter tree => simp only [List.cons_append, apart, ih, Bool.and_assoc]; rfl
    | leave tree => exact ih (compiler.leave tree)

/-- A scope outlives events: it is on top of `base` all the time, and in the end it is the innermost scope again. -/
structure Lives (compiler : Compiler) (scope : Scope) (base : List Scope) (events : List Event) : Prop where
  throughout : ∀ early, early <+: events → ∃ above scope', (compiler.run early).stack = above ++ scope' :: base
  settled : ∃ scope', scope.Continues scope' ∧ (compiler.run events).stack = scope' :: base

theorem Lives.append {compiler : Compiler} {scope : Scope} {base : List Scope} {first second : List Event}
    (left : compiler.Lives scope base first)
    (right : ∀ scope', scope.Continues scope' → (compiler.run first).stack = scope' :: base →
      (compiler.run first).Lives scope' base second) : compiler.Lives scope base (first ++ second) := by
  obtain ⟨scope', continues, stack⟩ := left.settled
  have rest := right scope' continues stack
  refine ⟨?_, ?_⟩
  · intro early isPrefix
    rcases List.prefix_or_prefix_of_prefix isPrefix (List.prefix_append first second) with inFirst | ⟨later, rfl⟩
    · exact left.throughout early inFirst
    · rw [run_append]
      exact rest.throughout later ((List.prefix_append_right_inj first).mp isPrefix)
  · obtain ⟨scope'', more, stack'⟩ := rest.settled
    exact ⟨scope'', continues.trans more, by rwa [run_append]⟩

/-- A node between whose events the scope is on top of `base`. -/
theorem Lives.node {compiler : Compiler} {scope : Scope} {base : List Scope} {tree : Tree} {inside : List Event}
    (here : compiler.stack = scope :: base)
    (throughout : ∀ early, early <+: inside →
      ∃ above scope', ((compiler.enter tree).run early).stack = above ++ scope' :: base)
    (settled : ∃ scope', scope.Continues scope' ∧
      (((compiler.enter tree).run inside).leave tree).stack = scope' :: base) :
    compiler.Lives scope base (.enter tree :: inside ++ [.leave tree]) := by
  have final : compiler.run (.enter tree :: inside ++ [.leave tree]) = ((compiler.enter tree).run inside).leave tree :=
    run_append compiler (.enter tree :: inside) [.leave tree]
  refine ⟨?_, by rwa [final]⟩
  intro early isPrefix
  rcases List.prefix_concat_iff.mp isPrefix with rfl | isPrefix
  · obtain ⟨scope', -, stack⟩ := settled
    exact ⟨[], scope', by rwa [final]⟩
  · rcases List.prefix_cons_iff.mp isPrefix with rfl | ⟨rest, rfl, shorter⟩
    · exact ⟨[], scope, here⟩
    · exact throughout rest shorter

/-- The innermost scope closes at the end of its construct. -/
theorem leave_closes {state : State} {scope parent : Scope} {below : List Scope}
    (underway : Underway (scope :: parent :: below)) {tree : Tree} (ends : tree.is scope.endTag = true)
    (level : scope.level = 0) (clean : (leave ⟨state, scope :: parent :: below⟩ tree).state.faults = state.faults) :
    ∃ parent', parent.Continues parent' ∧ (leave ⟨state, scope :: parent :: below⟩ tree).stack = parent' :: below := by
  have outcome : LeaveCases state state tree scope (parent :: below) _ _ := leave_cases rfl tree underway
  generalize leave ⟨state, scope :: parent :: below⟩ tree = after at outcome clean
  cases outcome with
  | drop fault external =>
    rw [faults_recover] at clean
    omega
  | stay updates after fits =>
    obtain ⟨-, -, -, counted, -⟩ := fits
    rw [ends, level] at counted
    simp at counted
  | close updates parent' _ _ continues => exact ⟨parent', continues, rfl⟩

/-- The innermost scope stays where nothing ends or a construct ends that it has counted. -/
theorem leave_stays {state : State} {scope parent : Scope} {below : List Scope}
    (underway : Underway (scope :: parent :: below)) {tree : Tree}
    (counted : tree.is scope.endTag = true → scope.level ≠ 0)
    (clean : (leave ⟨state, scope :: parent :: below⟩ tree).state.faults = state.faults) :
    ∃ scope', (Exit.stay scope').Fits scope tree ∧
      (leave ⟨state, scope :: parent :: below⟩ tree).stack = scope' :: parent :: below := by
  have outcome : LeaveCases state state tree scope (parent :: below) _ _ := leave_cases rfl tree underway
  generalize leave ⟨state, scope :: parent :: below⟩ tree = after at outcome clean
  cases outcome with
  | drop fault external =>
    rw [faults_recover] at clean
    omega
  | stay updates after fits => exact ⟨after, fits, rfl⟩
  | close updates parent' ends level _ => exact absurd level (counted ends)

/-- A scope outlives a node that has a scope of its own. -/
theorem Lives.of_opened {state state' : State} {scope after opened : Scope} {base : List Scope} {tree : Tree}
    {inside : List Event} (underway : Underway (scope :: base))
    (fits : Entry.Fits scope tree ⟨state', after, some opened⟩)
    (entered : enter ⟨state, scope :: base⟩ tree = ⟨state', opened :: after :: base⟩)
    (lives : Lives ⟨state', opened :: after :: base⟩ opened (after :: base) inside)
    (clean : ((run ⟨state', opened :: after :: base⟩ inside).leave tree).state.faults =
      (run ⟨state', opened :: after :: base⟩ inside).state.faults) :
    Lives ⟨state, scope :: base⟩ scope base (.enter tree :: inside ++ [.leave tree]) := by
  obtain ⟨kind, opens, awaits⟩ := fits.opened opened rfl
  have kept : Underway (opened :: after :: base) := underway.enter fits
  -- A scope that opens another one does not count, so it is the same scope as before.
  have idle : after.level = 0 := Scope.level_of_awaits awaits
  have counted : after.level = scope.level + _ := fits.level
  have continues : scope.Continues after := ⟨fits.kind, fits.endTag, by omega, fits.valid⟩
  refine Lives.node rfl ?_ ?_
  · intro early isPrefix
    obtain ⟨above, opened', stack⟩ := lives.throughout early isPrefix
    exact ⟨above ++ [opened'], after, by simpa [entered] using stack⟩
  · obtain ⟨opened', same, stack⟩ := lives.settled
    rw [entered]
    generalize run ⟨state', opened :: after :: base⟩ inside = final at stack clean
    obtain ⟨state, _⟩ := final
    cases stack
    obtain ⟨after', more, stack⟩ := leave_closes (kept.replace same.kind same.valid)
      (Tree.is_iff.mpr (same.endTag.trans opens.endTag).symm) (same.level.trans opens.level) clean
    exact ⟨after', continues.trans more, stack⟩

/-- A scope outlives a node that has no scope of its own, if it has counted the node or the node is not one at whose end
    it closes. -/
theorem Lives.of_unopened {state state' : State} {scope after parent : Scope} {below : List Scope} {tree : Tree}
    {inside : List Event} (underway : Underway (scope :: parent :: below))
    (fits : Entry.Fits scope tree ⟨state', after, none⟩)
    (entered : enter ⟨state, scope :: parent :: below⟩ tree = ⟨state', after :: parent :: below⟩)
    (counts : tree.is scope.endTag = true → scope.counts = true)
    (lives : Lives ⟨state', after :: parent :: below⟩ after (parent :: below) inside)
    (clean : ((run ⟨state', after :: parent :: below⟩ inside).leave tree).state.faults =
      (run ⟨state', after :: parent :: below⟩ inside).state.faults) :
    Lives ⟨state, scope :: parent :: below⟩ scope (parent :: below) (.enter tree :: inside ++ [.leave tree]) := by
  refine Lives.node rfl ?_ ?_
  · rw [entered]
    exact lives.throughout
  · obtain ⟨after', same, stack⟩ := lives.settled
    rw [entered]
    generalize run ⟨state', after :: parent :: below⟩ inside = final at stack clean
    obtain ⟨state, _⟩ := final
    cases stack
    have endTag : after'.endTag = scope.endTag := same.endTag.trans fits.endTag
    have level : after'.level = scope.level + _ := same.level.trans fits.level
    have counted : tree.is after'.endTag = true → after'.level ≠ 0 := by
      intro ends
      rw [endTag] at ends
      rw [counts ends, ends] at level
      simp only [Bool.and_self, if_true] at level
      omega
    obtain ⟨scope', ⟨kind, tag, valid, left, -⟩, stack⟩ :=
      leave_stays ((underway.enter fits).replace same.kind same.valid) counted clean
    have left := level_of_counted endTag level left
    exact ⟨scope', ⟨kind.trans (same.kind.trans fits.kind), tag.trans endTag, left, valid⟩, stack⟩

/-- A scope that opens none for a node at whose end it could close counts the node, unless it is a leaf. -/
theorem counts_of_unopened {state state' : State} {scope after : Scope} {below : List Scope} {tree : Tree}
    (inner : scope.Inner) (valid : scope.Valid)
    (entered : enter ⟨state, scope :: below⟩ tree = ⟨state', after :: below⟩) (clean : state'.faults = state.faults)
    (separate : (tree.is .body && scope.isLeaf) = false) (ends : tree.is scope.endTag = true) :
    scope.counts = true := by
  cases plain : scope.counts with
  | true => rfl
  | false =>
    have isBody : tree.is .body = true := inner.endTag_of_not_counts valid plain ▸ ends
    have branch : scope.isLeaf = false := by simpa [isBody] using separate
    simp only [enter] at entered
    cases outcome : scope.enter state tree with
    | error fault =>
      rw [outcome] at entered
      have recovered := congrArg (fun compiler => compiler.state.faults) entered
      simp only [faults_recover] at recovered
      omega
    | ok entry =>
      have opens := Scope.isSome_opened inner plain branch isBody outcome
      obtain ⟨entryState, entryScope, opened⟩ := entry
      cases opened with
      | none => cases opens
      | some opened =>
        rw [outcome] at entered
        have lengths := congrArg (fun compiler => compiler.stack.length) entered
        simp at lengths

mutual
/-- A scope inside a body outlives every node below the body, if no body is entered on a scope that its end closes. -/
theorem walk_lives {state : State} {scope parent : Scope} {below : List Scope}
    (underway : Underway (scope :: parent :: below)) (inner : scope.Inner) (tree : Tree)
    (clean : (run ⟨state, scope :: parent :: below⟩ tree.events).state.faults = state.faults)
    (separate : apart ⟨state, scope :: parent :: below⟩ tree.events = true) :
    Lives ⟨state, scope :: parent :: below⟩ scope (parent :: below) tree.events := by
  cases tree with
  | mk form children =>
    rw [Tree.events] at clean separate ⊢
    generalize whole : (⟨form, children⟩ : Tree) = tree at clean separate ⊢
    simp only [apart_append, List.cons_append, apart, Bool.and_eq_true] at separate
    obtain ⟨here, inside, -⟩ := separate
    obtain ⟨cleanHere, cleanEnd⟩ := faults_append clean
    obtain ⟨cleanEnter, cleanInside⟩ := @faults_append _ [.enter tree] _ cleanHere
    have outcome : EnterCases state state tree scope (parent :: below) _ _ :=
      enter_cases (.refl _ state) tree (List.Subset.refl _) underway.valid
    -- The events of the node, in terms of the compiler after it is entered.
    change (enter ⟨state, scope :: parent :: below⟩ tree).state.faults = state.faults at cleanEnter
    change ((enter ⟨state, scope :: parent :: below⟩ tree).run _).state.faults =
      (enter ⟨state, scope :: parent :: below⟩ tree).state.faults at cleanInside
    change (((enter ⟨state, scope :: parent :: below⟩ tree).run _).leave tree).state.faults =
      ((enter ⟨state, scope :: parent :: below⟩ tree).run _).state.faults at cleanEnd
    generalize entered : enter ⟨state, scope :: parent :: below⟩ tree = first
      at outcome inside cleanEnter cleanInside cleanEnd
    cases outcome with
    | drop fault external =>
      rw [faults_recover] at cleanEnter
      omega
    | proceed updates after opened fits =>
      have fits := fits (state.applyAll updates)
      have kept : Underway (opened.toList ++ after :: parent :: below) := underway.enter fits
      have same : after.Inner := by rwa [Scope.Inner, fits.kind]
      cases opened with
      | some opened =>
        obtain ⟨kind, opens, awaits⟩ := fits.opened opened rfl
        have inner' : opened.Inner := same.of_awaits (opens.kind ▸ awaits)
        exact .of_opened underway fits entered (walkAll_lives kept inner' children cleanInside inside) cleanEnd
      | none =>
        have counts := counts_of_unopened inner underway.valid entered cleanEnter ((Bool.not_eq_true' _).mp here)
        exact .of_unopened underway fits entered counts (walkAll_lives kept same children cleanInside inside) cleanEnd

/-- A scope inside a body outlives trees below the body. -/
theorem walkAll_lives {state : State} {scope parent : Scope} {below : List Scope}
    (underway : Underway (scope :: parent :: below)) (inner : scope.Inner) (trees : List Tree)
    (clean : (run ⟨state, scope :: parent :: below⟩ (Tree.allEvents trees)).state.faults = state.faults)
    (separate : apart ⟨state, scope :: parent :: below⟩ (Tree.allEvents trees) = true) :
    Lives ⟨state, scope :: parent :: below⟩ scope (parent :: below) (Tree.allEvents trees) := by
  cases trees with
  | nil =>
    refine ⟨?_, scope, .refl underway.valid, rfl⟩
    intro early isPrefix
    rw [List.prefix_nil.mp isPrefix]
    exact ⟨[], scope, rfl⟩
  | cons tree rest =>
    rw [Tree.allEvents] at clean separate ⊢
    rw [apart_append, Bool.and_eq_true] at separate
    obtain ⟨cleanHere, cleanLater⟩ := faults_append clean
    refine Lives.append (walk_lives underway inner tree cleanHere separate.1) ?_
    intro scope' continues stack
    have separate := separate.2
    generalize run ⟨state, scope :: parent :: below⟩ tree.events = final at stack cleanLater separate ⊢
    obtain ⟨state', _⟩ := final
    cases stack
    refine walkAll_lives (underway.replace continues.kind continues.valid) ?_ rest cleanLater separate
    rwa [Scope.Inner, continues.kind]
end

end Compiler

/-! ### Leaves -/

/-- Whether an event is the end of a body. -/
def Event.endsBody : Event → Bool
  | .enter _ => false
  | .leave tree => tree.is .body

mutual
/-- A tree with a body in it has an event at which the body ends. -/
theorem Tree.exists_end {tree : Tree} (has : tree.has .body = true) : ∃ event ∈ tree.events, event.endsBody = true := by
  cases tree with
  | mk form children =>
    simp only [Tree.has, Bool.or_eq_true] at has
    rcases has with here | inside
    · exact ⟨.leave ⟨form, children⟩, by simp [Tree.events], here⟩
    · obtain ⟨event, member, ends⟩ := Tree.exists_end_of_any inside
      exact ⟨event, by simp [Tree.events, member], ends⟩

theorem Tree.exists_end_of_any {trees : List Tree} (has : Tree.anyHas .body trees = true) :
    ∃ event ∈ Tree.allEvents trees, event.endsBody = true := by
  cases trees with
  | nil => cases has
  | cons tree rest =>
    simp only [Tree.anyHas, Bool.or_eq_true] at has
    rcases has with here | later
    · obtain ⟨event, member, ends⟩ := Tree.exists_end here
      exact ⟨event, List.mem_append_left _ member, ends⟩
    · obtain ⟨event, member, ends⟩ := Tree.exists_end_of_any later
      exact ⟨event, List.mem_append_right _ member, ends⟩
end

namespace Compiler

/-- A leaf stays the innermost scope as long as no body ends. -/
theorem step_leaf {compiler : Compiler} {scope : Scope} {below : List Scope} (stack : compiler.stack = scope :: below)
    (leaf : scope.isLeaf = true) (valid : scope.Valid) {event : Event} (away : event.endsBody = false)
    (clean : (compiler.step event).state.faults = compiler.state.faults) :
    ∃ scope', (compiler.step event).stack = scope' :: below ∧ scope'.isLeaf = true ∧ scope.Continues scope' := by
  obtain ⟨state, _⟩ := compiler
  cases stack
  cases event with
  | enter tree =>
    have fits := Scope.enter_fits state tree valid
    simp only [step, enter] at clean ⊢
    cases outcome : scope.enter state tree with
    | error fault =>
      simp only [outcome, faults_recover] at clean
      omega
    | ok entry =>
      obtain ⟨state', scope', opened⟩ := entry
      obtain ⟨unopened, leaf'⟩ := Scope.enter_leaf leaf outcome
      simp only at unopened leaf'
      subst unopened
      rw [outcome] at fits
      have level : scope'.level = scope.level := (Scope.level_of_isLeaf leaf').trans (Scope.level_of_isLeaf leaf).symm
      exact ⟨scope', rfl, leaf', fits.kind, fits.endTag, level, fits.valid⟩
  | leave tree =>
    have stays : scope.leave state tree = .ok (state, .stay scope) := by
      have other : tree.is .body = false := away
      cases scope with
      | specific type value => simp [Scope.leave, other]
      | await tag result =>
        obtain ⟨rfl, -⟩ := valid
        simp [Scope.leave, other]
      | _ => cases leaf
    exact ⟨scope, by simp only [step, leave, stays], leaf, .refl valid⟩

theorem run_leaf {compiler : Compiler} {scope : Scope} {below : List Scope} (stack : compiler.stack = scope :: below)
    (leaf : scope.isLeaf = true) (valid : scope.Valid) {events : List Event}
    (away : ∀ event ∈ events, event.endsBody = false)
    (clean : (compiler.run events).state.faults = compiler.state.faults) :
    ∃ scope', (compiler.run events).stack = scope' :: below ∧ scope'.isLeaf = true ∧ scope.Continues scope' := by
  induction events generalizing compiler scope with
  | nil => exact ⟨scope, stack, leaf, .refl valid⟩
  | cons event rest ih =>
    obtain ⟨here, later⟩ := List.forall_mem_cons.mp away
    obtain ⟨cleanHere, cleanLater⟩ := @faults_append _ [event] _ clean
    obtain ⟨scope', stack', leaf', continues⟩ := step_leaf stack leaf valid here cleanHere
    obtain ⟨scope'', stack'', leaf'', more⟩ := ih stack' leaf' continues.valid later cleanLater
    exact ⟨scope'', stack'', leaf'', continues.trans more⟩

/-- Among events that report no fault, the first end of a body closes a leaf. -/
theorem exists_leaf_closes {compiler : Compiler} {scope parent : Scope} {below : List Scope}
    (stack : compiler.stack = scope :: parent :: below) (underway : Underway (scope :: parent :: below))
    (leaf : scope.isLeaf = true) {events : List Event} (ends : ∃ event ∈ events, event.endsBody = true)
    (clean : (compiler.run events).state.faults = compiler.state.faults) :
    ∃ early nested late, events = early ++ .leave nested :: late ∧ nested.is .body = true ∧
      (∀ event ∈ early, event.endsBody = false) ∧
      (∃ scope', scope.Continues scope' ∧ (compiler.run early).stack = scope' :: parent :: below) ∧
      ∃ parent', parent.Continues parent' ∧ ((compiler.run early).leave nested).stack = parent' :: below := by
  obtain ⟨first, found⟩ := Option.isSome_iff_exists.mp (List.find?_isSome.mpr ends)
  obtain ⟨isEnd, early, late, rfl, away⟩ := List.find?_eq_some_iff_append.mp found
  have away : ∀ event ∈ early, event.endsBody = false := fun event member => by simpa using away event member
  cases first with
  | enter tree => cases isEnd
  | leave nested =>
    obtain ⟨cleanEarly, cleanLate⟩ := faults_append clean
    obtain ⟨cleanEnd, -⟩ := @faults_append _ [.leave nested] _ cleanLate
    obtain ⟨scope', stack', leaf', continues⟩ := run_leaf stack leaf underway.valid away cleanEarly
    refine ⟨early, nested, late, rfl, isEnd, away, ⟨scope', continues, stack'⟩, ?_⟩
    change ((compiler.run early).leave nested).state.faults = _ at cleanEnd
    generalize compiler.run early = before at stack' cleanEnd
    obtain ⟨state, _⟩ := before
    cases stack'
    refine leave_closes (underway.replace continues.kind continues.valid) ?_ (Scope.level_of_isLeaf leaf') cleanEnd
    rw [Scope.endTag_of_isLeaf leaf' continues.valid]
    exact isEnd

/-! ### The scope of a body -/

/-- A scope that is opened for a body stands on the scopes of a definition. -/
theorem underway_of_opened {compiler : Compiler} (wellFormed : WellFormed compiler.stack) {tree : Tree}
    (isBody : tree.is .body = true) {top scope parent : Scope} {below : List Scope}
    (before : compiler.stack = top :: below)
    (opened : (compiler.enter tree).stack = scope :: parent :: below) :
    Underway (scope :: parent :: below) ∧ scope.Inner ∧ (compiler.enter tree).state.faults = compiler.state.faults ∧
      scope.endTag = .body ∧ scope.level = 0 := by
  obtain ⟨state, _⟩ := compiler
  cases before
  rcases wellFormed with empty | ⟨level, dropped⟩ | underway
  · cases empty
  · cases dropped
    rw [enter_skip] at opened
    cases opened
  · have outcome : EnterCases state state tree top below _ _ :=
      enter_cases (.refl _ state) tree (List.Subset.refl _) underway.valid
    generalize enter ⟨state, top :: below⟩ tree = after at outcome opened
    cases outcome with
    | drop fault external => cases opened
    | proceed updates after own fits =>
      cases own with
      | none => simp at opened
      | some own =>
        cases opened
        obtain ⟨kind, opens, -⟩ := (fits state).opened scope rfl
        rw [Tree.is_iff.mp isBody] at opens
        exact ⟨underway.enter (fits state), opens.inner, state.applyAll_faults updates, opens.endTag, opens.level⟩

end Compiler

/-- A scope that is opened for a body, in a body that is walked without a fault. If nothing nested in the body is a body
    that is entered on a leaf, then the scope is there all the time, it closes when its own body is left, and all scopes
    below it stay. But a leaf closes at the end of the first body that is nested in its own. -/
theorem body_scope_lifetime (symbols : Symbols) (history : List Event) (compiler : Compiler)
    (reached : compiler = (Compiler.new symbols).run history) (tree : Tree) (isBody : tree.is .body = true)
    (top scope parent : Scope) (below : List Scope) (before : compiler.stack = top :: below)
    (opened : (compiler.enter tree).stack = scope :: parent :: below)
    (clean : (compiler.walk tree).state.faults = compiler.state.faults) :
    let inside := Tree.allEvents tree.children
    ((compiler.enter tree).apart inside = true →
      (∀ early, early <+: inside →
        ∃ above scope', ((compiler.enter tree).run early).stack = above ++ scope' :: parent :: below) ∧
      (∃ scope', scope.Continues scope' ∧ ((compiler.enter tree).run inside).stack = scope' :: parent :: below) ∧
      ∃ parent', parent.Continues parent' ∧ (compiler.walk tree).stack = parent' :: below) ∧
    (scope.isLeaf = true → Tree.anyHas .body tree.children = true →
      ∃ early nested late, inside = early ++ .leave nested :: late ∧ nested.is .body = true ∧
        (∀ event ∈ early, event.endsBody = false) ∧
        (∃ scope', scope.Continues scope' ∧ ((compiler.enter tree).run early).stack = scope' :: parent :: below) ∧
        ∃ parent', parent.Continues parent' ∧
          (((compiler.enter tree).run early).leave nested).stack = parent' :: below) := by
  intro inside
  have wellFormed : WellFormed compiler.stack :=
    reached ▸ (Compiler.run_sound (Compiler.new_sound symbols) history).wellFormed
  obtain ⟨underway, inner, cleanEnter, endTag, level⟩ := Compiler.underway_of_opened wellFormed isBody before opened
  have walked : compiler.walk tree = ((compiler.enter tree).run inside).leave tree := by
    cases tree
    rw [Compiler.walk, Compiler.walkAll_eq_run]
  rw [walked] at clean ⊢
  have start := (compiler.enter tree).faults_le_run inside
  have final := ((compiler.enter tree).run inside).faults_le_step (.leave tree)
  have cleanInside : ((compiler.enter tree).run inside).state.faults = (compiler.enter tree).state.faults := by
    simp only [Compiler.step] at final
    omega
  have cleanEnd : (((compiler.enter tree).run inside).leave tree).state.faults =
      ((compiler.enter tree).run inside).state.faults := by omega
  generalize compiler.enter tree = entered at opened cleanInside cleanEnd
  refine ⟨?_, ?_⟩
  · intro separate
    obtain ⟨state, _⟩ := entered
    cases opened
    obtain ⟨throughout, scope', continues, stack⟩ :=
      Compiler.walkAll_lives underway inner tree.children cleanInside separate
    refine ⟨throughout, ⟨scope', continues, stack⟩, ?_⟩
    generalize Compiler.run ⟨state, scope :: parent :: below⟩ inside = settled at stack cleanEnd
    obtain ⟨state', _⟩ := settled
    cases stack
    have underway := underway.replace continues.kind continues.valid
    refine Compiler.leave_closes underway ?_ (continues.level.trans level) cleanEnd
    rwa [continues.endTag, endTag]
  · intro leaf nested
    exact Compiler.exists_leaf_closes opened underway leaf (Tree.exists_end_of_any nested) cleanInside

/-- A record in assignment notation keeps its scope. A reference in it that has a body as its argument loses its scope
    at the end of the argument. -/
theorem body_scope_lifetime_argument :
    let symbols : Symbols :=
      { entries := [Builtin.integer.entry, ⟨"R", "R", some (.record [⟨"a", ⟨0⟩⟩, ⟨"b", ⟨0⟩⟩])⟩]
        builtins := [("integer", ⟨0⟩)]
        declared := [("R", ⟨1⟩)]
        constants := ["c"] }
    let record : Tree := .ofFields [("a", .ofReference "c"), ("b", .ofLiteral "2")]
    let reference := Tree.ofShape ⟨.specific, [⟨.reference "c", [.ofAny]⟩]⟩
    let first : List Event :=
      [.enter ⟨.definition, []⟩, .enter (.ofType (.declared "R")), .leave (.ofType (.declared "R"))]
    let second : List Event := first ++ [.enter record, .enter (.ofName "a"), .leave (.ofName "a")]
    let before := (Compiler.new symbols).run first
    let within := (Compiler.new symbols).run second
    (∃ scope parent, ((before.enter record).run (Tree.allEvents record.children)).stack = [scope, parent] ∧
      ∃ parent', (before.walk record).stack = [parent']) ∧
    ∃ scope parent below, (within.enter reference).stack = scope :: parent :: below ∧ scope.isLeaf = true ∧
      ∃ early nested late, Tree.allEvents reference.children = early ++ .leave nested :: late ∧
        ∃ parent', (((within.enter reference).run early).leave nested).stack = parent' :: below := by
  intro symbols record reference first second before within
  refine ⟨?_, ?_⟩
  · have lifetime := body_scope_lifetime symbols first before rfl record rfl _ _ _ _ rfl rfl (by decide +kernel)
    obtain ⟨-, ⟨scope, -, stack⟩, parent', -, stack'⟩ := lifetime.1 (by decide +kernel)
    exact ⟨scope, _, stack, parent', stack'⟩
  · have lifetime := body_scope_lifetime symbols second within rfl reference rfl _ _ _ _ rfl rfl (by decide +kernel)
    obtain ⟨early, nested, late, split, -, -, -, parent', -, stack⟩ := lifetime.2 rfl rfl
    exact ⟨_, _, _, rfl, rfl, early, nested, late, split, parent', stack⟩

/-- The scope of a body need not live as long as the body: a reference with a body as its argument is walked without a
    fault, and its scope is gone before its body is left, whose end then closes the scope of the record around it. The
    template that is registered in the end has the name of a field. -/
theorem body_scope_closes_early :
    let symbols : Symbols :=
      { entries := [Builtin.integer.entry, ⟨"R", "R", some (.record [⟨"a", ⟨0⟩⟩, ⟨"b", ⟨0⟩⟩])⟩]
        builtins := [("integer", ⟨0⟩)]
        declared := [("R", ⟨1⟩)]
        constants := ["c"] }
    let reference (arguments : List Tree) := Tree.ofShape ⟨.specific, [⟨.reference "c", arguments⟩]⟩
    let record (arguments : List Tree) : Tree := .ofFields [("a", reference arguments), ("b", .ofLiteral "2")]
    let definition (arguments : List Tree) := Tree.ofDefinition (.declared "R") "t" [] none (record arguments)
    let history : List Event :=
      [.enter ⟨.definition, []⟩, .enter (.ofType (.declared "R")), .leave (.ofType (.declared "R")),
        .enter (record []), .enter (.ofName "a"), .leave (.ofName "a")]
    let compiler := (Compiler.new symbols).run history
    let entered := compiler.enter (reference [.ofAny])
    entered.stack.map Scope.label = ["SpecificValueParser", "NamedTemplateListParser", "TemplateParser"] ∧
      (compiler.walk (reference [.ofAny])).state.faults = compiler.state.faults ∧
      (entered.walkAll (reference [.ofAny]).children).stack.map Scope.label =
        ["NamedTemplateListParser", "TemplateParser"] ∧
      (compiler.walk (reference [.ofAny])).stack.map Scope.label = ["TemplateParser"] ∧
      (compile symbols (.ofModule "M" [definition []])).registry.templates.map Template.name = ["t"] ∧
      (compile symbols (.ofModule "M" [definition [.ofAny]])).registry.templates.map Template.name = ["b"] := by
  decide +kernel

end TtcnTemplates
