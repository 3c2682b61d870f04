import TtcnTemplates.Proofs.Skipping

/-! # One definition at a time

While a definition is read no scope outlives the node that it was opened for: walking a tree leaves the scopes that
were there, or fewer, the innermost of them with what it has gathered (`Settles`). A scope may well close early on an
ill-shaped tree, and the scopes below it may then close early too, but the definition itself stays. After a fault what
is left of the definition is passed over. So a definition ends in one of two ways, and both leave no scope open: its
template is registered, or one fault is reported and nothing after it.
-/

namespace TtcnTemplates

/-! ### What is in a tree -/

mutual
/-- Whether a tree has a node of the given construct. -/
def Tree.has (tag : Tag) : Tree → Bool
  | ⟨form, children⟩ => form.tag == tag || Tree.anyHas tag children

/-- Whether one of the trees has a node of the given construct. -/
def Tree.anyHas (tag : Tag) : List Tree → Bool
  | [] => false
  | tree :: rest => tree.has tag || Tree.anyHas tag rest
end

mutual
/-- The bases that the nodes of a tree name. -/
def Tree.bases : Tree → List String
  | ⟨form, children⟩ => form.bases ++ Tree.allBases children

/-- The bases that the nodes of trees name. -/
def Tree.allBases : List Tree → List String
  | [] => []
  | tree :: rest => tree.bases ++ Tree.allBases rest
end

/-! ### Passing over trees -/

namespace Compiler

theorem walkAll_append (compiler : Compiler) (first second : List Tree) :
    compiler.walkAll (first ++ second) = (compiler.walkAll first).walkAll second := by
  induction first generalizing compiler with
  | nil => rfl
  | cons tree rest ih => exact ih (compiler.walk tree)

/-- After a fault, whatever is left of the definition is passed over. -/
theorem walk_recover (state : State) (fault : Fault) (tree : Tree) :
    walk (recover state fault false) tree = recover state fault false := (Counter.skip .definition).walk _ 0 [] tree

theorem walkAll_recover (state : State) (fault : Fault) (trees : List Tree) :
    walkAll (recover state fault false) trees = recover state fault false :=
  (Counter.skip .definition).walkAll _ 0 [] trees

theorem leave_recover {tree : Tree} (inside : tree.is .definition = false) (state : State) (fault : Fault) :
    leave (recover state fault false) tree = recover state fault false := leave_skip_away inside _ _ _

end Compiler

/-! ### Scopes that go on -/

/-- The scopes before and after a tree is walked: some are closed, and the innermost of the others has gathered more. -/
inductive Settles : List Scope → List Scope → Prop
  | top {before after : Scope} {below : List Scope} (continues : before.Continues after) :
      Settles (before :: below) (after :: below)
  | pop {scope : Scope} {below stack : List Scope} (rest : Settles below stack) : Settles (scope :: below) stack

namespace Settles

theorem trans {first second third : List Scope} (left : Settles first second) (right : Settles second third) :
    Settles first third := by
  induction left with
  | top continues =>
    cases right with
    | top more => exact .top (continues.trans more)
    | pop rest => exact .pop rest
  | pop rest ih => exact .pop (ih right)

/-- Where no scope counts, the innermost scope that is left does not count either. -/
theorem level {before after : List Scope} {scope : Scope} {below : List Scope} (settles : Settles before after)
    (levels : ∀ lower ∈ before, lower.level = 0) (stack : after = scope :: below) : scope.level = 0 := by
  induction settles with
  | top continues =>
    cases stack
    rw [continues.level]
    exact levels _ List.mem_cons_self
  | pop rest ih => exact ih (fun lower member => levels lower (List.mem_cons_of_mem _ member)) stack

end Settles

/-- What walking trees does while a definition is read, in two states that scopes cannot tell apart. -/
inductive WalkCases (left right : State) (stack : List Scope) : Compiler → Compiler → Prop
  | drop (updates : List Update) (fault : Fault) :
      WalkCases left right stack (Compiler.recover (left.applyAll updates) fault false)
        (Compiler.recover (right.applyAll updates) fault false)
  | proceed (updates : List Update) (after : List Scope) (underway : Underway after) (settles : Settles stack after) :
      WalkCases left right stack ⟨left.applyAll updates, after⟩ ⟨right.applyAll updates, after⟩

namespace WalkCases

/-- Updates and closed scopes before a walk belong to what the walk does. -/
theorem after {left right : State} {before stack : List Scope} {first second : Compiler} (updates : List Update)
    (settles : ∀ after, Settles stack after → Settles before after)
    (walked : WalkCases (left.applyAll updates) (right.applyAll updates) stack first second) :
    WalkCases left right before first second := by
  cases walked with
  | drop more fault =>
    simp only [← State.applyAll_append]
    exact .drop _ fault
  | proceed more after underway rest =>
    simp only [← State.applyAll_append]
    exact .proceed _ after underway (settles after rest)

end WalkCases

namespace Compiler

/-- Leaving a node at most closes the innermost scope. If that scope was `before` when the node was entered and stays,
    its count must come back to what it was. -/
theorem leave_settles {left right : State} (symbols : left.symbols = right.symbols) {tree : Tree}
    (inside : tree.is .definition = false) {before scope : Scope} {below : List Scope}
    (underway : Underway (scope :: below)) (kind : scope.kind = before.kind) (endTag : scope.endTag = before.endTag)
    (back : ∀ level, scope.level = (level + if tree.is scope.endTag then 1 else 0) → level = before.level) :
    WalkCases left right (before :: below) (leave ⟨left, scope :: below⟩ tree)
      (leave ⟨right, scope :: below⟩ tree) := by
  have outcome : LeaveCases left right tree scope below _ _ := leave_cases symbols tree underway
  generalize leave ⟨left, scope :: below⟩ tree = first at outcome
  generalize leave ⟨right, scope :: below⟩ tree = second at outcome
  cases outcome with
  | drop fault external =>
    rw [inside]
    exact .drop [] fault
  | stay updates after fits =>
    obtain ⟨kind', endTag', valid, counted, -⟩ := fits
    exact .proceed updates _ (underway.replace kind' valid)
      (.top ⟨kind'.trans kind, endTag'.trans endTag, back _ counted, valid⟩)
  | close updates after ends _ continues =>
    cases underway with
    | push rest awaits valid =>
      exact .proceed updates _ (rest.replace continues.kind continues.valid) (.pop (.top continues))
  | register updates template ends cleared => simp [inside] at ends

/-- The count of a scope that has counted a node comes back when the node is left. -/
theorem level_of_counted {before scope : Scope} {tree : Tree} {level : Nat} (endTag : scope.endTag = before.endTag)
    (counted : scope.level = before.level + if before.counts && tree.is before.endTag then 1 else 0)
    (left : scope.level = level + if tree.is scope.endTag then 1 else 0) : level = before.level := by
  rw [endTag, counted] at left
  cases counts : before.counts with
  | true =>
    simp only [counts, Bool.true_and] at left
    omega
  | false =>
    have none := before.level_of_not_counts counts
    simp only [counts, Bool.false_and, Bool.false_eq_true, if_false] at left
    omega

/-- Leaving a node whose scope has outlived everything below the node closes that scope. -/
theorem leave_opened {left right : State} (symbols : left.symbols = right.symbols) {tree : Tree}
    (inside : tree.is .definition = false) {scope parent : Scope} {below : List Scope}
    (underway : Underway (scope :: parent :: below)) (level : scope.level = 0) (endTag : scope.endTag = tree.tag) :
    WalkCases left right (parent :: below) (leave ⟨left, scope :: parent :: below⟩ tree)
      (leave ⟨right, scope :: parent :: below⟩ tree) := by
  have outcome : LeaveCases left right tree scope (parent :: below) _ _ := leave_cases symbols tree underway
  generalize leave ⟨left, scope :: parent :: below⟩ tree = first at outcome
  generalize leave ⟨right, scope :: parent :: below⟩ tree = second at outcome
  cases outcome with
  | drop fault external =>
    rw [inside]
    exact .drop [] fault
  | stay updates after fits =>
    have ends : tree.is scope.endTag = true := Tree.is_iff.mpr endTag.symm
    obtain ⟨-, -, -, counted, -⟩ := fits
    rw [ends, level] at counted
    simp at counted
  | close updates after ends _ continues =>
    cases underway with
    | push rest awaits valid =>
      exact .proceed updates _ (rest.replace continues.kind continues.valid) (.top continues)

/-- Where some scope has closed early, leaving a node closes at most one more. -/
theorem leave_exposed {left right : State} (symbols : left.symbols = right.symbols) {tree : Tree}
    (inside : tree.is .definition = false) {before stack : List Scope} (settles : Settles before stack)
    (levels : ∀ scope ∈ before, scope.level = 0) (underway : Underway stack) :
    WalkCases left right before (leave ⟨left, stack⟩ tree) (leave ⟨right, stack⟩ tree) := by
  cases stack with
  | nil => cases underway
  | cons scope below =>
    have level := settles.level levels rfl
    have outcome : WalkCases left right (scope :: below) _ _ :=
      leave_settles symbols inside underway rfl rfl (fun _ _ => by omega)
    exact WalkCases.after [] (fun _ rest => settles.trans rest) outcome

/-- Leaving a node after everything below it: the scope that was opened for the node is closed. -/
theorem leave_children {left right : State} (symbols : left.symbols = right.symbols) {tree : Tree}
    (inside : tree.is .definition = false) {scope after : Scope} {opened : Option Scope} {below : List Scope}
    (underway : Underway (scope :: below)) (fits : Entry.Fits scope tree ⟨left, after, opened⟩)
    {first second : Compiler} (walked : WalkCases left right (opened.toList ++ after :: below) first second) :
    WalkCases left right (scope :: below) (first.leave tree) (second.leave tree) := by
  cases walked with
  | drop updates fault =>
    rw [leave_recover inside, leave_recover inside]
    exact .drop updates fault
  | proceed updates stack underway' settles =>
    have symbols' : (left.applyAll updates).symbols = (right.applyAll updates).symbols := by simpa using symbols
    cases opened with
    | none =>
      cases settles with
      | top continues =>
        have counted := continues.level.trans fits.level
        exact WalkCases.after updates (fun _ => id) (leave_settles symbols' inside underway'
          (continues.kind.trans fits.kind) (continues.endTag.trans fits.endTag)
          (fun _ => level_of_counted (continues.endTag.trans fits.endTag) counted))
      | pop rest =>
        exact WalkCases.after updates (fun _ => .pop)
          (leave_exposed symbols' inside rest underway.level_of_mem underway')
    | some opened =>
      obtain ⟨kind, opens, awaits⟩ := fits.opened opened rfl
      -- A scope that opens another one does not count, so it is the same scope as before.
      have idle : after.level = 0 := Scope.level_of_awaits awaits
      have counted : after.level = scope.level + _ := fits.level
      have continues : scope.Continues after := ⟨fits.kind, fits.endTag, by omega, fits.valid⟩
      have kept : ∀ stack, Settles (after :: below) stack → Settles (scope :: below) stack :=
        fun _ rest => (Settles.top continues).trans rest
      cases settles with
      | top same =>
        exact WalkCases.after updates kept (leave_opened symbols' inside underway'
          (same.level.trans opens.level) (same.endTag.trans opens.endTag))
      | pop rest =>
        refine WalkCases.after updates kept (leave_exposed symbols' inside rest ?_ underway')
        intro lower member
        rcases List.mem_cons.mp member with rfl | deeper
        · exact idle
        · exact underway.level_of_mem lower deeper

mutual
/-- While a definition is read, walking a tree leaves the scopes that were there or fewer, or it drops the
    definition. -/
theorem walk_cases {bases : List String} {left right : State} (agree : left.Agree bases right) {stack : List Scope}
    (underway : Underway stack) (tree : Tree) (inside : tree.has .definition = false) (seen : tree.bases ⊆ bases) :
    WalkCases left right stack (walk ⟨left, stack⟩ tree) (walk ⟨right, stack⟩ tree) := by
  cases tree with
  | mk form children =>
    simp only [Tree.has, Bool.or_eq_false_iff] at inside
    obtain ⟨seenHere, seenBelow⟩ := List.append_subset.mp seen
    have here : Tree.is ⟨form, children⟩ .definition = false := inside.1
    cases stack with
    | nil => cases underway
    | cons scope below =>
      have entered : EnterCases left right ⟨form, children⟩ scope below _ _ :=
        enter_cases agree ⟨form, children⟩ seenHere underway.valid
      rw [walk, walk]
      generalize enter ⟨left, scope :: below⟩ ⟨form, children⟩ = first at entered
      generalize enter ⟨right, scope :: below⟩ ⟨form, children⟩ = second at entered
      cases entered with
      | drop fault external =>
        rw [walkAll_recover, walkAll_recover, leave_recover here, leave_recover here]
        exact .drop [] fault
      | proceed updates after opened fits =>
        have kept : Underway (opened.toList ++ after :: below) := underway.enter (fits left)
        have walked := walkAll_cases (agree.applyAll updates) kept children inside.2 seenBelow
        exact WalkCases.after updates (fun _ => id)
          (leave_children (agree.applyAll updates).symbols here underway (fits _) walked)

/-- While a definition is read, walking trees leaves the scopes that were there or fewer, or it drops the
    definition. -/
theorem walkAll_cases {bases : List String} {left right : State} (agree : left.Agree bases right)
    {stack : List Scope} (underway : Underway stack) (trees : List Tree)
    (inside : Tree.anyHas .definition trees = false) (seen : Tree.allBases trees ⊆ bases) :
    WalkCases left right stack (walkAll ⟨left, stack⟩ trees) (walkAll ⟨right, stack⟩ trees) := by
  cases trees with
  | nil =>
    cases stack with
    | nil => cases underway
    | cons scope below => exact .proceed [] _ underway (.top (.refl underway.valid))
  | cons tree rest =>
    simp only [Tree.anyHas, Bool.or_eq_false_iff] at inside
    obtain ⟨seenHere, seenLater⟩ := List.append_subset.mp seen
    have walked := walk_cases agree underway tree inside.1 seenHere
    rw [walkAll, walkAll]
    generalize walk ⟨left, stack⟩ tree = first at walked
    generalize walk ⟨right, stack⟩ tree = second at walked
    cases walked with
    | drop updates fault =>
      rw [walkAll_recover, walkAll_recover]
      exact .drop updates fault
    | proceed updates after underway settles =>
      exact WalkCases.after updates (fun _ rest => settles.trans rest)
        (walkAll_cases (agree.applyAll updates) underway rest inside.2 seenLater)
end

end Compiler

/-! ### What a definition adds -/

/-- A definition with no definition inside. -/
structure Tree.IsDefinition (tree : Tree) : Prop where
  root : tree.is .definition = true
  inside : Tree.anyHas .definition tree.children = false

instance (tree : Tree) : Decidable tree.IsDefinition :=
  decidable_of_iff (tree.is .definition = true ∧ Tree.anyHas .definition tree.children = false)
    ⟨fun both => ⟨both.1, both.2⟩, fun definition => ⟨definition.root, definition.inside⟩⟩

/-- The templates and diagnostics that a definition adds to the registry. -/
structure Contribution where
  templates : List Template
  diagnostics : List Diagnostic

/-- A definition either has its template registered, or it is dropped by one fault, which is reported last. -/
inductive Contribution.Settled : Contribution → Prop
  | registered (template : Template) {remarks : List Diagnostic}
      (mild : ∀ remark ∈ remarks, remark.isError = false) : Settled ⟨[template], remarks⟩
  | dropped {remarks : List Diagnostic} (mild : ∀ remark ∈ remarks, remark.isError = false) (name : Option String)
      (fault : Fault) : Settled ⟨[], remarks ++ [⟨name, .fault fault⟩]⟩

/-- The state before a definition and the compiler after it. Nothing of the definition is left but what it adds. -/
structure Contribution.Adds (contribution : Contribution) (before : State) (after : Compiler) : Prop where
  stack : after.stack = []
  symbols : after.state.symbols = before.symbols
  parameters : after.state.parameters = []
  templates : after.state.registry.templates = before.registry.templates ++ contribution.templates
  diagnostics : after.state.registry.diagnostics = before.registry.diagnostics ++ contribution.diagnostics
  indexed : before.registry.Indexed → after.state.registry.Indexed

namespace Contribution

theorem adds_template (before : State) (updates : List Update) (template : Template)
    (cleared : (before.applyAll updates).parameters = []) :
    Adds ⟨[template], reported before.current updates⟩ before ⟨(before.applyAll updates).register template, []⟩ where
  stack := rfl
  symbols := before.applyAll_symbols updates
  parameters := cleared
  templates := congrArg (· ++ [template]) (before.applyAll_templates updates)
  diagnostics := before.applyAll_diagnostics updates
  indexed indexed := (indexed.applyAll updates).add template

theorem adds_fault (before : State) (updates : List Update) (fault : Fault) :
    Adds ⟨[], reported before.current updates ++ [⟨(before.applyAll updates).current, .fault fault⟩]⟩ before
      (Compiler.recover (before.applyAll updates) fault true) where
  stack := rfl
  symbols := before.applyAll_symbols updates
  parameters := rfl
  templates := by
    rw [List.append_nil]
    exact before.applyAll_templates updates
  diagnostics := by
    rw [← List.append_assoc, ← State.applyAll_diagnostics]
    rfl
  indexed indexed := indexed.applyAll updates

/-- A definition that is dropped adds the same in two states that scopes cannot tell apart. -/
theorem exists_adds_fault {bases : List String} {left right : State} (agree : left.Agree bases right)
    (updates : List Update) (fault : Fault) :
    ∃ contribution : Contribution, contribution.Settled ∧
      contribution.Adds left (Compiler.recover (left.applyAll updates) fault true) ∧
      contribution.Adds right (Compiler.recover (right.applyAll updates) fault true) := by
  refine ⟨_, .dropped (fun _ => isError_of_mem_reported) _ fault, adds_fault left updates fault, ?_⟩
  rw [agree.current, (agree.applyAll updates).current]
  exact adds_fault right updates fault

/-- The log is not part of what is added. -/
theorem Adds.note {contribution : Contribution} {before state : State} (adds : contribution.Adds before ⟨state, []⟩)
    (notice : Notice) : contribution.Adds before ⟨state.note notice, []⟩ :=
  ⟨rfl, adds.symbols, adds.parameters, adds.templates, adds.diagnostics, adds.indexed⟩

/-- What is added does not depend on the rest of the state before. -/
theorem Adds.of_cleared {contribution : Contribution} {before cleared : State} {after : Compiler}
    (adds : contribution.Adds cleared after) (symbols : cleared.symbols = before.symbols)
    (registry : cleared.registry = before.registry) : contribution.Adds before after where
  stack := adds.stack
  symbols := adds.symbols.trans symbols
  parameters := adds.parameters
  templates := registry ▸ adds.templates
  diagnostics := registry ▸ adds.diagnostics
  indexed := registry ▸ adds.indexed

end Contribution

namespace Compiler

/-- Leaving a definition after everything below it. -/
theorem leave_definition {left right : State} {bases : List String} (agree : left.Agree bases right) {tree : Tree}
    (root : tree.is .definition = true) {first second : Compiler}
    (walked : WalkCases left right [.definition {} none false] first second) :
    ∃ contribution : Contribution, contribution.Settled ∧ contribution.Adds left (first.leave tree) ∧
      contribution.Adds right (second.leave tree) := by
  cases walked with
  | drop updates fault =>
    -- What is left of the definition has been passed over, up to its end.
    obtain ⟨contribution, settled, first, second⟩ := Contribution.exists_adds_fault agree updates fault
    simp only [recover, Bool.false_eq_true, if_false, leave_skip_end root]
    exact ⟨contribution, settled, first.note _, second.note _⟩
  | proceed updates stack underway settles =>
    cases settles with
    | pop rest => cases rest
    | @top _ scope _ continues =>
      have outcome : LeaveCases _ _ tree scope [] _ _ :=
        leave_cases (agree.applyAll updates).symbols tree underway
      generalize leave ⟨left.applyAll updates, [scope]⟩ tree = first at outcome
      generalize leave ⟨right.applyAll updates, [scope]⟩ tree = second at outcome
      cases outcome with
      | drop fault external =>
        rw [root]
        exact Contribution.exists_adds_fault agree updates fault
      | stay more after fits =>
        -- The scope of a definition does not count, so it closes here.
        have ends : tree.is scope.endTag = true := continues.endTag ▸ root
        have level : scope.level = 0 := continues.level
        obtain ⟨-, -, -, counted, -⟩ := fits
        rw [ends, level] at counted
        simp at counted
      | register more template ends cleared =>
        simp only [← State.applyAll_append] at cleared ⊢
        refine ⟨_, .registered template (fun _ => isError_of_mem_reported),
          Contribution.adds_template left (updates ++ more) template ?_, ?_⟩
        · rw [State.applyAll_append]
          exact cleared _
        · rw [agree.current]
          refine Contribution.adds_template right (updates ++ more) template ?_
          rw [State.applyAll_append]
          exact cleared _

/-- A definition adds the same after two histories that know the same of the bases which it names. -/
theorem walk_definition {left right : State} (symbols : left.symbols = right.symbols) {tree : Tree}
    (definition : tree.IsDefinition)
    (known : ∀ base ∈ tree.bases, (left.registry.find? base).isSome = (right.registry.find? base).isSome) :
    ∃ contribution : Contribution, contribution.Settled ∧ contribution.Adds left (walk ⟨left, []⟩ tree) ∧
      contribution.Adds right (walk ⟨right, []⟩ tree) := by
  obtain ⟨root, inside⟩ := definition
  obtain ⟨form, children⟩ := tree
  cases form with
  | definition =>
    -- Whatever was left of the parameters and the current name is cleared first.
    let cleared (state : State) := state.clear.note (.entered (Scope.definition {} none false).label .definition)
    have agree : (cleared left).Agree (Tree.allBases children) (cleared right) := ⟨symbols, rfl, rfl, known⟩
    have walked := walkAll_cases agree (.definition {} none false) children inside (List.Subset.refl _)
    obtain ⟨contribution, settled, first, second⟩ := leave_definition agree root walked
    rw [walk, walk]
    exact ⟨contribution, settled, first.of_cleared rfl rfl, second.of_cleared rfl rfl⟩
  | _ => cases root

end Compiler

/-- The compiler where the definitions of a module begin. -/
def Compiler.start (symbols : Symbols) (name : String) : Compiler := ⟨State.setName { symbols } name, []⟩

/-- Where its definitions leave no scope open, the state after a module is the one after its definitions. -/
theorem compile_ofModule {symbols : Symbols} {name : String} {definitions : List Tree}
    (idle : ((Compiler.start symbols name).walkAll definitions).stack = []) :
    compile symbols (Tree.ofModule name definitions) = ((Compiler.start symbols name).walkAll definitions).state := by
  change (((Compiler.start symbols name).walkAll definitions).leave _).finish = _
  generalize (Compiler.start symbols name).walkAll definitions = last at idle
  obtain ⟨state, stack⟩ := last
  cases idle
  rfl

/-- From any state with no open scope, a definition leaves no scope and no formal parameter behind. It adds one
    template and no fault, or no template and one fault, after which nothing more is reported. -/
theorem walk_definition_registers_or_drops (compiler : Compiler) (idle : compiler.stack = []) (tree : Tree)
    (definition : tree.IsDefinition) :
    (compiler.walk tree).stack = [] ∧ (compiler.walk tree).state.parameters = [] ∧
      ∃ templates diagnostics,
        (compiler.walk tree).state.registry.templates = compiler.state.registry.templates ++ templates ∧
        (compiler.walk tree).state.registry.diagnostics = compiler.state.registry.diagnostics ++ diagnostics ∧
        ((∃ template, templates = [template]) ∧ (∀ diagnostic ∈ diagnostics, diagnostic.isError = false) ∨
          templates = [] ∧ ∃ remarks error, diagnostics = remarks ++ [error] ∧ error.isError = true ∧
            ∀ remark ∈ remarks, remark.isError = false) := by
  obtain ⟨state, stack⟩ := compiler
  cases idle
  obtain ⟨contribution, settled, adds, -⟩ := Compiler.walk_definition rfl definition fun _ _ => rfl
  refine ⟨adds.stack, adds.parameters, _, _, adds.templates, adds.diagnostics, ?_⟩
  cases settled with
  | registered template mild => exact .inl ⟨⟨template, rfl⟩, mild⟩
  | dropped mild name fault => exact .inr ⟨rfl, _, _, rfl, rfl, mild⟩

/-- A definition whose body has a body in place of its shape and whose type comes too late is dropped, and the template
    before it stays. -/
theorem walk_definition_registers_or_drops_ill_shaped :
    let integer := TypeUse.builtin "integer"
    let compiler := (Compiler.new ⟨[Builtin.integer.entry], [("integer", ⟨0⟩)], [], []⟩).walk
      (Tree.ofDefinition integer "first" [(integer, "parameter")] none .ofAny)
    let tree : Tree := ⟨.definition, [.ofName "second", ⟨.body, [.ofShape (.leaf (.base "first"))]⟩, .ofType integer]⟩
    compiler.stack = [] ∧ tree.IsDefinition ∧
      (compiler.walk tree).stack = [] ∧ (compiler.walk tree).state.parameters = [] ∧
      ∃ diagnostics,
        (compiler.walk tree).state.registry.templates = compiler.state.registry.templates ∧
        (compiler.walk tree).state.registry.diagnostics = compiler.state.registry.diagnostics ++ diagnostics ∧
        ∃ remarks error, diagnostics = remarks ++ [error] ∧ error.isError = true ∧
          ∀ remark ∈ remarks, remark.isError = false := by
  intro integer compiler tree
  have idle : compiler.stack = [] := rfl
  have definition : tree.IsDefinition := by decide
  have none : (compiler.walk tree).state.registry.templates.length = compiler.state.registry.templates.length := rfl
  obtain ⟨stack, parameters, templates, diagnostics, appended, reported, ⟨⟨template, rfl⟩, -⟩ | ⟨rfl, dropped⟩⟩ :=
    walk_definition_registers_or_drops compiler idle tree definition
  · rw [appended, List.length_append] at none
    exact absurd none (Nat.succ_ne_self _)
  · rw [List.append_nil] at appended
    exact ⟨idle, definition, stack, parameters, diagnostics, appended, reported, dropped⟩

end TtcnTemplates
