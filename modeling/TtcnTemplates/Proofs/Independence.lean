import TtcnTemplates.Proofs.Recovery

/-! # Definitions are independent

What a definition adds to the registry depends on the definitions before it only through the names of their templates,
and only where it names one of these as its base. So the definitions of a module can be read as a list of contributions
in which one that is dropped can be left out, and two neighbours that do not build on each other can change places.
-/

namespace TtcnTemplates

namespace Compiler

/-- Between two definitions: no scope is open. -/
structure Idle (compiler : Compiler) : Prop where
  stack : compiler.stack = []
  indexed : compiler.state.registry.Indexed

/-- Two compilers between definitions that know the same types and the same template names. -/
structure Alike (left right : Compiler) : Prop where
  leftIdle : left.Idle
  rightIdle : right.Idle
  symbols : left.state.symbols = right.state.symbols
  known : ∀ name, Template.anyNamed left.state.registry.templates name =
    Template.anyNamed right.state.registry.templates name

/-- What a tree adds to the registry. -/
def contribution (compiler : Compiler) (tree : Tree) : Contribution where
  templates := (compiler.walk tree).state.registry.templates.drop compiler.state.registry.templates.length
  diagnostics := (compiler.walk tree).state.registry.diagnostics.drop compiler.state.registry.diagnostics.length

/-- What each of the trees adds to the registry, walked in order. -/
def contributions (compiler : Compiler) : List Tree → List Contribution
  | [] => []
  | tree :: rest => compiler.contribution tree :: (compiler.walk tree).contributions rest

end Compiler

theorem Contribution.Adds.contribution_eq {contribution : Contribution} {compiler : Compiler} {tree : Tree}
    (adds : contribution.Adds compiler.state (compiler.walk tree)) : compiler.contribution tree = contribution := by
  simp [Compiler.contribution, adds.templates, adds.diagnostics]

namespace Compiler

/-! ### One definition -/

/-- A definition adds the same to two compilers that know the same of the bases which it names. -/
theorem contribution_same {left right : Compiler} (leftIdle : left.Idle) (rightIdle : right.Idle)
    (symbols : left.state.symbols = right.state.symbols) {tree : Tree} (definition : tree.IsDefinition)
    (known : ∀ base ∈ tree.bases, Template.anyNamed left.state.registry.templates base =
      Template.anyNamed right.state.registry.templates base) :
    (left.contribution tree).Settled ∧ left.contribution tree = right.contribution tree ∧
      (left.contribution tree).Adds left.state (left.walk tree) ∧
      (left.contribution tree).Adds right.state (right.walk tree) := by
  have found : ∀ base ∈ tree.bases,
      (left.state.registry.find? base).isSome = (right.state.registry.find? base).isSome := by
    intro base named
    rw [leftIdle.indexed.isSome_find?, rightIdle.indexed.isSome_find?, known base named]
  obtain ⟨leftState, leftStack⟩ := left
  obtain ⟨rightState, rightStack⟩ := right
  cases leftIdle.stack
  cases rightIdle.stack
  obtain ⟨contribution, settled, first, second⟩ := walk_definition symbols definition found
  rw [first.contribution_eq, second.contribution_eq]
  exact ⟨settled, rfl, first, second⟩

theorem Idle.adds {compiler : Compiler} (idle : compiler.Idle) {tree : Tree} (definition : tree.IsDefinition) :
    (compiler.contribution tree).Settled ∧ (compiler.contribution tree).Adds compiler.state (compiler.walk tree) := by
  obtain ⟨settled, -, adds, -⟩ := contribution_same idle idle rfl definition fun _ _ => rfl
  exact ⟨settled, adds⟩

theorem Idle.walk {compiler : Compiler} (idle : compiler.Idle) {tree : Tree} (definition : tree.IsDefinition) :
    (compiler.walk tree).Idle :=
  have adds := (idle.adds definition).2
  ⟨adds.stack, adds.indexed idle.indexed⟩

/-- Compilers stay alike over a definition, and it adds the same to both. -/
theorem Alike.walk {left right : Compiler} (alike : left.Alike right) {tree : Tree} (definition : tree.IsDefinition) :
    left.contribution tree = right.contribution tree ∧ (left.walk tree).Alike (right.walk tree) := by
  obtain ⟨-, same, first, second⟩ := contribution_same alike.leftIdle alike.rightIdle alike.symbols definition
    fun base _ => alike.known base
  refine ⟨same, alike.leftIdle.walk definition, alike.rightIdle.walk definition, ?_, ?_⟩
  · rw [first.symbols, second.symbols, alike.symbols]
  · intro name
    rw [first.templates, second.templates, Template.anyNamed_append, Template.anyNamed_append, alike.known]

/-! ### Lists of definitions -/

theorem contributions_append (compiler : Compiler) (first second : List Tree) :
    compiler.contributions (first ++ second) =
      compiler.contributions first ++ (compiler.walkAll first).contributions second := by
  induction first generalizing compiler with
  | nil => rfl
  | cons tree rest ih => exact congrArg (compiler.contribution tree :: ·) (ih (compiler.walk tree))

@[simp] theorem length_contributions (compiler : Compiler) (trees : List Tree) :
    (compiler.contributions trees).length = trees.length := by
  induction trees generalizing compiler with
  | nil => rfl
  | cons tree rest ih => exact congrArg (· + 1) (ih (compiler.walk tree))

theorem Idle.walkAll {compiler : Compiler} (idle : compiler.Idle) {trees : List Tree}
    (definitions : ∀ tree ∈ trees, tree.IsDefinition) : (compiler.walkAll trees).Idle := by
  induction trees generalizing compiler with
  | nil => exact idle
  | cons tree rest ih =>
    obtain ⟨definition, definitions⟩ := List.forall_mem_cons.mp definitions
    exact ih (idle.walk definition) definitions

/-- The registry after definitions is what it was, with their contributions in order. -/
theorem Idle.registry_walkAll {compiler : Compiler} (idle : compiler.Idle) {trees : List Tree}
    (definitions : ∀ tree ∈ trees, tree.IsDefinition) :
    (compiler.walkAll trees).state.registry.templates =
        compiler.state.registry.templates ++ (compiler.contributions trees).flatMap Contribution.templates ∧
      (compiler.walkAll trees).state.registry.diagnostics =
        compiler.state.registry.diagnostics ++ (compiler.contributions trees).flatMap Contribution.diagnostics := by
  induction trees generalizing compiler with
  | nil => simp [Compiler.walkAll, contributions]
  | cons tree rest ih =>
    obtain ⟨definition, definitions⟩ := List.forall_mem_cons.mp definitions
    obtain ⟨-, adds⟩ := idle.adds definition
    obtain ⟨templates, diagnostics⟩ := ih (idle.walk definition) definitions
    rw [Compiler.walkAll, templates, diagnostics, adds.templates, adds.diagnostics]
    simp [contributions]

/-- Definitions add the same to compilers that are alike. -/
theorem Alike.contributions {left right : Compiler} (alike : left.Alike right) {trees : List Tree}
    (definitions : ∀ tree ∈ trees, tree.IsDefinition) : left.contributions trees = right.contributions trees := by
  induction trees generalizing left right with
  | nil => rfl
  | cons tree rest ih =>
    obtain ⟨definition, definitions⟩ := List.forall_mem_cons.mp definitions
    obtain ⟨same, alike⟩ := alike.walk definition
    rw [Compiler.contributions, Compiler.contributions, same, ih alike definitions]

/-! ### Leaving out and changing places -/

/-- A definition that reports a fault leaves a compiler that is alike. -/
theorem Idle.alike_of_isError {compiler : Compiler} (idle : compiler.Idle) {tree : Tree}
    (definition : tree.IsDefinition) {error : Diagnostic} (member : error ∈ (compiler.contribution tree).diagnostics)
    (isError : error.isError = true) :
    (compiler.contribution tree).templates = [] ∧ (compiler.walk tree).Alike compiler := by
  obtain ⟨settled, adds⟩ := idle.adds definition
  have dropped : (compiler.contribution tree).templates = [] := by
    generalize compiler.contribution tree = contribution at settled member
    cases settled with
    | registered template mild =>
      rw [mild error member] at isError
      cases isError
    | dropped mild name fault => rfl
  refine ⟨dropped, idle.walk definition, idle, adds.symbols, fun name => ?_⟩
  rw [adds.templates, dropped, List.append_nil]

/-- Two definitions that do not build on each other add the same in both orders. -/
theorem Idle.swap {compiler : Compiler} (idle : compiler.Idle) {first second : Tree} (firstIs : first.IsDefinition)
    (secondIs : second.IsDefinition)
    (firstUnused : ∀ template ∈ (compiler.contribution first).templates, template.name ∉ second.bases)
    (secondUnused : ∀ template ∈ ((compiler.walk first).contribution second).templates,
      template.name ∉ first.bases) :
    compiler.contribution second = (compiler.walk first).contribution second ∧
      (compiler.walk second).contribution first = compiler.contribution first ∧
      ((compiler.walk second).walk first).Alike ((compiler.walk first).walk second) := by
  obtain ⟨-, firstAdds⟩ := idle.adds firstIs
  -- Each of the two adds the same whether or not the other one came before.
  obtain ⟨-, sameSecond, secondAddsAfter, secondAdds⟩ :=
    contribution_same (idle.walk firstIs) idle firstAdds.symbols secondIs fun base named => by
      rw [firstAdds.templates]
      exact Template.anyNamed_append_of_forall_ne _ fun template member equal =>
        firstUnused template member (equal ▸ named)
  obtain ⟨-, sameFirst, firstAddsAfter, -⟩ :=
    contribution_same (idle.walk secondIs) idle secondAdds.symbols firstIs fun base named => by
      rw [secondAdds.templates]
      exact Template.anyNamed_append_of_forall_ne _ fun template member equal =>
        secondUnused template member (equal ▸ named)
  refine ⟨sameSecond.symm, sameFirst, (idle.walk secondIs).walk firstIs, (idle.walk firstIs).walk secondIs, ?_, ?_⟩
  · rw [firstAddsAfter.symbols, secondAdds.symbols, secondAddsAfter.symbols, firstAdds.symbols]
  · intro name
    rw [firstAddsAfter.templates, secondAdds.templates, secondAddsAfter.templates, firstAdds.templates, sameFirst]
    simp only [Template.anyNamed_append, Bool.or_right_comm]

end Compiler

/-! ### Modules -/

/-- What each definition of a module adds to the registry. -/
def moduleContributions (symbols : Symbols) (name : String) (definitions : List Tree) : List Contribution :=
  ((Compiler.new symbols).enter (Tree.ofModule name definitions)).contributions definitions

theorem Compiler.idle_start (symbols : Symbols) (name : String) : (Compiler.start symbols name).Idle := ⟨rfl, rfl⟩

theorem registry_compile (symbols : Symbols) (name : String) {definitions : List Tree}
    (plain : ∀ definition ∈ definitions, definition.IsDefinition) :
    (compile symbols (Tree.ofModule name definitions)).registry.templates =
        (moduleContributions symbols name definitions).flatMap Contribution.templates ∧
      (compile symbols (Tree.ofModule name definitions)).registry.diagnostics =
        (moduleContributions symbols name definitions).flatMap Contribution.diagnostics := by
  have idle := Compiler.idle_start symbols name
  rw [compile_ofModule (idle.walkAll plain).stack]
  exact idle.registry_walkAll plain

theorem moduleContributions_append (symbols : Symbols) (name : String) (before after : List Tree) :
    moduleContributions symbols name (before ++ after) = (Compiler.start symbols name).contributions before ++
      ((Compiler.start symbols name).walkAll before).contributions after :=
  Compiler.contributions_append _ before after

/-- Definitions are translated independently of each other. After two histories with the same types that know the same
    of the bases which it names, a definition adds the same templates and diagnostics. So what a module's definitions
    add, which is all that the module's registry holds, can be told apart definition by definition: leaving out one
    that reported a fault changes neither the templates nor what the others report, and two neighbours neither of
    which names the other's template as its base only exchange what they add. -/
theorem definitions_independent (symbols : Symbols) :
    (∀ (left right : Compiler) (tree : Tree), left.stack = [] → right.stack = [] →
      left.state.symbols = symbols → right.state.symbols = symbols → tree.IsDefinition →
      (∀ base ∈ tree.bases,
        (left.state.registry.find? base).isSome = (right.state.registry.find? base).isSome) →
      ∃ templates diagnostics,
        (left.walk tree).state.registry.templates = left.state.registry.templates ++ templates ∧
        (left.walk tree).state.registry.diagnostics = left.state.registry.diagnostics ++ diagnostics ∧
        (right.walk tree).state.registry.templates = right.state.registry.templates ++ templates ∧
        (right.walk tree).state.registry.diagnostics = right.state.registry.diagnostics ++ diagnostics) ∧
    (∀ (name : String) (definitions : List Tree), (∀ definition ∈ definitions, definition.IsDefinition) →
      (compile symbols (Tree.ofModule name definitions)).registry.templates =
        (moduleContributions symbols name definitions).flatMap Contribution.templates ∧
      (compile symbols (Tree.ofModule name definitions)).registry.diagnostics =
        (moduleContributions symbols name definitions).flatMap Contribution.diagnostics) ∧
    (∀ (name : String) (before after : List Tree) (dropped : Tree),
      (∀ definition ∈ before ++ dropped :: after, definition.IsDefinition) →
      ∃ first own rest, first.length = before.length ∧
        moduleContributions symbols name (before ++ dropped :: after) = first ++ own :: rest ∧
        ((∃ error ∈ own.diagnostics, error.isError = true) →
          moduleContributions symbols name (before ++ after) = first ++ rest ∧
          (compile symbols (Tree.ofModule name (before ++ after))).registry.templates =
            (compile symbols (Tree.ofModule name (before ++ dropped :: after))).registry.templates)) ∧
    (∀ (name : String) (before after : List Tree) (left right : Tree),
      (∀ definition ∈ before ++ left :: right :: after, definition.IsDefinition) →
      ∃ first leftOwn rightOwn rest, first.length = before.length ∧
        moduleContributions symbols name (before ++ left :: right :: after) =
          first ++ leftOwn :: rightOwn :: rest ∧
        ((∀ template ∈ leftOwn.templates, template.name ∉ right.bases) →
          (∀ template ∈ rightOwn.templates, template.name ∉ left.bases) →
          moduleContributions symbols name (before ++ right :: left :: after) =
            first ++ rightOwn :: leftOwn :: rest)) := by
  refine ⟨?_, fun name _ plain => registry_compile symbols name plain, ?_, ?_⟩
  · rintro ⟨left, -⟩ ⟨right, -⟩ tree rfl rfl leftSymbols rightSymbols definition known
    obtain ⟨contribution, -, first, second⟩ :=
      Compiler.walk_definition (leftSymbols.trans rightSymbols.symm) definition known
    exact ⟨_, _, first.templates, first.diagnostics, second.templates, second.diagnostics⟩
  · intro name before after dropped plain
    have split := moduleContributions_append symbols name before (dropped :: after)
    refine ⟨_, _, _, Compiler.length_contributions _ before, split, ?_⟩
    rintro ⟨error, member, isError⟩
    obtain ⟨plainBefore, plainRest⟩ := List.forall_mem_append.mp plain
    obtain ⟨droppedIs, plainAfter⟩ := List.forall_mem_cons.mp plainRest
    have idle := (Compiler.idle_start symbols name).walkAll plainBefore
    obtain ⟨none, alike⟩ := idle.alike_of_isError droppedIs member isError
    have same := alike.contributions plainAfter
    rw [(registry_compile symbols name plain).1,
      (registry_compile symbols name (List.forall_mem_append.mpr ⟨plainBefore, plainAfter⟩)).1, split,
      moduleContributions_append, same]
    simp [Compiler.contributions, none, same]
  · intro name before after left right plain
    refine ⟨_, _, _, _, Compiler.length_contributions _ before,
      moduleContributions_append symbols name before (left :: right :: after), ?_⟩
    intro leftUnused rightUnused
    obtain ⟨plainBefore, plainRest⟩ := List.forall_mem_append.mp plain
    obtain ⟨leftIs, plainRest⟩ := List.forall_mem_cons.mp plainRest
    obtain ⟨rightIs, plainAfter⟩ := List.forall_mem_cons.mp plainRest
    have idle := (Compiler.idle_start symbols name).walkAll plainBefore
    obtain ⟨sameRight, sameLeft, alike⟩ := idle.swap leftIs rightIs leftUnused rightUnused
    rw [moduleContributions_append, Compiler.contributions, Compiler.contributions, alike.contributions plainAfter,
      sameRight, sameLeft]

/-- In a module with a template, a definition that modifies a missing one and a definition that modifies the first, the
    second can be left out, and it can change places with the third. It is dropped after any history alike. -/
theorem definitions_independent_derived :
    let integer := TypeUse.builtin "integer"
    let symbols : Symbols := ⟨[Builtin.integer.entry], [("integer", ⟨0⟩)], [], []⟩
    let base := Tree.ofDefinition integer "base" [] none .ofAny
    let broken := Tree.ofDefinition integer "broken" [] (some "missing") .ofAny
    let derived := Tree.ofDefinition integer "derived" [] (some "base") .ofAny
    let left := Compiler.new symbols
    let right := (Compiler.new symbols).walk base
    (∃ templates diagnostics,
      (left.walk broken).state.registry.templates = left.state.registry.templates ++ templates ∧
      (left.walk broken).state.registry.diagnostics = left.state.registry.diagnostics ++ diagnostics ∧
      (right.walk broken).state.registry.templates = right.state.registry.templates ++ templates ∧
      (right.walk broken).state.registry.diagnostics = right.state.registry.diagnostics ++ diagnostics) ∧
    (compile symbols (Tree.ofModule "M" [base, derived])).registry.templates =
      (compile symbols (Tree.ofModule "M" [base, broken, derived])).registry.templates ∧
    ∃ first second third, moduleContributions symbols "M" [base, broken, derived] = [first, second, third] ∧
      moduleContributions symbols "M" [base, derived, broken] = [first, third, second] := by
  intro integer symbols base broken derived left right
  have brokenIs : broken.IsDefinition := by decide
  have plain : ∀ definition ∈ [base, broken, derived], definition.IsDefinition := by decide
  have reports : ((moduleContributions symbols "M" [base, broken, derived])[1]?.map fun contribution =>
      contribution.diagnostics.any Diagnostic.isError) = some true := by decide +kernel
  have names : (moduleContributions symbols "M" [base, broken, derived]).map (fun contribution =>
      contribution.templates.map Template.name) = [["base"], [], ["derived"]] := by decide +kernel
  obtain ⟨one, -, delete, swap⟩ := definitions_independent symbols
  refine ⟨one left right broken rfl rfl rfl rfl brokenIs (by decide +kernel), ?_, ?_⟩
  · obtain ⟨first, own, rest, length, split, deleted⟩ := delete "M" [base] [derived] broken plain
    obtain ⟨contribution, rfl⟩ := List.length_eq_one_iff.mp length
    simp only [List.cons_append, List.nil_append] at split deleted
    rw [split] at reports
    exact (deleted (List.any_eq_true.mp (Option.some.inj reports))).2
  · obtain ⟨first, leftOwn, rightOwn, rest, length, split, swapped⟩ := swap "M" [base] [] broken derived plain
    obtain ⟨contribution, rfl⟩ := List.length_eq_one_iff.mp length
    simp only [List.cons_append, List.nil_append] at split swapped
    rw [split] at names
    simp only [List.map_cons, List.cons.injEq, List.map_eq_nil_iff] at names
    obtain ⟨-, leftNone, rightName, rfl⟩ := names
    refine ⟨contribution, leftOwn, rightOwn, split, swapped (by simp [leftNone]) ?_⟩
    intro template member named
    have same : template.name ∈ rightOwn.templates.map Template.name := List.mem_map_of_mem member
    rw [rightName] at same
    rw [List.mem_singleton.mp same] at named
    exact absurd named (by decide)

end TtcnTemplates
