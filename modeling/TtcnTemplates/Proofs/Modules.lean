import TtcnTemplates.Proofs.Bodies
import TtcnTemplates.Types.Declarations

/-! # The compiler computes the translation

The scopes of a definition have the same outcome as its translation, and so do definitions one after the other: the
registry of a compiled module is the one that the module means. What is needed of the symbols is that the fields of a
type have different names, and declarations are only resolved if they have.
-/

namespace TtcnTemplates

/-! ### Formal parameters -/

/-- One formal parameter. -/
theorem Compiler.walk_parameter (state : State) (use : TypeUse) (name : String) (parameters : List Parameter)
    (below : List Scope) :
    (walk ⟨state, .parameterList none parameters :: below⟩ (.ofParameter (use, name))).Same
      ((readParameters state.symbols [(use, name)]).resume state fun state more =>
        ⟨state, .parameterList none (parameters ++ more) :: below⟩) := by
  change (leave (walk (walk ⟨state, .parameterList none parameters :: below⟩ (.ofType use)) (.ofName name))
    (.ofParameter (use, name))).Same _
  simp only [readParameters]
  cases found : state.symbols.lookup use with
  | none =>
    have enters : Scope.enter state (.ofType use) (.parameterList none parameters) =
        .error (.unknownType use.name) := by
      simp only [Scope.enter, Scope.enterParameters, Tree.ofType, Tree.leaf, State.typeOf, found]
      rfl
    rw [walk_fault below rfl enters, walk_recover, leave_recover rfl]
    exact Same.rfl
  | some type =>
    have passes : Scope.enter state (.ofType use) (.parameterList none parameters) =
        .ok ⟨state, .parameterList (some (state.symbols.javaName type)) parameters, some (.passOver .type)⟩ := by
      simp only [Scope.enter, Scope.enterParameters, Tree.ofType, Tree.leaf, State.typeOf, found]
      rfl
    exact ((walk_passed below passes).walk (.ofName name)).step (.leave (.ofParameter (use, name)))

theorem resume_readParameters_cons (symbols : Symbols) (use : TypeUse) (name : String)
    (rest : List (TypeUse × String)) (state : State) (next : State → List Parameter → Compiler) :
    (readParameters symbols ((use, name) :: rest)).resume state next =
      (readParameters symbols [(use, name)]).resume state fun state first =>
        (readParameters symbols rest).resume state fun state more => next state (first ++ more) := by
  simp only [readParameters]
  cases symbols.lookup use <;> simp

theorem Compiler.walkAll_parameters (parameters : List (TypeUse × String)) (state : State) (before : List Parameter)
    (below : List Scope) :
    (walkAll ⟨state, .parameterList none before :: below⟩ (parameters.map Tree.ofParameter)).Same
      ((readParameters state.symbols parameters).resume state fun state more =>
        ⟨state, .parameterList none (before ++ more) :: below⟩) := by
  induction parameters generalizing state before with
  | nil =>
    rw [readParameters, Reading.resume_pure, List.append_nil]
    exact Same.rfl
  | cons parameter rest ih =>
    obtain ⟨use, name⟩ := parameter
    rw [resume_readParameters_cons]
    refine ((walk_parameter state use name before below).walkAll _).trans ?_
    rw [Reading.walkAll_resume]
    refine Reading.resume_same _ _ fun remarks first => ?_
    simpa using ih (state.warnAll remarks) (before ++ first)

/-- The formal parameters of a definition, whether there are any or not. -/
theorem Compiler.walkAll_ofParameters (parameters : List (TypeUse × String)) {state : State}
    (cleared : state.parameters = []) {draft : Draft} (noneYet : draft.parameters = []) (type : Option TypeId)
    (modifying : Bool) :
    (walkAll ⟨state, [.definition draft type modifying]⟩ (Tree.ofParameters parameters)).Same
      ((readParameters state.symbols parameters).resume state fun state parameters =>
        ⟨{ state with parameters }, [.definition { draft with parameters } type modifying]⟩) := by
  cases parameters with
  | nil =>
    -- Without parameters there is no list node, and nothing has to be set.
    obtain ⟨symbols, registry, parameters, current, log⟩ := state
    obtain ⟨name, type, value, parameters', overrides⟩ := draft
    cases cleared
    cases noneYet
    exact Same.rfl
  | cons first rest =>
    let list : Tree := ⟨.parameterList, (first :: rest).map Tree.ofParameter⟩
    have entered : (enter ⟨state, [.definition draft type modifying]⟩ list).Same
        ⟨state, [.parameterList none [], .definition draft type modifying]⟩ := ⟨rfl, rfl⟩
    refine ((entered.walkAll list.children).step (.leave list)).trans ?_
    refine ((walkAll_parameters (first :: rest) state [] [.definition draft type modifying]).step
      (.leave list)).trans ?_
    simp only [step, Reading.leave_resume _ _ _ (show list.is .definition = false from rfl)]
    refine Reading.resume_same _ _ fun remarks parameters => ?_
    have closes : Scope.leave (state.warnAll remarks) list (.parameterList none ([] ++ parameters)) =
        .ok (state.warnAll remarks, .close (some (.parameters parameters))) := rfl
    exact leave_close [.definition draft type modifying] closes

/-! ### Definitions -/

/-- The finished draft of a template. -/
def Template.draft (template : Template) : Draft :=
  ⟨some template.name, some template.type, template.value, template.parameters, template.overrides⟩

namespace Compiler

/-- The body of a definition that modifies no other one. -/
theorem walk_plain (body : Body) {state : State} (distinct : state.symbols.Distinct) (draft : Draft) (type : TypeId) :
    (walk ⟨state, [.definition draft (some type) false]⟩ body.tree).Same
      ((body.value state.symbols state.parameters type).resume state fun state value =>
        ⟨state, [.definition { draft with value := some value } (some type) false]⟩) := by
  have opens : Scope.enter state body.tree (.definition draft (some type) false) =
      .ok ⟨(state.valueScope type body.tree).1, .definition draft (some type) false,
        some (state.valueScope type body.tree).2⟩ := by
    simp only [Scope.enter, Scope.enterDefinition, Body.form_tree, Bool.false_eq_true, if_false]
  exact walk_body body.reads [] distinct opens

/-- The clause that names the modified template. -/
theorem walk_base {state : State} (indexed : state.registry.Indexed) {draft : Draft} {name : String}
    (typed : draft.type = some name) (type : Option TypeId) (base : String) :
    (walk ⟨state, [.definition draft type false]⟩ (.leaf (.base base))).Same
      (if state.registry.templates.any fun template => template.name == base then
        ⟨state, [.definition { draft with value := some (.atom name (.baseCall base)) } type true]⟩
      else recover state (.unknownBase base) false) := by
  have known : (state.registry.find? base).isSome =
      state.registry.templates.any fun template => template.name == base := indexed.isSome_find? base
  rw [← known]
  cases found : state.registry.find? base with
  | none =>
    have enters : Scope.enter state (.leaf (.base base)) (.definition draft type false) =
        .error (.unknownBase base) := by
      simp [Scope.enter, Scope.enterDefinition, Tree.leaf, typed, found]
    exact .of_eq (walk_fault [] rfl enters)
  | some template =>
    have passes : Scope.enter state (.leaf (.base base)) (.definition draft type false) =
        .ok ⟨state, .definition { draft with value := some (.atom name (.baseCall base)) } type true,
          some (.passOver .base)⟩ := by
      simp [Scope.enter, Scope.enterDefinition, Tree.leaf, typed, found]
    exact walk_passed [] passes

/-- The body of a definition that modifies another one. -/
theorem walk_modifying (body : Body) {state : State} (distinct : state.symbols.Distinct) (draft : Draft)
    (type : TypeId) :
    (walk ⟨state, [.definition draft (some type) true]⟩ body.tree).Same
      ((body.overrides state.symbols state.parameters .root type).resume state fun state overrides =>
        ⟨state, [.definition { draft with overrides := draft.overrides ++ overrides } (some type) true]⟩) := by
  have opens : Scope.enter state body.tree (.definition draft (some type) true) =
      .ok ⟨(state.overrideScope type .root body.tree).1, .definition draft (some type) true,
        some (state.overrideScope type .root body.tree).2⟩ := by
    simp only [Scope.enter, Scope.enterDefinition, Body.form_tree, if_true]
  exact body.amends state type .root _ _
    (fun overrides => .definition { draft with overrides := draft.overrides ++ overrides } (some type) true) [] distinct
    opens (fun _ _ => rfl) (fun _ _ => rfl)

/-- The base and the body of a definition. -/
theorem walk_content (definition : Definition) (state : State) (distinct : state.symbols.Distinct)
    (indexed : state.registry.Indexed) (type : TypeId) (parameters : List Parameter) :
    (walkAll ⟨{ state with parameters }, [.definition
          { name := some definition.name, type := some (state.symbols.javaName type), parameters } (some type) false]⟩
        ((definition.base.map fun name => Tree.leaf (.base name)).toList ++ [definition.body.tree])).Same
      ((definition.content state.symbols state.registry.templates type parameters).resume state fun state template =>
        ⟨{ state with parameters := template.parameters },
          [.definition template.draft (some type) definition.base.isSome]⟩) := by
  rw [Definition.content]
  cases definition.base with
  | none =>
    refine (walk_plain definition.body ?_ _ type).trans ?_
    · exact distinct
    · rw [Reading.resume_withParameters, Reading.resume_bind]
      exact Same.rfl
  | some base =>
    refine ((walk_base ?_ rfl (some type) base).walk definition.body.tree).trans ?_
    · exact indexed
    · dsimp only
      split
      · refine (walk_modifying definition.body ?_ _ type).trans ?_
        · exact distinct
        · rw [Reading.resume_withParameters, Reading.resume_bind]
          exact Same.rfl
      · rw [walk_recover]
        exact Same.rfl

/-- A definition whose type and name have been read. -/
theorem walk_template (definition : Definition) (state : State) (distinct : state.symbols.Distinct)
    (indexed : state.registry.Indexed) (cleared : state.parameters = []) (type : TypeId) :
    (walkAll ⟨state, [.definition
          { name := some definition.name, type := some (state.symbols.javaName type) } (some type) false]⟩
        (Tree.ofParameters definition.parameters ++
          ((definition.base.map fun name => Tree.leaf (.base name)).toList ++ [definition.body.tree]))).Same
      ((definition.template state.symbols state.registry.templates type).resume state fun state template =>
        ⟨{ state with parameters := template.parameters },
          [.definition template.draft (some type) definition.base.isSome]⟩) := by
  rw [walkAll_append, Definition.template, Reading.resume_bind]
  refine ((walkAll_ofParameters definition.parameters cleared rfl (some type) false).walkAll _).trans ?_
  rw [Reading.walkAll_resume]
  refine Reading.resume_same _ _ fun remarks parameters => ?_
  have content := walk_content definition (state.warnAll remarks) (by simpa using distinct)
    (indexed.applyAll (remarks.map Update.warn)) type parameters
  simpa using content

/-- The end of a definition registers its template or reports its fault. -/
theorem leave_template (reading : Reading Template) (state : State) {name : String}
    (current : state.current = some name) (type : Option TypeId) (modifying : Bool) {tree : Tree}
    (root : tree.is .definition = true) :
    let after := leave (reading.resume state fun state template =>
      ⟨{ state with parameters := template.parameters }, [.definition template.draft type modifying]⟩) tree
    after.stack = [] ∧ after.state.symbols = state.symbols ∧
      after.state.registry =
        match reading.result with
        | .ok template => (state.registry.remarkAll name reading.remarks).add template
        | .error fault => (state.registry.remarkAll name reading.remarks).report ⟨some name, .fault fault⟩ := by
  obtain ⟨remarks, result⟩ := reading
  simp only [← state.warnAll_registry current remarks]
  cases result with
  | ok template =>
    have ended (state : State) : leave ⟨state, [.definition template.draft type modifying]⟩ tree =
        ⟨(State.note { state with parameters := [] } (.left (Scope.definition {} none false).label)).register template,
          []⟩ := by
      simp [leave, Scope.leave, root, Template.draft, Draft.template, Except.map, deliver, Scope.label]
    simp only [Reading.resume, ended, true_and]
    exact ⟨state.warnAll_symbols remarks, rfl⟩
  | error fault =>
    simp only [Reading.resume, recover, Bool.false_eq_true, if_false, leave_skip_end root, true_and]
    refine ⟨state.warnAll_symbols remarks, ?_⟩
    rw [← current, ← state.warnAll_current remarks]
    rfl

/-- A definition leaves no scope open, and the registry is the one after its translation. -/
theorem walk_translates (definition : Definition) (state : State) (distinct : state.symbols.Distinct)
    (indexed : state.registry.Indexed) :
    (walk ⟨state, []⟩ definition.tree).stack = [] ∧
      (walk ⟨state, []⟩ definition.tree).state.symbols = state.symbols ∧
      (walk ⟨state, []⟩ definition.tree).state.registry = definition.translate state.symbols state.registry := by
  let content := Tree.ofParameters definition.parameters ++
    ((definition.base.map fun name => Tree.leaf (.base name)).toList ++ [definition.body.tree])
  have root : definition.tree.is .definition = true := rfl
  have children : definition.tree.children = .ofType definition.type :: .ofName definition.name :: content := by
    simp [Definition.tree, Tree.ofDefinition, content]
  have walked : (walk ⟨state, []⟩ definition.tree).Same
      ((walkAll ⟨state.clear, [.definition {} none false]⟩
        (.ofType definition.type :: .ofName definition.name :: content)).leave definition.tree) := by
    rw [← children]
    have entered : (enter ⟨state, []⟩ definition.tree).Same ⟨state.clear, [.definition {} none false]⟩ := ⟨rfl, rfl⟩
    exact (entered.walkAll definition.tree.children).step (.leave definition.tree)
  cases found : state.symbols.lookup definition.type with
  | none =>
    have enters : Scope.enter state.clear (.ofType definition.type) (.definition {} none false) =
        .error (.unknownType definition.type.name) := by
      simp [Scope.enter, Scope.enterDefinition, Tree.ofType, Tree.leaf, State.typeOf, State.clear, found, Except.map]
    rw [walkAll, walk_fault [] rfl enters, walkAll_recover] at walked
    simp only [recover, Bool.false_eq_true, if_false, leave_skip_end root] at walked
    rw [Definition.translate, found]
    exact ⟨walked.stack, walked.symbols, walked.registry⟩
  | some type =>
    let named : State := { state.clear with current := some definition.name }
    have passes : Scope.enter state.clear (.ofType definition.type) (.definition {} none false) =
        .ok ⟨state.clear, .definition { type := some (state.symbols.javaName type) } (some type) false,
          some (.passOver .type)⟩ := by
      simp [Scope.enter, Scope.enterDefinition, Tree.ofType, Tree.leaf, State.typeOf, State.clear, found, Except.map]
    have begun := ((walk_passed [] passes).walk (.ofName definition.name)).walkAll content
    have template := walk_template definition named distinct indexed rfl type
    have ended := walked.trans ((begun.trans template).step (.leave definition.tree))
    obtain ⟨stack, symbols, registry⟩ :=
      leave_template (definition.template state.symbols state.registry.templates type) named rfl (some type)
        definition.base.isSome root
    rw [Definition.translate, found]
    exact ⟨ended.stack.trans stack, ended.symbols.trans symbols, ended.registry.trans registry⟩

end Compiler

/-! ### Modules -/

theorem Registry.Indexed.translate {registry : Registry} (indexed : registry.Indexed) (symbols : Symbols)
    (definition : Definition) : (definition.translate symbols registry).Indexed := by
  rw [Definition.translate]
  cases symbols.lookup definition.type with
  | none => exact indexed.congr rfl rfl
  | some type =>
    have remarked : (registry.remarkAll definition.name
        (definition.template symbols registry.templates type).remarks).Indexed := indexed.congr rfl rfl
    dsimp only
    cases (definition.template symbols registry.templates type).result with
    | ok template => exact remarked.add template
    | error fault => exact remarked.congr rfl rfl

/-- Definitions one after the other. -/
theorem Compiler.walkAll_translates (definitions : List Definition) {state : State}
    (distinct : state.symbols.Distinct) (indexed : state.registry.Indexed) :
    (walkAll ⟨state, []⟩ (definitions.map Definition.tree)).stack = [] ∧
      (walkAll ⟨state, []⟩ (definitions.map Definition.tree)).state.registry =
        definitions.foldl (Definition.translate state.symbols) state.registry := by
  induction definitions generalizing state with
  | nil => exact ⟨rfl, rfl⟩
  | cons definition rest ih =>
    obtain ⟨stack, symbols, registry⟩ := walk_translates definition state distinct indexed
    rw [List.map_cons, walkAll, List.foldl_cons]
    generalize walk ⟨state, []⟩ definition.tree = after at stack symbols registry
    obtain ⟨after, stack'⟩ := after
    cases stack
    dsimp only at symbols registry
    have indexed' : after.registry.Indexed := registry ▸ indexed.translate state.symbols definition
    rw [← registry, ← symbols]
    exact ih (symbols ▸ distinct) indexed'

/-- The registry of a module whose types have fields of different names. -/
theorem registry_ofModule {symbols : Symbols} (distinct : symbols.Distinct) (name : String)
    (definitions : List Definition) :
    (compile symbols (Tree.ofModule name (definitions.map Definition.tree))).registry =
      definitions.foldl (Definition.translate symbols) { name := some name } := by
  have fresh : (Compiler.start symbols name).state.symbols.Distinct := distinct
  obtain ⟨stack, registry⟩ := Compiler.walkAll_translates definitions fresh rfl
  rw [compile_ofModule stack]
  exact registry

/-! ### Resolved symbols -/

theorem exists_of_bind_eq_ok {ε α β : Type} {first : Except ε α} {next : α → Except ε β} {result : β}
    (succeeds : first >>= next = .ok result) : ∃ value, first = .ok value ∧ next value = .ok result := by
  cases first with
  | error fault => cases succeeds
  | ok value => exact ⟨value, rfl, succeeds⟩

theorem exists_of_mem_mapM {ε α β : Type} {next : α → Except ε β} {values : List α} {results : List β}
    (succeeds : values.mapM next = .ok results) : ∀ result ∈ results, ∃ value ∈ values, next value = .ok result := by
  induction values generalizing results with
  | nil =>
    cases succeeds
    exact nofun
  | cons value rest ih =>
    rw [List.mapM_cons] at succeeds
    obtain ⟨first, here, succeeds⟩ := exists_of_bind_eq_ok succeeds
    obtain ⟨more, later, succeeds⟩ := exists_of_bind_eq_ok succeeds
    cases succeeds
    intro result member
    rcases List.mem_cons.mp member with rfl | member
    · exact ⟨value, List.mem_cons_self, here⟩
    · obtain ⟨value', member', found⟩ := ih later result member
      exact ⟨value', List.mem_cons_of_mem _ member', found⟩

/-- Fields are only resolved if they have different names. -/
theorem resolveFields_nodup {lookup : TypeUse → Option TypeId} {type : String} {seen : List String}
    {fields : List (Field TypeUse)} {resolved : List (Field TypeId)}
    (succeeds : resolveFields lookup type seen fields = .ok resolved) :
    (resolved.map Field.name).Nodup ∧ ∀ name ∈ resolved.map Field.name, name ∉ seen := by
  induction fields generalizing seen resolved with
  | nil =>
    cases succeeds
    exact ⟨.nil, nofun⟩
  | cons field rest ih =>
    rw [resolveFields] at succeeds
    split at succeeds
    · cases succeeds
    · rename_i fresh
      obtain ⟨id, -, succeeds⟩ := exists_of_bind_eq_ok succeeds
      obtain ⟨more, others, succeeds⟩ := exists_of_bind_eq_ok succeeds
      cases succeeds
      obtain ⟨nodup, unseen⟩ := ih others
      refine ⟨List.nodup_cons.mpr ⟨fun member => unseen _ member List.mem_cons_self, nodup⟩, ?_⟩
      intro name member
      rcases List.mem_cons.mp member with rfl | later
      · simpa using fresh
      · exact fun earlier => unseen name later (List.mem_cons_of_mem _ earlier)

/-- The fields of a record or set, or the alternatives of a union. -/
def TypeShape.fields : TypeShape TypeId → List (Field TypeId)
  | .record fields => fields
  | .set fields => fields
  | .union alternatives => alternatives
  | _ => []

theorem Symbols.fields_eq (symbols : Symbols) (type : TypeId) :
    symbols.fields type = (symbols.shape? type).elim [] TypeShape.fields := by
  rw [Symbols.fields]
  cases symbols.shape? type with
  | none => rfl
  | some shape => cases shape <;> rfl

theorem TypeShape.resolve_nodup {lookup : TypeUse → Option TypeId} {type : String} {shape : TypeShape TypeUse}
    {resolved : TypeShape TypeId} (succeeds : shape.resolve lookup type = .ok resolved) :
    (resolved.fields.map Field.name).Nodup := by
  have fields {fields : List (Field TypeUse)} {make : List (Field TypeId) → TypeShape TypeId}
      (same : ∀ fields, (make fields).fields = fields)
      (succeeds : (do return make (← resolveFields lookup type [] fields)) = Except.ok resolved) :
      (resolved.fields.map Field.name).Nodup := by
    obtain ⟨found, names, succeeds⟩ := exists_of_bind_eq_ok succeeds
    cases succeeds
    rw [same]
    exact (resolveFields_nodup names).1
  cases shape with
  | record list => exact fields (fun _ => rfl) succeeds
  | set list => exact fields (fun _ => rfl) succeeds
  | union alternatives =>
    cases alternatives with
    | nil => cases succeeds
    | cons first rest => exact fields (fun _ => rfl) succeeds
  | recordOf element =>
    obtain ⟨id, -, succeeds⟩ := exists_of_bind_eq_ok succeeds
    cases succeeds
    exact .nil
  | setOf element =>
    obtain ⟨id, -, succeeds⟩ := exists_of_bind_eq_ok succeeds
    cases succeeds
    exact .nil
  | enumerated values =>
    obtain ⟨id, -, succeeds⟩ := exists_of_bind_eq_ok succeeds
    cases succeeds
    exact .nil

/-- The fields of every resolved type have different names. -/
theorem Declarations.resolveIn_distinct {order : List Builtin} {declarations : Declarations} {symbols : Symbols}
    (resolved : declarations.resolveIn order = .ok symbols) : symbols.Distinct := by
  obtain ⟨entries, found, resolved⟩ := exists_of_bind_eq_ok resolved
  cases resolved
  intro type
  rw [Symbols.fields_eq]
  generalize symbol : Symbols.shape? _ type = shape
  cases shape with
  | none => exact .nil
  | some shape =>
    obtain ⟨entry, atIndex, given⟩ := Option.bind_eq_some_iff.mp symbol
    rcases List.mem_append.mp (List.mem_of_getElem? atIndex) with builtin | declared
    · obtain ⟨builtin, -, rfl⟩ := List.mem_map.mp builtin
      cases given
    · obtain ⟨declaration, -, made⟩ := exists_of_mem_mapM found entry declared
      obtain ⟨shape', read, succeeds⟩ := exists_of_bind_eq_ok made
      cases succeeds
      cases given
      exact TypeShape.resolve_nodup read

/-! ### The compiled module -/

/-- The registry of a compiled module is the one that its definitions mean, whatever types they are given for: the
    scopes compute the recursive translation. -/
theorem compile_registry_eq_translate (order : List Builtin) (declarations : Declarations) (symbols : Symbols)
    (resolved : declarations.resolveIn order = .ok symbols) (name : String) (definitions : List Definition) :
    (compile symbols (Tree.ofModule name (definitions.map Definition.tree))).registry =
      translate symbols name definitions := by
  have distinct : (Compiler.start symbols name).state.symbols.Distinct := Declarations.resolveIn_distinct resolved
  obtain ⟨stack, registry⟩ := Compiler.walkAll_translates definitions distinct rfl
  rw [compile_ofModule stack]
  exact registry

/-- A recursive record type, with one template, one that overrides a field inside a field of it, one whose field is
    given twice, and one that fails inside a list. -/
theorem compile_registry_eq_translate_recursive :
    let declarations : Declarations :=
      { types := [⟨"R", .record [⟨"a", .builtin "integer"⟩, ⟨"b", .declared "R"⟩]⟩, ⟨"L", .recordOf (.declared "R")⟩] }
    let symbols : Symbols :=
      { entries := [Builtin.integer.entry, ⟨"R", "R", some (.record [⟨"a", ⟨0⟩⟩, ⟨"b", ⟨1⟩⟩])⟩,
          ⟨"L", "L", some (.recordOf ⟨1⟩)⟩]
        builtins := [("integer", ⟨0⟩)]
        declared := [("R", ⟨1⟩), ("L", ⟨2⟩)]
        constants := [] }
    let definitions : List Definition :=
      [⟨.declared "R", "base", [(.builtin "integer", "p")], none, .fields [("a", .reference "p"), ("b", .any)]⟩,
        ⟨.declared "R", "derived", [], some "base", .fields [("b", .fields [("a", .anyOrOmit)])]⟩,
        ⟨.declared "R", "twice", [], none, .fields [("a", .any), ("a", .other "range"), ("b", .elements [.any])]⟩,
        ⟨.declared "L", "failing", [], none, .elements [.any, .fields [("c", .any)]]⟩]
    declarations.resolveIn [.integer] = .ok symbols ∧
      (compile symbols (Tree.ofModule "M" (definitions.map Definition.tree))).registry =
        translate symbols "M" definitions ∧
      (translate symbols "M" definitions).templates.map Template.name = ["base", "derived", "twice"] ∧
      (translate symbols "M" definitions).diagnostics.length = 3 := by
  intro declarations symbols definitions
  have resolved : declarations.resolveIn [.integer] = .ok symbols := by rfl
  refine ⟨resolved, compile_registry_eq_translate [.integer] declarations symbols resolved "M" definitions, ?_, ?_⟩
  · decide +kernel
  · decide +kernel

end TtcnTemplates
