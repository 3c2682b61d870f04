import Mathlib.Data.List.Nodup
import TtcnTemplates.Proofs.Containment
import TtcnTemplates.Proofs.Derivation
import TtcnTemplates.Proofs.Replay

/-! # Calls of bases

A template that modifies another one begins with the value of that one, its base, which it gets by a call of the base's
method. The call and the method stand in one source, but they are written from two templates, and only the name
connects the two. The call passes no arguments, whatever formal parameters the definition of the base has.
-/

namespace TtcnTemplates

/-! ### Calls and methods in Java -/

namespace Java

/-- A call of a method with arguments, whose result is taken as an object of a class. -/
def call (type name : String) (arguments : List String) : String :=
  String.join ["(", type, ") ", name, "(", String.intercalate ", " arguments, ")"]

/-- The beginning of a method with formal parameters. -/
def method (type name : String) (parameters : List String) : String :=
  String.join ["public static ", type, " ", name, "(", String.intercalate ", " parameters, ") \x7b\n"]

/-- Texts that are not empty are written as nothing only if there are none. -/
theorem intercalate_eq_empty_iff {texts : List String} (nonempty : ∀ text ∈ texts, text ≠ "") :
    String.intercalate ", " texts = "" ↔ texts = [] := by
  cases texts with
  | nil => simp
  | cons text rest =>
    have here : text ≠ "" := nonempty text List.mem_cons_self
    cases rest with
    | nil => simpa using here
    | cons _ _ => simp

/-- Whatever arguments are not empty, the text of a call without arguments is not that of a call with some. -/
theorem call_nil_eq_iff (type name : String) {arguments : List String} (nonempty : ∀ text ∈ arguments, text ≠ "") :
    call type name [] = call type name arguments ↔ arguments = [] := by
  rw [← intercalate_eq_empty_iff nonempty, call, call, String.intercalate_nil]
  constructor
  · intro same
    simpa [← String.toList_inj] using same
  · intro empty
    rw [empty]

end Java

/-- The text of a formal parameter. -/
def Parameter.text (parameter : Parameter) : String := parameter.type ++ " " ++ parameter.name

theorem join_intercalate (separator : String) (lists : List (List String)) :
    String.join ([separator].intercalate lists) = separator.intercalate (lists.map String.join) := by
  induction lists with
  | nil => rfl
  | cons first rest ih =>
    cases rest with
    | nil => simp
    | cons _ _ =>
      rw [List.intercalate_cons_cons, String.join_append, String.join_append, ih]
      simp

/-- What some of the fragments are joined to stands in what all are joined to. -/
theorem join_infix {fragments before inner after : List String} (split : fragments = before ++ inner ++ after) :
    (String.join inner).toList <:+: (String.join fragments).toList := by
  rw [split, String.join_append, String.join_append, String.toList_append, String.toList_append]
  exact List.infix_append _ _ _

namespace Template

/-- The fragments of the first line of a method. -/
def heading (template : Template) : List String :=
  ["public static ", template.type, " ", template.name, "("] ++
    [", "].intercalate (template.parameters.map Parameter.fragments) ++ [") \x7b\n"]

theorem join_heading (template : Template) : String.join template.heading =
    Java.method template.type template.name (template.parameters.map Parameter.text) := by
  have texts : String.join ∘ Parameter.fragments = Parameter.text := by
    funext parameter
    simp [Parameter.fragments, Parameter.text, String.append_assoc]
  have parameters : String.join ([", "].intercalate (template.parameters.map Parameter.fragments)) =
      String.intercalate ", " (template.parameters.map Parameter.text) := by
    rw [join_intercalate, List.map_map, texts]
  rw [heading, String.join_append, String.join_append, parameters]
  simp only [Java.method, String.join_cons, String.join_nil, String.append_assoc, String.append_empty]

/-- The method of a template begins with its formal parameters. -/
theorem method_infix (template : Template) (indent : Nat) :
    (Java.method template.type template.name (template.parameters.map Parameter.text)).toList <:+:
      (String.join (template.fragments indent)).toList := by
  have split : template.fragments indent = tabs indent ++ template.heading ++
      (tabs (indent + 1) ++ [template.type, " value = "] ++ template.valueFragments (indent + 1) ++ [";\n"] ++
        template.overrides.flatMap (Override.fragments (indent + 1)) ++ tabs (indent + 1) ++ ["return value;\n"] ++
        tabs indent ++ ["\x7d\n"]) := by
    simp only [fragments, heading, List.append_assoc]
  rw [← join_heading]
  exact join_infix split

/-- The method of a template that modifies another one holds the call of that one. -/
theorem call_infix {template : Template} {type base : String}
    (derived : template.value = some (.atom type (.baseCall base))) (indent : Nat) :
    (Java.call type base []).toList <:+: (String.join (template.fragments indent)).toList := by
  have call : String.join (template.valueFragments (indent + 1)) = Java.call type base [] := by
    simp only [valueFragments, derived, Expr.fragments, Atom.fragments, Java.call, String.intercalate_nil,
      String.join_cons, String.join_nil, String.append_empty]
    rfl
  rw [← call]
  have split : template.fragments indent = (tabs indent ++ template.heading ++ tabs (indent + 1) ++
      [template.type, " value = "]) ++ template.valueFragments (indent + 1) ++ ([";\n"] ++
        template.overrides.flatMap (Override.fragments (indent + 1)) ++ tabs (indent + 1) ++ ["return value;\n"] ++
        tabs indent ++ ["\x7d\n"]) := by
    simp only [fragments, heading, List.append_assoc]
  exact join_infix split

end Template

/-- The source of a registry holds the methods of its templates. -/
theorem Registry.template_infix {registry : Registry} {template : Template} (member : template ∈ registry.templates)
    (indent : Nat) : (String.join (template.fragments indent)).toList <:+: (registry.source indent).toList := by
  obtain ⟨first, second, split⟩ := List.append_of_mem member
  have fragments : registry.fragments indent =
      ((registry.diagnostics.filter Diagnostic.isError).flatMap (Diagnostic.fragments indent) ++
        first.flatMap (Template.fragments indent)) ++ template.fragments indent ++
      second.flatMap (Template.fragments indent) := by
    simp only [Registry.fragments, split, List.flatMap_append, List.flatMap_cons, List.append_assoc]
  exact join_infix fragments

/-! ### Templates and their definitions -/

/-- A formal parameter as a definition declares it: it has the declared name, and the class of the declared type. -/
def Parameter.Declared (symbols : Symbols) (declared : TypeUse × String) (parameter : Parameter) : Prop :=
  ∃ type, symbols.lookup declared.1 = some type ∧ parameter = ⟨symbols.javaName type, declared.2⟩

/-- A template has the name and the formal parameters of its definition. -/
structure Definition.Declares (symbols : Symbols) (definition : Definition) (template : Template) : Prop where
  name : template.name = definition.name
  parameters : List.Forall₂ (Parameter.Declared symbols) definition.parameters template.parameters

theorem readParameters_declared {symbols : Symbols} {parameters : List (TypeUse × String)} {read : List Parameter}
    (reads : (readParameters symbols parameters).result = .ok read) :
    List.Forall₂ (Parameter.Declared symbols) parameters read := by
  induction parameters generalizing read with
  | nil =>
    obtain rfl : [] = read := Except.ok.inj reads
    exact .nil
  | cons parameter rest ih =>
    obtain ⟨use, name⟩ := parameter
    rw [readParameters] at reads
    split at reads
    · cases reads
    · rename_i type found
      obtain ⟨more, later, reads⟩ := Reading.exists_of_bind_eq_ok reads
      obtain rfl := Except.ok.inj reads
      exact .cons ⟨type, found, rfl⟩ (ih later)

theorem Definition.template_declares {definition : Definition} {symbols : Symbols} {templates : List Template}
    {type : TypeId} {template : Template}
    (reads : (definition.template symbols templates type).result = .ok template) :
    definition.Declares symbols template := by
  obtain ⟨parameters, read, reads⟩ := Reading.exists_of_bind_eq_ok reads
  have declared := readParameters_declared read
  rw [content] at reads
  split at reads
  · obtain ⟨value, -, reads⟩ := Reading.exists_of_bind_eq_ok reads
    obtain rfl := Except.ok.inj reads
    exact ⟨rfl, declared⟩
  · split at reads
    · obtain ⟨overrides, -, reads⟩ := Reading.exists_of_bind_eq_ok reads
      obtain rfl := Except.ok.inj reads
      exact ⟨rfl, declared⟩
    · cases reads

theorem Definition.translate_templates (symbols : Symbols) (registry : Registry) (definition : Definition) :
    (definition.translate symbols registry).templates = registry.templates ∨
      ∃ template, definition.Declares symbols template ∧
        (definition.translate symbols registry).templates = registry.templates ++ [template] := by
  rw [translate]
  split
  · exact .inl rfl
  · dsimp only
    split
    · rename_i template reads
      exact .inr ⟨template, template_declares reads, rfl⟩
    · exact .inl rfl

/-- The templates of a module are those of some of its definitions, in the same order. -/
theorem foldl_translate_templates (symbols : Symbols) (registry : Registry) (definitions : List Definition) :
    ∃ kept templates, kept.Sublist definitions ∧ List.Forall₂ (Definition.Declares symbols) kept templates ∧
      (definitions.foldl (Definition.translate symbols) registry).templates = registry.templates ++ templates := by
  induction definitions generalizing registry with
  | nil => exact ⟨[], [], .slnil, .nil, (List.append_nil _).symm⟩
  | cons definition rest ih =>
    obtain ⟨kept, templates, sublist, declared, all⟩ := ih (definition.translate symbols registry)
    rw [List.foldl_cons, all]
    rcases definition.translate_templates symbols registry with same | ⟨template, declares, added⟩
    · exact ⟨kept, templates, sublist.cons _, declared, by rw [same]⟩
    · exact ⟨definition :: kept, template :: templates, sublist.cons_cons _, .cons declares declared, by simp [added]⟩

/-! ### Calls and what they call -/

/-- Templates have the names of their definitions, in the same order. -/
theorem declared_names {symbols : Symbols} {kept : List Definition} {templates : List Template}
    (declared : List.Forall₂ (Definition.Declares symbols) kept templates) :
    templates.map Template.name = kept.map Definition.name := by
  induction declared with
  | nil => rfl
  | cons declares _ ih => simp [declares.name, ih]

theorem exists_declares {symbols : Symbols} {kept : List Definition} {templates : List Template}
    (declared : List.Forall₂ (Definition.Declares symbols) kept templates) {template : Template}
    (member : template ∈ templates) : ∃ definition ∈ kept, definition.Declares symbols template := by
  induction declared with
  | nil => cases member
  | cons declares _ ih =>
    rcases List.mem_cons.mp member with rfl | later
    · exact ⟨_, List.mem_cons_self, declares⟩
    · obtain ⟨definition, among, found⟩ := ih later
      exact ⟨definition, List.mem_cons_of_mem _ among, found⟩

/-- A base that a template refers to anywhere is called by its whole value. -/
theorem Template.Derives.calls {earlier : List Template} {template : Template} (derives : template.Derives earlier)
    {value : Expr} (member : value ∈ template.values) {base : String} (mentioned : .baseCall base ∈ value.atoms) :
    ∃ type, template.value = some (.atom type (.baseCall base)) ∧ ∃ callee ∈ earlier, callee.name = base := by
  rcases List.mem_append.mp member with whole | part
  · have isValue : template.value = some value := Option.mem_toList.mp whole
    obtain ⟨type, rfl⟩ := derives.whole value isValue base mentioned
    exact ⟨type, isValue, derives.known type base isValue⟩
  · obtain ⟨override, among, rfl⟩ := List.mem_map.mp part
    exact absurd mentioned (derives.plain override among base)

theorem compile_founded (symbols : Symbols) (tree : Tree) : (compile symbols tree).registry.Founded := by
  rw [compile, Compiler.finish_registry, Compiler.walk_eq_run]
  exact run_founded symbols _

/-- In a module whose definitions have different names, a template that refers to a base anywhere is a call of it as a
    whole. The base is the one template of that name, which is registered before, has the formal parameters of its
    definition and whose method stands in the same source. The call has no arguments. So it has as many of them as the
    method has formal parameters exactly if the definition of the base has none. -/
theorem base_calls_pass_nothing {declarations : Declarations} {order : List Builtin} {symbols : Symbols}
    (resolved : declarations.resolveIn order = .ok symbols) (name : String) {definitions : List Definition}
    (distinct : (definitions.map Definition.name).Nodup) (indent : Nat) :
    let registry := (compile symbols (.ofModule name (definitions.map Definition.tree))).registry
    let source := registry.source indent
    ∀ (position : Nat) (caller : Template), registry.templates[position]? = some caller →
      ∀ value ∈ caller.values, ∀ base, .baseCall base ∈ value.atoms →
      ∃ type, ∃ callee ∈ registry.templates.take position, ∃ definition ∈ definitions,
        caller.value = some (.atom type (.baseCall base)) ∧
        (∀ other ∈ registry.templates, other.name = base ↔ other = callee) ∧ definition.name = base ∧
        List.Forall₂ (Parameter.Declared symbols) definition.parameters callee.parameters ∧
        (Java.call type base []).toList <:+: (String.join (caller.fragments indent)).toList ∧
        (String.join (caller.fragments indent)).toList <:+: source.toList ∧
        (Java.method callee.type base (callee.parameters.map Parameter.text)).toList <:+: source.toList ∧
        ∀ arguments : List String, (∀ argument ∈ arguments, argument ≠ "") →
          Java.call type base [] = Java.call type base arguments →
          (arguments.length = callee.parameters.length ↔ definition.parameters = []) := by
  intro registry source position caller there value member base mentioned
  have translated : registry = _ := registry_ofModule (Declarations.resolveIn_distinct resolved) name definitions
  obtain ⟨kept, templates, sublist, declared, all⟩ :=
    foldl_translate_templates symbols { name := some name } definitions
  have same : registry.templates = templates := (congrArg Registry.templates translated).trans all
  have names : (registry.templates.map Template.name).Nodup := by
    rw [same, declared_names declared]
    exact distinct.sublist (sublist.map _)
  have derives := (compile_founded symbols _).derives position caller there
  obtain ⟨type, isCall, callee, earlier, rfl⟩ := derives.calls member mentioned
  have among : callee ∈ registry.templates := List.mem_of_mem_take earlier
  obtain ⟨definition, isKept, declares⟩ := exists_declares declared (same ▸ among)
  refine ⟨type, callee, earlier, definition, sublist.subset isKept, isCall, ?only, declares.name.symm,
    declares.parameters, Template.call_infix isCall indent, Registry.template_infix (List.mem_of_getElem? there) indent,
    (callee.method_infix indent).trans (Registry.template_infix among indent), ?counts⟩
  case only =>
    intro other member
    constructor
    · exact List.inj_on_of_nodup_map names member among
    · rintro rfl
      rfl
  case counts =>
    intro arguments nonempty written
    obtain rfl := (Java.call_nil_eq_iff type callee.name nonempty).mp written
    rw [List.length_nil, ← declares.parameters.length_eq, eq_comm, List.length_eq_zero_iff]

/-- The second template has a formal parameter and modifies the first, which has none. The third modifies the second. -/
theorem base_calls_pass_nothing_chain :
    let declarations : Declarations := {}
    let symbols : Symbols :=
      { entries := [Builtin.integer.entry], builtins := [("integer", ⟨0⟩)], declared := [], constants := [] }
    let definitions : List Definition :=
      [⟨.builtin "integer", "b", [], none, .literal "1"⟩,
        ⟨.builtin "integer", "d", [(.builtin "integer", "p")], some "b", .reference "p"⟩,
        ⟨.builtin "integer", "e", [], some "d", .literal "2"⟩]
    let registry := (compile symbols (.ofModule "M" (definitions.map Definition.tree))).registry
    declarations.resolveIn [.integer] = .ok symbols ∧ (definitions.map Definition.name).Nodup ∧
      ∀ link ∈ [(1, "b"), (2, "d")], ∃ type caller, registry.templates[link.1]? = some caller ∧
        ∃ callee ∈ registry.templates.take link.1, ∃ definition ∈ definitions, definition.name = link.2 ∧
          List.Forall₂ (Parameter.Declared symbols) definition.parameters callee.parameters ∧
          (Java.call type link.2 []).toList <:+: (String.join (caller.fragments 0)).toList ∧
          (Java.method callee.type link.2 (callee.parameters.map Parameter.text)).toList <:+:
            (registry.source 0).toList ∧
          (0 = callee.parameters.length ↔ definition.parameters = []) := by
  intro declarations symbols definitions registry
  have resolved : declarations.resolveIn [.integer] = .ok symbols := rfl
  have distinct : (definitions.map Definition.name).Nodup := by decide
  refine ⟨resolved, distinct, ?_⟩
  intro link member
  have calls : ([(1, "b"), (2, "d")].all fun link => registry.templates[link.1]?.any fun caller =>
      caller.values.any fun value => decide (.baseCall link.2 ∈ value.atoms)) = true := by decide +kernel
  obtain ⟨caller, there, calls⟩ := (Option.any_eq_true _ _).mp (List.all_eq_true.mp calls link member)
  obtain ⟨value, among, mentioned⟩ := List.any_eq_true.mp calls
  obtain ⟨type, callee, earlier, definition, isGiven, -, -, named, parameters, call, -, method, count⟩ :=
    base_calls_pass_nothing resolved "M" distinct 0 link.1 caller there value among link.2 (of_decide_eq_true mentioned)
  exact ⟨type, caller, there, callee, earlier, definition, isGiven, named, parameters, call, method,
    count [] (by simp) rfl⟩

/-- The call of a base with a formal parameter has no argument, although nothing is reported. -/
theorem base_call_lacks_argument :
    let symbols : Symbols :=
      { entries := [Builtin.integer.entry], builtins := [("integer", ⟨0⟩)], declared := [], constants := [] }
    let definitions : List Definition :=
      [⟨.builtin "integer", "b", [(.builtin "integer", "p")], none, .literal "1"⟩,
        ⟨.builtin "integer", "d", [(.builtin "integer", "p")], some "b", .literal "2"⟩]
    let registry := (compile symbols (.ofModule "M" (definitions.map Definition.tree))).registry
    (definitions.map Definition.name).Nodup ∧ registry.hasErrors = false ∧
      registry.source 0 = Java.method "INTEGER" "b" ["INTEGER p"] ++
        "\tINTEGER value = new INTEGER(\"1\");\n\treturn value;\n\x7d\n" ++
        Java.method "INTEGER" "d" ["INTEGER p"] ++ "\tINTEGER value = " ++ Java.call "INTEGER" "b" [] ++
        ";\n\tvalue = new INTEGER(\"2\");\n\treturn value;\n\x7d\n" := by
  decide +kernel

end TtcnTemplates
