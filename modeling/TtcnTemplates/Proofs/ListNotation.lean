import TtcnTemplates.Proofs.Replay
import TtcnTemplates.Template.Source

/-! # Lists of all fields

A record or set can be written as a list with an element for each of its fields, or by assignments to all of them. The
two are read by position and by name, and they become different expressions, but where no slot is left without a value
these have the same source.
-/

namespace TtcnTemplates

/-! ### Fields and slots -/

theorem Symbols.element?_of_isStructured {symbols : Symbols} {type : TypeId}
    (structured : symbols.isStructured type = true) : symbols.element? type = none := by
  rw [isStructured] at structured
  rw [element?]
  cases found : symbols.shape? type with
  | none => rfl
  | some shape =>
    rw [found] at structured
    cases shape with
    | recordOf element => cases structured
    | setOf element => cases structured
    | _ => rfl

/-- A field is found by its name if no two fields have the same name. -/
theorem Field.find?_of_mem {fields : List (Field TypeId)} (distinct : (fields.map Field.name).Nodup)
    {field : Field TypeId} (member : field ∈ fields) : Field.find? fields field.name = some field := by
  induction fields with
  | nil => cases member
  | cons first rest ih =>
    rw [List.map_cons, List.nodup_cons] at distinct
    rcases List.mem_cons.mp member with rfl | later
    · simp [Field.find?]
    · have ne : first.name ≠ field.name := by
        intro same
        exact distinct.1 (same ▸ List.mem_map_of_mem later)
      rw [Field.find?, List.find?_cons, beq_false_of_ne ne]
      exact ih distinct.2 later

/-- Where all fields are given, it is of no account whether the slots have names. -/
theorem Expr.namedArguments_of_bound {slots : List (String × Option Expr)}
    (bound : ∀ slot ∈ slots, slot.2.isSome = true) (indent first : Nat) :
    Expr.namedArguments indent slots = Expr.positionalArguments indent first (slots.map Prod.snd) := by
  induction slots generalizing first with
  | nil => rfl
  | cons slot rest ih =>
    obtain ⟨here, later⟩ := List.forall_mem_cons.mp bound
    obtain ⟨name, value⟩ := slot
    cases value with
    | none => cases here
    | some value => rw [List.map_cons, Expr.namedArguments, Expr.positionalArguments, ih later (first + 1)]

/-! ### Bodies -/

section Lists

variable {symbols : Symbols} {parameters : List Parameter}

/-- With an element for each of the given fields, list notation and the assignments to these fields make the same
    remarks and have the same fault, or give each field the element at its place. -/
theorem Body.listed_agrees {type : String} {all fields : List (Field TypeId)}
    (known : ∀ field ∈ fields, Field.find? all field.name = some field) (distinct : (fields.map Field.name).Nodup)
    {bodies : List Body} (arity : bodies.length = fields.length) (count index : Nat) {given : List (String × Expr)}
    (unbound : ∀ field ∈ fields, given.lookup field.name = none) :
    (Body.listed symbols parameters type count fields index bodies).Agree
      (fun slots given' => slots = (fields.map fun field => given'.lookup field.name) ∧
        (∀ field ∈ fields, (given'.lookup field.name).isSome = true) ∧
        ∀ name ∉ fields.map Field.name, given'.lookup name = given.lookup name)
      (Body.assigned symbols parameters type all given ((fields.map Field.name).zip bodies)) := by
  induction fields generalizing bodies index given with
  | nil =>
    cases List.eq_nil_of_length_eq_zero arity
    exact .ok ⟨rfl, by simp, fun _ _ => rfl⟩
  | cons field fields ih =>
    cases bodies with
    | nil => cases arity
    | cons body bodies =>
      obtain ⟨found, known⟩ := List.forall_mem_cons.mp known
      obtain ⟨free, unbound⟩ := List.forall_mem_cons.mp unbound
      obtain ⟨fresh, distinct⟩ := List.nodup_cons.mp distinct
      rw [Body.listed, List.map_cons, List.zip_cons_cons, Body.assigned, found]
      refine (Reading.Agree.refl (body.value symbols parameters field.type)).bind ?_
      rintro value _ rfl
      rw [free, Option.isSome_none]
      refine (ih known distinct (Nat.succ.inj arity) (index + 1) ?_).map_left ?_
      · intro other member
        have ne : other.name ≠ field.name := fun same => fresh (same ▸ List.mem_map_of_mem member)
        rw [List.lookup_cons, beq_false_of_ne ne]
        exact unbound other member
      · rintro slots given' ⟨rfl, bound, others⟩
        -- The later fields have other names, so this one keeps its value.
        have here : given'.lookup field.name = some value := by
          rw [others field.name fresh, List.lookup_cons_self]
        refine ⟨by rw [List.map_cons, here], ?_, ?_⟩
        · exact List.forall_mem_cons.mpr ⟨by rw [here]; rfl, bound⟩
        · intro name absent
          rw [List.mem_cons, not_or] at absent
          rw [others name absent.2, List.lookup_cons, beq_false_of_ne absent.1]

/-- A record or set as a list of all its fields has the source of the assignments to these. -/
theorem Body.elements_agree (symbolsDistinct : symbols.Distinct) {type : TypeId}
    (structured : symbols.isStructured type = true) {bodies : List Body}
    (arity : bodies.length = (symbols.fields type).length) :
    ((Body.elements bodies).value symbols parameters type).Agree
      (fun value value' => ∀ indent, value.fragments indent = value'.fragments indent)
      ((Body.fields (((symbols.fields type).map Field.name).zip bodies)).value symbols parameters type) := by
  have distinct := symbolsDistinct type
  have known (field : Field TypeId) (member : field ∈ symbols.fields type) := Field.find?_of_mem distinct member
  simp only [Body.value, Symbols.element?_of_isStructured structured, Symbols.not_isUnion_of_isStructured structured,
    structured, Bool.false_eq_true, if_false, if_true]
  refine (Body.listed_agrees known distinct arity _ 0 (by simp)).bind ?_
  rintro _ given ⟨rfl, bound, -⟩
  refine .ok fun indent => ?_
  rw [Expr.fragments, Expr.fragments, Expr.namedArguments_of_bound (by simpa using bound) (indent + 1) 0, List.map_map]
  rfl

end Lists

/-! ### Definitions -/

theorem Definition.elements_agree {symbols : Symbols} (distinct : symbols.Distinct) {type : TypeId}
    (structured : symbols.isStructured type = true) {bodies : List Body}
    (arity : bodies.length = (symbols.fields type).length) (templates : List Template) (use : TypeUse) (name : String)
    (parameters : List (TypeUse × String)) :
    (Definition.template ⟨use, name, parameters, none, .elements bodies⟩ symbols templates type).Agree
      (fun template template' => ∀ indent, template.fragments indent = template'.fragments indent)
      (Definition.template ⟨use, name, parameters, none, .fields (((symbols.fields type).map Field.name).zip bodies)⟩
        symbols templates type) := by
  refine (Reading.Agree.refl (readParameters symbols parameters)).bind ?_
  rintro parameters _ rfl
  refine (Body.elements_agree distinct structured arity).bind ?_
  intro value value' same
  refine .ok fun indent => ?_
  simp only [Template.fragments, Template.valueFragments, same]

/-- A definition of a record or set that modifies no other one can give its fields as a list or by assignments to all
    of them, in the order of the declaration: the diagnostics are the same, and either both definitions are dropped with
    the same fault, or the methods of their templates have the same source. -/
theorem list_agrees_with_assignments (order : List Builtin) (declarations : Declarations) (symbols : Symbols)
    (resolved : declarations.resolveIn order = .ok symbols) (module : String) (earlier : List Tree)
    (definitions : ∀ tree ∈ earlier, tree.IsDefinition) (use : TypeUse) (type : TypeId)
    (typed : symbols.lookup use = some type) (structured : symbols.isStructured type = true) (name : String)
    (parameters : List (TypeUse × String)) (bodies : List Body)
    (arity : bodies.length = (symbols.fields type).length) :
    let before := (compile symbols (Tree.ofModule module earlier)).registry
    let after (body : Body) := (compile symbols (Tree.ofModule module
      (earlier ++ [Tree.ofDefinition use name parameters none body.tree]))).registry
    let listed := after (.elements bodies)
    let named := after (.fields (((symbols.fields type).map Field.name).zip bodies))
    listed.diagnostics = named.diagnostics ∧
      ((∃ remarks fault, listed = (before.remarkAll name remarks).report ⟨some name, .fault fault⟩ ∧ named = listed) ∨
        ∃ remarks template template', listed = (before.remarkAll name remarks).add template ∧
          named = (before.remarkAll name remarks).add template' ∧
          ∀ indent, String.join (template.fragments indent) = String.join (template'.fragments indent)) := by
  intro before after listed named
  let definition (body : Body) : Definition := ⟨use, name, parameters, none, body⟩
  have distinct := Declarations.resolveIn_distinct resolved
  have isListed : listed = Definition.translate symbols before (definition (.elements bodies)) :=
    registry_concat distinct module definitions (definition (.elements bodies))
  have isNamed : named = Definition.translate symbols before (definition (.fields _)) :=
    registry_concat distinct module definitions (definition (.fields _))
  have agree := Definition.elements_agree distinct structured arity before.templates use name parameters
  simp only [Definition.translate, definition, typed] at isListed isNamed
  generalize Definition.template ⟨use, name, parameters, none, .elements bodies⟩ symbols before.templates type = reading
    at isListed agree
  generalize Definition.template ⟨use, name, parameters, none, .fields _⟩ symbols before.templates type = reading'
    at isNamed agree
  cases agree with
  | error remarks fault =>
    exact ⟨by rw [isListed, isNamed], .inl ⟨remarks, fault, isListed, isNamed.trans isListed.symm⟩⟩
  | @ok remarks template template' same =>
    refine ⟨by rw [isListed, isNamed]; rfl, .inr ⟨remarks, template, template', isListed, isNamed, fun indent => ?_⟩⟩
    rw [same indent]

/-- A record with a field that is remarked on and one that is a list itself. -/
theorem list_agrees_with_assignments_nested :
    let declarations : Declarations :=
      { types := [⟨"R", .record [⟨"a", .builtin "integer"⟩, ⟨"l", .declared "L"⟩]⟩,
          ⟨"L", .recordOf (.builtin "integer")⟩] }
    let symbols : Symbols :=
      { entries := [Builtin.integer.entry, ⟨"R", "R", some (.record [⟨"a", ⟨0⟩⟩, ⟨"l", ⟨2⟩⟩])⟩,
          ⟨"L", "L", some (.recordOf ⟨0⟩)⟩]
        builtins := [("integer", ⟨0⟩)]
        declared := [("R", ⟨1⟩), ("L", ⟨2⟩)]
        constants := [] }
    let bodies : List Body := [.other "range", .elements [.literal "1", .any]]
    let after (body : Body) := (compile symbols (Tree.ofModule "M"
      [Tree.ofDefinition (.declared "R") "t" [] none body.tree])).registry
    let listed := after (.elements bodies)
    let named := after (.fields (["a", "l"].zip bodies))
    declarations.resolveIn [.integer] = .ok symbols ∧ symbols.isStructured ⟨1⟩ = true ∧
      listed.diagnostics = named.diagnostics ∧ listed.diagnostics.length = 1 ∧
      ∃ template template', listed.templates = [template] ∧ named.templates = [template'] ∧
        ∀ indent, String.join (template.fragments indent) = String.join (template'.fragments indent) := by
  intro declarations symbols bodies after listed named
  have resolved : declarations.resolveIn [.integer] = .ok symbols := by rfl
  have structured : symbols.isStructured ⟨1⟩ = true := by rfl
  have start : (compile symbols (Tree.ofModule "M" [])).registry = { name := some "M" } := by rfl
  have kept : listed.templates.length = 1 := by decide +kernel
  have remarked : listed.diagnostics.length = 1 := by decide +kernel
  have names : (symbols.fields ⟨1⟩).map Field.name = ["a", "l"] := by rfl
  have agree := list_agrees_with_assignments [.integer] declarations symbols resolved "M" [] (by simp) (.declared "R")
    ⟨1⟩ (by decide) structured "t" [] bodies (by rfl)
  simp only [start, names, List.nil_append] at agree
  change listed.diagnostics = named.diagnostics ∧ ((∃ remarks fault, listed = _ ∧ named = listed) ∨
    ∃ remarks template template', listed = _ ∧ named = _ ∧ _) at agree
  obtain ⟨diagnostics, outcome⟩ := agree
  refine ⟨resolved, structured, diagnostics, remarked, ?_⟩
  generalize listed = left at outcome kept ⊢
  generalize named = right at outcome ⊢
  obtain ⟨remarks, fault, rfl, -⟩ | ⟨remarks, template, template', rfl, rfl, same⟩ := outcome
  · cases kept
  · exact ⟨template, template', rfl, rfl, same⟩

end TtcnTemplates
