import TtcnTemplates.Proofs.Registration
import TtcnTemplates.Proofs.Resolution

/-! # Values are well typed

A value is well typed at a type of the table if it constructs the class of that type and what is nested in it is well
typed at the types that the table gives for its place (`Expr.HasType`). Whatever is entered and left, all values of the
registered templates are well typed, and the overrides of a template lead from its type through the fields of records
and sets to the type of their value.
-/

namespace TtcnTemplates

/-! ### Well-typed expressions -/

/-- What a type requires of an expression without subexpressions: a constant is declared, and a value of an enumeration
    is one of the type's. -/
def Atom.Fits (symbols : Symbols) (type : TypeId) : Atom → Prop
  | .constant name => symbols.isConstant name = true
  | .enumerated name => symbols.hasValue type name = true
  | _ => True

/-- The well-typed expressions of a table. -/
inductive Expr.HasType (symbols : Symbols) : Expr → TypeId → Prop
  | atom {type : TypeId} {leaf : Atom} (known : symbols.Has type) (fits : leaf.Fits symbols type) :
      HasType symbols (.atom (symbols.javaName type) leaf) type
  /-- Assignment notation: the slots are the fields of the type, in the order of their declaration. -/
  | named {type : TypeId} {slots : List (String × Option Expr)} (structured : symbols.isStructured type = true)
      (names : slots.map Prod.fst = (symbols.fields type).map Field.name)
      (values : ∀ (index : Nat) (field : Field TypeId) (name : String) (value : Expr),
        (symbols.fields type)[index]? = some field → slots[index]? = some (name, some value) →
          HasType symbols value field.type) :
      HasType symbols (.named (symbols.javaName type) slots) type
  /-- List notation: there are as many slots as the type has fields. -/
  | positional {type : TypeId} {slots : List (Option Expr)} (structured : symbols.isStructured type = true)
      (length : slots.length = (symbols.fields type).length)
      (values : ∀ (index : Nat) (field : Field TypeId) (value : Expr),
        (symbols.fields type)[index]? = some field → slots[index]? = some (some value) →
          HasType symbols value field.type) :
      HasType symbols (.positional (symbols.javaName type) slots) type
  | sequence {type element : TypeId} {elements : List Expr} (found : symbols.element? type = some element)
      (values : ∀ value ∈ elements, HasType symbols value element) :
      HasType symbols (.sequence (symbols.javaName type) elements) type
  | union {type : TypeId} {alternative : Field TypeId} {value : Expr} (isUnion : symbols.isUnion type = true)
      (member : alternative ∈ symbols.fields type) (inner : HasType symbols value alternative.type) :
      HasType symbols (.union (symbols.javaName type) alternative.name value) type

/-- An expression inside an expression, or that expression itself. -/
inductive Expr.Within (inner : Expr) : Expr → Prop
  | self : Within inner inner
  | named {type name : String} {slots : List (String × Option Expr)} {value : Expr} (below : Within inner value)
      (member : (name, some value) ∈ slots) : Within inner (.named type slots)
  | positional {type : String} {slots : List (Option Expr)} {value : Expr} (below : Within inner value)
      (member : some value ∈ slots) : Within inner (.positional type slots)
  | sequence {type : String} {elements : List Expr} {value : Expr} (below : Within inner value)
      (member : value ∈ elements) : Within inner (.sequence type elements)
  | union {type alternative : String} {value : Expr} (below : Within inner value) :
      Within inner (.union type alternative value)

variable {symbols : Symbols}

namespace Expr.HasType

/-- A well-typed expression constructs the class of its type, which is a type of the table. -/
theorem type_eq {value : Expr} {type : TypeId} (typed : value.HasType symbols type) :
    symbols.Has type ∧ value.type = symbols.javaName type := by
  cases typed with
  | atom known fits => exact ⟨known, rfl⟩
  | named structured names values => exact ⟨Symbols.has_of_isStructured structured, rfl⟩
  | positional structured length values => exact ⟨Symbols.has_of_isStructured structured, rfl⟩
  | sequence found values => exact ⟨Symbols.has_of_element? found, rfl⟩
  | union isUnion member inner => exact ⟨Symbols.has_of_isUnion isUnion, rfl⟩

/-- Everything inside a well-typed expression is well typed. -/
theorem within {inner outer : Expr} (inside : inner.Within outer) {type : TypeId}
    (typed : outer.HasType symbols type) : ∃ type', inner.HasType symbols type' := by
  induction inside generalizing type with
  | self => exact ⟨type, typed⟩
  | @named _ name slots value below member ih =>
    cases typed with
    | named structured names values =>
      obtain ⟨index, there⟩ := List.mem_iff_getElem?.mp member
      have short : index < (symbols.fields type).length := by
        have inSlots := (List.getElem?_eq_some_iff.mp there).1
        have lengths := congrArg List.length names
        simp only [List.length_map] at lengths
        omega
      exact ih (values index _ name value (List.getElem?_eq_getElem short) there)
  | @positional _ slots value below member ih =>
    cases typed with
    | positional structured length values =>
      obtain ⟨index, there⟩ := List.mem_iff_getElem?.mp member
      have short : index < (symbols.fields type).length := by
        have inSlots := (List.getElem?_eq_some_iff.mp there).1
        omega
      exact ih (values index _ value (List.getElem?_eq_getElem short) there)
  | sequence below member ih =>
    cases typed with
    | sequence found values => exact ih (values _ member)
  | union below ih =>
    cases typed with
    | union isUnion member inner => exact ih inner

end Expr.HasType

theorem Atom.Arises.fits {given : String → Prop} {type : TypeId} {leaf : Atom}
    (arises : leaf.Arises symbols given type) : leaf.Fits symbols type := by
  cases leaf with
  | constant name => exact arises
  | enumerated name => exact arises
  | _ => trivial

/-- What is put together by the rules is well typed. -/
theorem Expr.Forms.hasType {given : String → Prop} {type : TypeId} {value : Expr}
    (forms : value.Forms symbols given type) : value.HasType symbols type := by
  induction forms with
  | atom known arises => exact .atom known arises.fits
  | @named type slots structured fields values ih =>
    refine .named structured ?_ ?_
    · rw [← fields]
      simp [Function.comp_def]
    · intro index field name value isField filled
      rw [← fields, List.getElem?_map] at isField
      obtain ⟨slot, there, rfl⟩ := Option.map_eq_some_iff.mp isField
      simp only [List.getElem?_map, there, Option.map_some, Option.some.injEq, Prod.mk.injEq] at filled
      exact ih slot (List.mem_of_getElem? there) value filled.2
  | @positional type slots structured fields values ih =>
    refine .positional structured ?_ ?_
    · rw [← fields]
      simp
    · intro index field value isField filled
      rw [← fields, List.getElem?_map] at isField
      obtain ⟨slot, there, rfl⟩ := Option.map_eq_some_iff.mp isField
      simp only [List.getElem?_map, there, Option.map_some, Option.some.injEq] at filled
      exact ih slot (List.mem_of_getElem? there) value filled
  | sequence found values ih => exact .sequence found ih
  | union isUnion member inner ih => exact .union isUnion member ih

/-! ### Registered templates -/

/-- Whatever nodes are entered and left, every value of every registered template, and everything inside it, is well
    typed. The definition of each template has read some types. If it has read one type only, that is the type of the
    template, its value is well typed at that type, and each override leads from that type through the fields of records
    and sets to a type at which its value is well typed. -/
theorem run_templates_wellTyped (order : List Builtin) (declarations : Declarations) (symbols : Symbols)
    (resolved : declarations.resolveIn order = .ok symbols) (events : List Event) :
    let templates := ((Compiler.new symbols).run events).state.registry.templates
    let reads := ((Compiler.new symbols).typeReads {} events).registered
    (∀ template ∈ templates, ∀ value ∈ template.value.toList ++ template.overrides.map Override.value,
      ∀ inner : Expr, inner.Within value →
        ∃ type, symbols.Has type ∧ inner.type = symbols.javaName type ∧ inner.HasType symbols type) ∧
    reads.length = templates.length ∧
    ∀ (index : Nat) (template : Template) (root : TypeId), templates[index]? = some template →
      reads[index]? = some [root] →
      template.type = symbols.javaName root ∧
      (∀ value, template.value = some value → value.HasType symbols root) ∧
      ∀ override ∈ template.overrides,
        ∃ type, symbols.Leads root override.path.fields type ∧ override.value.HasType symbols type := by
  intro templates reads
  have closed := Declarations.resolveIn_closed resolved
  have forms : ((Compiler.new symbols).run events).Forms symbols (fun _ => True) _ :=
    (Compiler.new_forms symbols _).run closed fun event _ => by cases event.tree.form <;> trivial
  refine ⟨?_, forms.templates.length_eq, ?_⟩
  · intro template member value isValue inner inside
    obtain ⟨index, there⟩ := List.mem_iff_getElem?.mp member
    obtain ⟨roots, -, formed⟩ := forms.exists_reads there
    obtain ⟨type, typed⟩ : ∃ type, value.HasType symbols type := by
      rcases List.mem_append.mp isValue with isValue | isOverride
      · obtain ⟨type, -, made⟩ := formed.value value (Option.mem_toList.mp isValue)
        exact ⟨type, made.hasType⟩
      · obtain ⟨override, among, rfl⟩ := List.mem_map.mp isOverride
        obtain ⟨root, -, type, -, made⟩ := formed.overrides override among
        exact ⟨type, made.hasType⟩
    obtain ⟨type', typed'⟩ := typed.within inside
    exact ⟨type', typed'.type_eq.1, typed'.type_eq.2, typed'⟩
  · intro index template root there read
    obtain ⟨roots, read', formed⟩ := forms.exists_reads there
    cases read.symm.trans read'
    refine ⟨?_, ?_, ?_⟩
    · obtain ⟨type, last, isType⟩ := formed.type
      cases last
      exact isType
    · intro value isValue
      obtain ⟨type, member, made⟩ := formed.value value isValue
      cases List.mem_singleton.mp member
      exact made.hasType
    · intro override among
      obtain ⟨root', member, type, leads, made⟩ := formed.overrides override among
      cases List.mem_singleton.mp member
      exact ⟨type, leads, made.hasType⟩

/-- A template of a recursive record is modified in a field of a field, which is an enumeration. -/
theorem run_templates_wellTyped_nested :
    let declarations : Declarations :=
      { types := [⟨"R", .record [⟨"a", .builtin "integer"⟩, ⟨"b", .declared "R"⟩, ⟨"e", .declared "E"⟩]⟩,
          ⟨"E", .enumerated ["on", "off"]⟩] }
    let symbols : Symbols :=
      { entries := [Builtin.integer.entry, ⟨"R", "R", some (.record [⟨"a", ⟨0⟩⟩, ⟨"b", ⟨1⟩⟩, ⟨"e", ⟨2⟩⟩])⟩,
          ⟨"E", "E", some (.enumerated ["on", "off"])⟩]
        builtins := [("integer", ⟨0⟩)]
        declared := [("R", ⟨1⟩), ("E", ⟨2⟩)]
        constants := [] }
    let base := Tree.ofDefinition (.declared "R") "base" [] none
      (.ofFields [("b", .ofElements [.ofLiteral "1", .ofAny]), ("a", .ofLiteral "2")])
    let derived := Tree.ofDefinition (.declared "R") "derived" [] (some "base")
      (.ofFields [("b", .ofFields [("e", .ofReference "on")])])
    let events := (Tree.ofModule "M" [base, derived]).events
    declarations.resolveIn [.integer] = .ok symbols ∧
      ∃ template, ((Compiler.new symbols).run events).state.registry.templates[1]? = some template ∧
        template.overrides.map (fun override => override.path.fields) = [["b", "e"]] ∧
        template.type = symbols.javaName ⟨1⟩ ∧
        ∀ override ∈ template.overrides,
          ∃ type, symbols.Leads ⟨1⟩ override.path.fields type ∧ override.value.HasType symbols type := by
  intro declarations symbols base derived events
  have resolved : declarations.resolveIn [.integer] = .ok symbols := by rfl
  have read : ((Compiler.new symbols).typeReads {} events).registered[1]? = some [⟨1⟩] := by decide +kernel
  have paths : ((Compiler.new symbols).run events).state.registry.templates[1]?.map
      (fun template => template.overrides.map fun override => override.path.fields) = some [["b", "e"]] := by
    decide +kernel
  obtain ⟨template, there, paths⟩ := Option.map_eq_some_iff.mp paths
  obtain ⟨-, -, typed⟩ := run_templates_wellTyped [.integer] declarations symbols resolved events
  obtain ⟨type, -, overrides⟩ := typed 1 template ⟨1⟩ there read
  exact ⟨resolved, template, there, paths, type, overrides⟩

end TtcnTemplates
