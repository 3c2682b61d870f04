import TtcnTemplates.Output.Generate
import TtcnTemplates.Proofs.Readability

/-! # Indentation

The indentation of a source decides where its lines start, and nothing else. More tabs for an expression stand after its
line feeds, since its first line is started by what it stands in. More tabs for a module stand at the start of each of
its lines. For both, no name and no literal may have a line feed of its own. Descriptions and diagnostics may, since
they are escaped.
-/

namespace TtcnTemplates

open Java (Term indentation)
open Text

/-! ### Indented texts -/

/-- The characters of a text with `count` tabs after every line feed. -/
def Text.shiftChars (count : Nat) (text : List Char) : List Char :=
  text.flatMap fun c => if c = '\n' then '\n' :: indentation count else [c]

/-- A text with `count` tabs after every line feed. -/
def Text.shift (count : Nat) (text : String) : String := String.ofList (shiftChars count text.toList)

/-- The characters of a text with `count` tabs at the start of every line. Whether a line starts with the first
    character is told by `atStart`. -/
def Text.indentChars (count : Nat) (atStart : Bool) : List Char → List Char
  | [] => []
  | c :: rest => (if atStart then indentation count else []) ++ c :: indentChars count (c == '\n') rest

/-- A text with `count` tabs at the start of every line. -/
def Text.indentLines (count : Nat) (text : String) : String := String.ofList (indentChars count true text.toList)

theorem indentation_append (first second : Nat) :
    indentation first ++ indentation second = indentation (first + second) := List.replicate_append_replicate

theorem Text.shiftChars_feed (count : Nat) (rest : List Char) :
    shiftChars count ('\n' :: rest) = '\n' :: (indentation count ++ shiftChars count rest) := by simp [shiftChars]

theorem Text.shiftChars_cons {c : Char} (other : c ≠ '\n') (count : Nat) (rest : List Char) :
    shiftChars count (c :: rest) = c :: shiftChars count rest := by simp [shiftChars, other]

theorem Text.shiftChars_append (count : Nat) (first second : List Char) :
    shiftChars count (first ++ second) = shiftChars count first ++ shiftChars count second := List.flatMap_append

theorem Text.shiftChars_of_not_mem {text : List Char} (unbroken : '\n' ∉ text) (count : Nat) :
    shiftChars count text = text := by
  induction text with
  | nil => rfl
  | cons c rest ih =>
    rw [List.mem_cons, not_or] at unbroken
    rw [shiftChars_cons (Ne.symm unbroken.1), ih unbroken.2]

/-- The tabs come before those that a line has already. -/
theorem Text.shiftChars_line (count indent : Nat) :
    shiftChars count ('\n' :: indentation indent) = '\n' :: indentation (indent + count) := by
  have unbroken : '\n' ∉ indentation indent := by simp [indentation]
  rw [shiftChars_feed, shiftChars_of_not_mem unbroken, indentation_append, Nat.add_comm]

/-! ### Terms -/

/-- More tabs for a term stand after the line feeds of its text. -/
def Java.Term.Shifts (term : Term) : Prop :=
  ∀ indent count, term.text (indent + count) = shiftChars count (term.text indent)

theorem shiftChars_newText {type : String} (unbroken : '\n' ∉ type.toList) (count : Nat) (arguments : List Char) :
    shiftChars count (Java.newText type arguments) = Java.newText type (shiftChars count arguments) := by
  have new : shiftChars count "new".toList = "new".toList := shiftChars_of_not_mem (by decide) count
  have closing : shiftChars count [')'] = [')'] := shiftChars_of_not_mem (by decide) count
  rw [Java.newText, shiftChars_append, new, shiftChars_cons (by decide), shiftChars_append,
    shiftChars_of_not_mem unbroken, shiftChars_cons (by decide), shiftChars_append, closing, ← Java.newText]

theorem moreText_add {arguments : List Term} (shifts : ∀ term ∈ arguments, term.Shifts) (indent count : Nat) :
    Term.moreText (indent + count) arguments = shiftChars count (Term.moreText indent arguments) := by
  induction arguments with
  | nil => rw [Term.moreText, Term.moreText, shiftChars_line]
  | cons next rest ih =>
    rw [List.forall_mem_cons] at shifts
    rw [Term.moreText, Term.moreText, shiftChars_append, shiftChars_cons (by decide), shiftChars_line,
      shiftChars_append, ← shifts.1, ← ih shifts.2, Nat.add_right_comm]

theorem Java.Term.Shifts.construct {type : String} {arguments : List Term} (unbroken : '\n' ∉ type.toList)
    (shifts : ∀ term ∈ arguments, term.Shifts) : (Term.construct type arguments).Shifts := by
  intro indent count
  rw [Term.text, Term.text, shiftChars_newText unbroken]
  cases arguments with
  | nil => rfl
  | cons first rest =>
    rw [List.forall_mem_cons] at shifts
    rw [Term.argumentsText, Term.argumentsText, shiftChars_append, shiftChars_append, shiftChars_line, ← shifts.1,
      ← moreText_add shifts.2, Nat.add_right_comm]

theorem Java.Term.Shifts.wrap {type : String} {inner : Term} (unbroken : '\n' ∉ type.toList) (shifts : inner.Shifts) :
    (Term.wrap type inner).Shifts := by
  intro indent count
  rw [Term.text, Term.text, shiftChars_newText unbroken, shifts]

theorem Java.Term.Shifts.unbound {label : String} (unbroken : '\n' ∉ label.toList) : (Term.unbound label).Shifts := by
  intro indent count
  have oneLine : '\n' ∉ (Term.unbound label).text indent := by simp [Term.text, Java.nullText, unbroken]
  rw [shiftChars_of_not_mem oneLine]
  rfl

/-! ### Expressions -/

/-- The names and literals in an expression without subexpressions. -/
def Atom.texts : Atom → List String
  | .keyword text | .literal text | .parameter text | .constant text | .enumerated text | .baseCall text => [text]
  | .any | .anyOrOmit | .omitted | .boolean _ | .unsupported _ => []

mutual
/-- The names and literals in an expression. -/
def Expr.texts : Expr → List String
  | .atom type leaf => type :: leaf.texts
  | .named type slots => type :: Expr.namedTexts slots
  | .positional type slots => type :: Expr.positionalTexts slots
  | .sequence type elements => type :: Expr.elementTexts elements
  | .union type alternative value => type :: alternative :: value.texts

/-- The names and literals in the slots of a record or set, with the names of the fields. -/
def Expr.namedTexts : List (String × Option Expr) → List String
  | [] => []
  | (name, none) :: rest => name :: Expr.namedTexts rest
  | (name, some value) :: rest => name :: (value.texts ++ Expr.namedTexts rest)

/-- The names and literals in the slots of a record or set. -/
def Expr.positionalTexts : List (Option Expr) → List String
  | [] => []
  | none :: rest => Expr.positionalTexts rest
  | some value :: rest => value.texts ++ Expr.positionalTexts rest

/-- The names and literals in the elements of a record of or set of. -/
def Expr.elementTexts : List Expr → List String
  | [] => []
  | value :: rest => value.texts ++ Expr.elementTexts rest
end

/-- None of the texts has a line feed. -/
def Unbroken (texts : List String) : Prop := ∀ text ∈ texts, '\n' ∉ text.toList

instance (texts : List String) : Decidable (Unbroken texts) :=
  inferInstanceAs (Decidable (∀ text ∈ texts, '\n' ∉ text.toList))

theorem unbroken_append {first second : List String} : Unbroken (first ++ second) ↔ Unbroken first ∧ Unbroken second :=
  List.forall_mem_append

theorem unbroken_cons {text : String} {rest : List String} :
    Unbroken (text :: rest) ↔ '\n' ∉ text.toList ∧ Unbroken rest := List.forall_mem_cons

theorem unbroken_flatMap {α : Type} {texts : α → List String} {items : List α} :
    Unbroken (items.flatMap texts) ↔ ∀ item ∈ items, Unbroken (texts item) := List.forall_mem_flatMap

theorem Unbroken.intercalate {separator : List String} {parts : List (List String)} (between : Unbroken separator)
    (each : ∀ part ∈ parts, Unbroken part) : Unbroken (separator.intercalate parts) := by
  induction parts with
  | nil => exact List.forall_mem_nil _
  | cons part rest ih =>
    rw [List.forall_mem_cons] at each
    cases rest with
    | nil => simpa using each.1
    | cons next rest =>
      rw [List.intercalate_cons_cons, unbroken_append, unbroken_append]
      exact ⟨⟨each.1, between⟩, ih each.2⟩

theorem Unbroken.not_mem_chars {fragments : List String} (unbroken : Unbroken fragments) : '\n' ∉ chars fragments := by
  simpa [Unbroken, chars] using unbroken

theorem not_mem_escapeComment (text : String) : '\n' ∉ (escapeComment text).toList := by
  rw [Java.toList_escapeComment]
  exact Java.not_mem_commentChars (by decide) text.toList

theorem Atom.unbroken_fragments {type : String} {leaf : Atom} (unbroken : Unbroken (type :: leaf.texts)) :
    Unbroken (leaf.fragments type) := by
  cases leaf with
  | boolean value => cases value <;> simpa [Unbroken, Atom.fragments, Atom.texts] using unbroken
  | unsupported description =>
    simpa [Unbroken, Atom.fragments] using not_mem_escapeComment description
  | parameter name => exact (unbroken_cons.mp unbroken).2
  | constant name => simpa [Unbroken, Atom.fragments] using (unbroken_cons.mp (unbroken_cons.mp unbroken).2).1
  | _ => simpa [Unbroken, Atom.fragments, Atom.texts] using unbroken

theorem Atom.shifts {type : String} {leaf : Atom} (unbroken : Unbroken (type :: leaf.texts)) :
    (leaf.term type).Shifts := by
  intro indent count
  rw [← Atom.chars_fragments, ← Atom.chars_fragments, shiftChars_of_not_mem (unbroken_fragments unbroken).not_mem_chars]

mutual
/-- More tabs for an expression stand after its line feeds. -/
theorem Expr.shifts {value : Expr} (unbroken : Unbroken value.texts) : value.term.Shifts := by
  cases value with
  | atom type leaf => exact Atom.shifts unbroken
  | named type slots =>
    obtain ⟨typed, inside⟩ := unbroken_cons.mp unbroken
    exact .construct typed (Expr.shifts_named inside)
  | positional type slots =>
    obtain ⟨typed, inside⟩ := unbroken_cons.mp unbroken
    exact .construct typed (Expr.shifts_positional 0 inside)
  | sequence type elements =>
    obtain ⟨typed, inside⟩ := unbroken_cons.mp unbroken
    exact .construct typed (Expr.shifts_elements inside)
  | union type alternative value =>
    obtain ⟨typed, inside⟩ := unbroken_cons.mp unbroken
    obtain ⟨named, inside⟩ := unbroken_cons.mp inside
    exact .wrap (by simp [unionWrapper, typed, named]) (Expr.shifts inside)

theorem Expr.shifts_named {slots : List (String × Option Expr)} (unbroken : Unbroken (Expr.namedTexts slots)) :
    ∀ term ∈ Expr.namedTerms slots, term.Shifts := by
  cases slots with
  | nil => simp [Expr.namedTerms]
  | cons slot rest =>
    obtain ⟨name, value⟩ := slot
    cases value with
    | none =>
      obtain ⟨named, later⟩ := unbroken_cons.mp unbroken
      exact List.forall_mem_cons.mpr ⟨.unbound (by simp [named]), Expr.shifts_named later⟩
    | some value =>
      obtain ⟨here, later⟩ := unbroken_append.mp (unbroken_cons.mp unbroken).2
      exact List.forall_mem_cons.mpr ⟨Expr.shifts here, Expr.shifts_named later⟩

theorem Expr.shifts_positional (first : Nat) {slots : List (Option Expr)}
    (unbroken : Unbroken (Expr.positionalTexts slots)) : ∀ term ∈ Expr.positionalTerms first slots, term.Shifts := by
  cases slots with
  | nil => simp [Expr.positionalTerms]
  | cons slot rest =>
    cases slot with
    | none =>
      have index := not_mem_repr (by decide : '\n'.isDigit = false) first
      have label : '\n' ∉ ("element " ++ first.repr).toList := by
        rw [String.toList_append, List.mem_append, not_or]
        exact ⟨by decide, index⟩
      exact List.forall_mem_cons.mpr ⟨.unbound label, Expr.shifts_positional (first + 1) unbroken⟩
    | some value =>
      obtain ⟨here, later⟩ := unbroken_append.mp unbroken
      exact List.forall_mem_cons.mpr ⟨Expr.shifts here, Expr.shifts_positional (first + 1) later⟩

theorem Expr.shifts_elements {elements : List Expr} (unbroken : Unbroken (Expr.elementTexts elements)) :
    ∀ term ∈ Expr.elementTerms elements, term.Shifts := by
  cases elements with
  | nil => simp [Expr.elementTerms]
  | cons value rest =>
    obtain ⟨here, later⟩ := unbroken_append.mp unbroken
    exact List.forall_mem_cons.mpr ⟨Expr.shifts here, Expr.shifts_elements later⟩
end

theorem Expr.chars_fragments_add {value : Expr} (unbroken : Unbroken value.texts) (indent count : Nat) :
    chars (value.fragments (indent + count)) = shiftChars count (chars (value.fragments indent)) := by
  rw [Expr.chars_fragments, Expr.chars_fragments, Expr.shifts unbroken]

/-! ### Lines -/

/-- A text of whole lines, and the text in which each of them starts with `count` more tabs. -/
def Text.Indents (count : Nat) (lines indented : List Char) : Prop :=
  ∀ rest, indentChars count true (lines ++ rest) = indented ++ indentChars count true rest

theorem Text.Indents.append {count : Nat} {first first' second second' : List Char} (left : Indents count first first')
    (right : Indents count second second') : Indents count (first ++ second) (first' ++ second') := by
  intro rest
  rw [List.append_assoc, left, right, List.append_assoc]

theorem Text.Indents.flatMap {α : Type} {count : Nat} {items : List α} {lines indented : α → List String}
    (each : ∀ item ∈ items, Indents count (chars (lines item)) (chars (indented item))) :
    Indents count (chars (items.flatMap lines)) (chars (items.flatMap indented)) := by
  induction items with
  | nil => exact fun _ => rfl
  | cons item rest ih =>
    rw [List.forall_mem_cons] at each
    rw [List.flatMap_cons, List.flatMap_cons, chars_append, chars_append]
    exact each.1.append (ih each.2)

theorem Text.indentChars_true {text : List Char} (nonempty : text ≠ []) (count : Nat) :
    indentChars count true text = indentation count ++ indentChars count false text := by
  cases text with
  | nil => exact absurd rfl nonempty
  | cons c rest => rfl

/-- Up to the end of a line that has started, tabs come after line feeds only. -/
theorem Text.indentChars_false (count : Nat) (text rest : List Char) :
    indentChars count false (text ++ '\n' :: rest) = shiftChars count text ++ '\n' :: indentChars count true rest := by
  induction text with
  | nil => rfl
  | cons c text ih =>
    by_cases feed : c = '\n'
    · have later : indentChars count true (text ++ '\n' :: rest) = _ := indentChars_true (by simp) count
      rw [ih] at later
      simp [indentChars, shiftChars_feed, feed, later]
    · simp [indentChars, shiftChars_cons feed, beq_false_of_ne feed, ih]

/-- A fragment with a line feed at its end and nowhere else. -/
def EndsLine (fragment : String) : Prop :=
  fragment.toList = fragment.toList.dropLast ++ ['\n'] ∧ '\n' ∉ fragment.toList.dropLast

instance (fragment : String) : Decidable (EndsLine fragment) := inferInstanceAs (Decidable (_ ∧ _))

/-- A line that starts with `indent` tabs. What comes before its last fragment may be broken into several lines. -/
theorem indents_line (count indent : Nat) (last : String) (ends : EndsLine last) {first first' : List String}
    (shifted : chars first' = shiftChars count (chars first)) :
    Indents count (chars (tabs indent ++ first ++ [last])) (chars (tabs (indent + count) ++ first' ++ [last])) := by
  intro rest
  obtain ⟨ending, unbroken⟩ := ends
  have started : '\n' ∉ indentation indent := by simp [indentation]
  have split (indent : Nat) (first : List String) (rest : List Char) : chars (tabs indent ++ first ++ [last]) ++ rest =
      indentation indent ++ chars first ++ last.toList.dropLast ++ '\n' :: rest := by
    rw [chars_append, chars_append, chars_tabs, chars_cons, ending]
    simp
  rw [split, split, indentChars_true (by simp), indentChars_false, shiftChars_append, shiftChars_append,
    shiftChars_of_not_mem started, shiftChars_of_not_mem unbroken, ← shifted, Nat.add_comm indent, ← indentation_append]
  simp

/-! ### Modules -/

/-- The names and literals in a template. -/
def Template.texts (template : Template) : List String :=
  template.name :: template.type :: (template.value.toList.flatMap Expr.texts ++
    (template.parameters.flatMap fun parameter => [parameter.type, parameter.name]) ++
    template.overrides.flatMap fun override => override.path.fields ++ override.value.texts)

/-- The names and literals in the templates of a module. -/
def Registry.texts (registry : Registry) : List String := registry.templates.flatMap Template.texts

theorem Unbroken.chars_eq {fragments : List String} (unbroken : Unbroken fragments) (count : Nat) :
    chars fragments = shiftChars count (chars fragments) := (shiftChars_of_not_mem unbroken.not_mem_chars count).symm

theorem Unbroken.chars_append_eq {first later later' : List String} {count : Nat} (unbroken : Unbroken first)
    (shifted : chars later' = shiftChars count (chars later)) :
    chars (first ++ later') = shiftChars count (chars (first ++ later)) := by
  rw [chars_append, chars_append, shiftChars_append, ← unbroken.chars_eq, shifted]

theorem FieldPath.unbroken_text {path : FieldPath} (unbroken : Unbroken path.fields) : '\n' ∉ path.text.toList := by
  simpa [FieldPath.text, String.toList_join, Unbroken] using unbroken

theorem Override.indents {override : Override} (unbroken : Unbroken (override.path.fields ++ override.value.texts))
    (indent count : Nat) :
    Indents count (chars (override.fragments indent)) (chars (override.fragments (indent + count))) := by
  obtain ⟨fields, inside⟩ := unbroken_append.mp unbroken
  have target : Unbroken ["value", override.path.text, " = "] := by
    simpa [Unbroken] using FieldPath.unbroken_text fields
  have shifted := target.chars_append_eq (Expr.chars_fragments_add inside indent count)
  simpa only [Override.fragments, List.append_assoc] using indents_line count indent ";\n" (by decide) shifted

theorem Template.chars_valueFragments_add {template : Template}
    (unbroken : ∀ value ∈ template.value.toList, Unbroken value.texts) (indent count : Nat) :
    chars (template.valueFragments (indent + count)) = shiftChars count (chars (template.valueFragments indent)) := by
  rw [Template.valueFragments, Template.valueFragments]
  cases given : template.value with
  | none => exact Unbroken.chars_eq (by simp [Unbroken]) count
  | some value =>
    have inside : Unbroken value.texts := unbroken value (by simp [given])
    exact Expr.chars_fragments_add inside indent count

theorem Template.indents {template : Template} (unbroken : Unbroken template.texts) (indent count : Nat) :
    Indents count (chars (template.fragments indent)) (chars (template.fragments (indent + count))) := by
  obtain ⟨named, rest⟩ := unbroken_cons.mp unbroken
  obtain ⟨typed, rest⟩ := unbroken_cons.mp rest
  obtain ⟨rest, overrides⟩ := unbroken_append.mp rest
  obtain ⟨value, parameters⟩ := unbroken_append.mp rest
  rw [unbroken_flatMap] at value parameters overrides
  have signature : Unbroken (["public static ", template.type, " ", template.name, "("] ++
      [", "].intercalate (template.parameters.map Parameter.fragments)) := by
    refine unbroken_append.mpr ⟨by simp [Unbroken, named, typed], .intercalate (by simp [Unbroken]) ?_⟩
    rw [List.forall_mem_map]
    intro parameter member
    simpa [Unbroken, Parameter.fragments] using parameters parameter member
  have nothing : Unbroken [] := List.forall_mem_nil _
  have variableLine : Unbroken [template.type, " value = "] := by simp [Unbroken, typed]
  have opens := indents_line count indent ") \x7b\n" (by decide) (signature.chars_eq count)
  have declares := indents_line count (indent + 1) ";\n" (by decide)
    (variableLine.chars_append_eq (template.chars_valueFragments_add value (indent + 1) count))
  have assigns := Indents.flatMap fun override member => Override.indents (overrides override member) (indent + 1) count
  have returns := indents_line count (indent + 1) "return value;\n" (by decide) (nothing.chars_eq count)
  have closes := indents_line count indent "\x7d\n" (by decide) (nothing.chars_eq count)
  have lines := opens.append (declares.append (assigns.append (returns.append closes)))
  rw [Nat.add_right_comm indent 1 count] at lines
  simpa only [Template.fragments, chars_append, chars_nil, List.append_assoc, List.nil_append] using lines

theorem Diagnostic.indents (diagnostic : Diagnostic) (indent count : Nat) :
    Indents count (chars (diagnostic.fragments indent)) (chars (diagnostic.fragments (indent + count))) := by
  have text : Unbroken ["// ", escapeComment diagnostic.text] := by
    simpa [Unbroken] using not_mem_escapeComment diagnostic.text
  simpa [Diagnostic.fragments] using indents_line count indent "\n" (by decide) (text.chars_eq count)

theorem Registry.indents {registry : Registry} (unbroken : Unbroken registry.texts) (indent count : Nat) :
    Indents count (chars (registry.fragments indent)) (chars (registry.fragments (indent + count))) := by
  rw [Registry.texts, unbroken_flatMap] at unbroken
  rw [Registry.fragments, Registry.fragments, chars_append, chars_append]
  have comments (diagnostic : Diagnostic) := diagnostic.indents indent count
  have methods := fun template member => Template.indents (unbroken template member) indent count
  exact (Indents.flatMap fun diagnostic _ => comments diagnostic).append (Indents.flatMap methods)

theorem Registry.source_add {registry : Registry} (unbroken : Unbroken registry.texts) (indent count : Nat) :
    registry.source (indent + count) = indentLines count (registry.source indent) := by
  have lines := Registry.indents unbroken indent count []
  rw [List.append_nil, indentChars, List.append_nil] at lines
  rw [← String.toList_inj, indentLines, String.toList_ofList, Registry.source, Registry.source, String.toList_join,
    String.toList_join]
  exact lines.symm

theorem Expr.source_add {value : Expr} (unbroken : Unbroken value.texts) (indent count : Nat) :
    value.source (indent + count) = shift count (value.source indent) := by
  rw [← String.toList_inj, shift, String.toList_ofList, Expr.toList_source, Expr.toList_source, Expr.shifts unbroken]

/-- More tabs for a module are tabs at the start of each of its lines, and more tabs for an expression are tabs after
    each of its line feeds, if no name and no literal has a line feed. So the body of the class that is generated for
    the module is the source of the module with a tab at the start of each line. -/
theorem source_indented (registry : Registry) (registryUnbroken : Unbroken registry.texts) (value : Expr)
    (valueUnbroken : Unbroken value.texts) :
    (∀ count, registry.source count = indentLines count (registry.source 0)) ∧
      (∀ indent count, value.source (indent + count) = shift count (value.source indent)) ∧
      ∀ (σ : Type) [FileStore σ] (store : σ) (settings : Settings),
        let package := settings.packageFor registry
        let body := indentLines 1 (registry.source 0)
        let content := String.join (settings.heading package) ++ body ++ "\x7d\n"
        let created := FileStore.create store (settings.pathIn package) (encode content)
        (generate store settings registry).store = created.store ∧
          (generate store settings registry).result = created.result := by
  have indented (count : Nat) : registry.source count = indentLines count (registry.source 0) := by
    simpa using Registry.source_add registryUnbroken 0 count
  refine ⟨indented, Expr.source_add valueUnbroken, ?_⟩
  intro σ _ store settings package body content created
  have same : String.join (settings.fragments package registry) = content := by
    rw [Settings.fragments, String.join_append, String.join_append, ← Registry.source, indented 1]
    simp [content, body]
  rw [generate, same]
  exact ⟨rfl, rfl⟩

/-- A module in which a fault and a description have line feeds, and in which a template has arguments on two levels. -/
theorem source_indented_nested :
    let value := Expr.named "R" [("a", some (.sequence "L" [.atom "L" (.unsupported "x\ny")])), ("b", none)]
    let registry : Registry :=
      { templates := [⟨"t", "R", some value, [⟨"INTEGER", "p"⟩], [⟨⟨["b"]⟩, .atom "INTEGER" .any⟩]⟩]
        diagnostics := [⟨some "u", .fault (.malformedLiteral "1\n2")⟩] }
    Unbroken registry.texts ∧ Unbroken value.texts ∧
      registry.source 1 = "\t// error in template u: malformed literal 1\\n2\n" ++
        "\tpublic static R t(INTEGER p) \x7b\n" ++
        "\t\tR value = new R(\n\t\t\tnew L(\n\t\t\t\tnull /* unsupported template: x\\ny */\n\t\t\t),\n" ++
        "\t\t\tnull /* unbound field b */\n\t\t);\n\t\tvalue.b = INTEGER.ANY;\n\t\treturn value;\n\t\x7d\n" ∧
      value.source 3 = "new R(\n\t\t\t\tnew L(\n\t\t\t\t\tnull /* unsupported template: x\\ny */\n" ++
        "\t\t\t\t),\n\t\t\t\tnull /* unbound field b */\n\t\t\t)" := by
  intro value registry
  have registryUnbroken : Unbroken registry.texts := by decide +kernel
  have valueUnbroken : Unbroken value.texts := by decide +kernel
  obtain ⟨lines, feeds, -⟩ := source_indented registry registryUnbroken value valueUnbroken
  refine ⟨registryUnbroken, valueUnbroken, ?_, ?_⟩
  · rw [lines 1, ← String.toList_inj, indentLines, String.toList_ofList, Registry.source, String.toList_join]
    simp only [String.toList_append]
    decide +kernel
  · rw [feeds 0 3, ← String.toList_inj, shift, String.toList_ofList, Expr.source, String.toList_join]
    simp only [String.toList_append]
    decide +kernel

end TtcnTemplates
