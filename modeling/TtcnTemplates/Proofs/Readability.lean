import TtcnTemplates.Proofs.SourceTokens
import TtcnTemplates.Proofs.Terms

/-! # The source of expressions can be read back

What an expression denotes in Java is a tree (`Expr.term`), in which the different notations for a record, a set and a
list of values are all constructor calls. Its source is the text of that tree, so it determines the tree, and the reader
finds it.
-/

namespace TtcnTemplates

open Java (Alphabet Term indentation)

/-! ### What expressions denote -/

/-- What an expression without subexpressions denotes. -/
def Atom.term (type : String) : Atom → Term
  | .any => .member type "ANY"
  | .anyOrOmit => .member type "ANY_OR_OMIT"
  | .omitted => .member type "OMIT"
  | .boolean true => .member type "TRUE"
  | .boolean false => .member type "FALSE"
  | .keyword field => .member type field
  | .literal text => .literal type text
  | .parameter name => .parameter name
  | .constant name => .constant name
  | .enumerated name => .member type name
  | .baseCall name => .baseCall type name
  | .unsupported description => .unsupported (Text.escapeComment description)

mutual
/-- What an expression denotes. -/
def Expr.term : Expr → Term
  | .atom type leaf => leaf.term type
  | .named type slots => .construct type (Expr.namedTerms slots)
  | .positional type slots => .construct type (Expr.positionalTerms 0 slots)
  | .sequence type elements => .construct type (Expr.elementTerms elements)
  | .union type alternative value => .wrap (unionWrapper alternative type) value.term

/-- The arguments for the slots of a record or set, by field name. -/
def Expr.namedTerms : List (String × Option Expr) → List Term
  | [] => []
  | (name, none) :: rest => .unbound ("field " ++ name) :: Expr.namedTerms rest
  | (_, some value) :: rest => value.term :: Expr.namedTerms rest

/-- The arguments for the slots of a record or set, by position from `first` on. -/
def Expr.positionalTerms (first : Nat) : List (Option Expr) → List Term
  | [] => []
  | none :: rest => .unbound ("element " ++ first.repr) :: Expr.positionalTerms (first + 1) rest
  | some value :: rest => value.term :: Expr.positionalTerms (first + 1) rest

/-- The arguments for the elements of a record of or set of. -/
def Expr.elementTerms : List Expr → List Term
  | [] => []
  | value :: rest => value.term :: Expr.elementTerms rest
end

/-! ### The source is the text -/

theorem chars_tabs (indent : Nat) : chars (tabs indent) = indentation indent := by
  induction indent with
  | zero => rfl
  | succ indent ih => exact congrArg ('\t' :: ·) ih

theorem Atom.chars_fragments (type : String) (leaf : Atom) (indent : Nat) :
    chars (leaf.fragments type) = (leaf.term type).text indent := by
  cases leaf with
  | boolean value => cases value <;> simp [Atom.fragments, Atom.term, Term.text]
  | _ => simp [Atom.fragments, Atom.term, Term.text, Java.newText, Java.nullText]

theorem chars_unbound (label : String) (indent : Nat) : chars (unbound label) = (Term.unbound label).text indent := by
  simp [unbound, Term.text, Java.nullText]

/-- Each argument is written as the text of the term at its place. -/
def WriteEach (indent : Nat) (arguments : List (List String)) (terms : List Term) : Prop :=
  List.Forall₂ (fun argument term => chars argument = term.text indent) arguments terms

/-- Arguments on lines of their own, up to the line of the parenthesis that closes them. -/
theorem WriteEach.chars_intercalate {indent : Nat} {arguments : List (List String)} {terms : List Term}
    (each : WriteEach (indent + 1) arguments terms) {first : List String} {term : Term}
    (same : chars first = term.text (indent + 1)) :
    chars ([",\n"].intercalate ((first :: arguments).map (tabs (indent + 1) ++ ·))) ++ '\n' :: indentation indent =
      indentation (indent + 1) ++ (term.text (indent + 1) ++ Term.moreText indent terms) := by
  induction each generalizing first term with
  | nil => simp [chars_tabs, same, Term.moreText]
  | cons next later ih =>
    have rest := ih next
    simp only [List.map_cons, List.intercalate_cons_cons, chars_append, List.append_assoc] at rest ⊢
    rw [rest]
    simp [chars_tabs, same, Term.moreText]

/-- A constructor call is written as its term. -/
theorem WriteEach.chars_constructorCall {indent : Nat} {arguments : List (List String)} {terms : List Term}
    (each : WriteEach (indent + 1) arguments terms) (type : String) :
    chars (constructorCall indent type arguments) = (Term.construct type terms).text indent := by
  cases each with
  | nil => simp [constructorCall, Term.text, Term.argumentsText, Java.newText]
  | cons same later =>
    have lines := WriteEach.chars_intercalate later same
    rw [Term.text, Term.argumentsText, List.cons_append, ← lines]
    simp [constructorCall, chars_tabs, Java.newText]

mutual
/-- The source of an expression is the text of what it denotes. -/
theorem Expr.chars_fragments (indent : Nat) (value : Expr) :
    chars (value.fragments indent) = value.term.text indent := by
  match value with
  | .atom type leaf => exact leaf.chars_fragments type indent
  | .named type slots => exact (Expr.writeEach_named (indent + 1) slots).chars_constructorCall type
  | .positional type slots => exact (Expr.writeEach_positional (indent + 1) 0 slots).chars_constructorCall type
  | .sequence type elements => exact (Expr.writeEach_elements (indent + 1) elements).chars_constructorCall type
  | .union type alternative value =>
    simp [Expr.fragments, Expr.term, Term.text, Java.newText, value.chars_fragments indent]

theorem Expr.writeEach_named (indent : Nat) (slots : List (String × Option Expr)) :
    WriteEach indent (Expr.namedArguments indent slots) (Expr.namedTerms slots) := by
  match slots with
  | [] => exact .nil
  | (name, none) :: rest => exact .cons (chars_unbound _ indent) (Expr.writeEach_named indent rest)
  | (_, some value) :: rest => exact .cons (value.chars_fragments indent) (Expr.writeEach_named indent rest)

theorem Expr.writeEach_positional (indent first : Nat) (slots : List (Option Expr)) :
    WriteEach indent (Expr.positionalArguments indent first slots) (Expr.positionalTerms first slots) := by
  match slots with
  | [] => exact .nil
  | none :: rest => exact .cons (chars_unbound _ indent) (Expr.writeEach_positional indent (first + 1) rest)
  | some value :: rest =>
    exact .cons (value.chars_fragments indent) (Expr.writeEach_positional indent (first + 1) rest)

theorem Expr.writeEach_elements (indent : Nat) (elements : List Expr) :
    WriteEach indent (Expr.elementArguments indent elements) (Expr.elementTerms elements) := by
  match elements with
  | [] => exact .nil
  | value :: rest => exact .cons (value.chars_fragments indent) (Expr.writeEach_elements indent rest)
end

/-! ### Legible expressions -/

variable {alphabet : Alphabet}

theorem Atom.Written.legible {leaf : Atom} (written : leaf.Written alphabet) {type : String}
    (typed : alphabet.isIdentifier type = true) : (leaf.term type).Legible alphabet := by
  have typed := Java.isWord_of_isIdentifier typed
  have field {name : String} (latin : Alphabet.latin.isIdentifier name = true) :
      (Term.member type name).Legible alphabet := .member typed (Java.isWord_of_latin latin)
  cases leaf with
  | any => exact field (by decide)
  | anyOrOmit => exact field (by decide)
  | omitted => exact field (by decide)
  | boolean value => cases value <;> exact field (by decide)
  | keyword name => exact .member typed (Java.isWord_of_isIdentifier written)
  | literal text => exact .literal typed written
  | parameter name => exact .parameter (Java.isWord_of_isIdentifier written)
  | constant name => exact .constant (Java.isWord_of_isIdentifier written)
  | enumerated name => exact .member typed (Java.isWord_of_isIdentifier written)
  | baseCall name => exact .baseCall typed (Java.isWord_of_isIdentifier written)
  | unsupported description =>
    refine .unsupported ?_
    rw [Java.toList_escapeComment]
    exact .commentChars _

/-- The label of a field or of an element does not end a comment. -/
theorem legible_unbound {what label : String} (plain : '*' ∉ what.toList) (inside : '*' ∉ label.toList) :
    (Term.unbound (what ++ label)).Legible alphabet := by
  refine .unbound (.of_not_mem ?_)
  rw [String.toList_append, List.mem_append, not_or]
  exact ⟨plain, inside⟩

theorem forall_namedTerms {holds : Term → Prop} {slots : List (String × Option Expr)}
    (unbound : ∀ slot ∈ slots, holds (.unbound ("field " ++ slot.1)))
    (values : ∀ slot ∈ slots, ∀ value, slot.2 = some value → holds value.term) :
    ∀ term ∈ Expr.namedTerms slots, holds term := by
  induction slots with
  | nil => simp [Expr.namedTerms]
  | cons slot rest ih =>
    rw [List.forall_mem_cons] at unbound values
    match slot, unbound, values with
    | (name, none), unbound, values => exact List.forall_mem_cons.mpr ⟨unbound.1, ih unbound.2 values.2⟩
    | (name, some value), unbound, values =>
      exact List.forall_mem_cons.mpr ⟨values.1 value rfl, ih unbound.2 values.2⟩

theorem forall_positionalTerms {holds : Term → Prop} {slots : List (Option Expr)}
    (unbound : ∀ index : Nat, holds (.unbound ("element " ++ index.repr)))
    (values : ∀ slot ∈ slots, ∀ value, slot = some value → holds value.term) (first : Nat) :
    ∀ term ∈ Expr.positionalTerms first slots, holds term := by
  induction slots generalizing first with
  | nil => simp [Expr.positionalTerms]
  | cons slot rest ih =>
    rw [List.forall_mem_cons] at values
    match slot, values with
    | none, values => exact List.forall_mem_cons.mpr ⟨unbound first, ih values.2 (first + 1)⟩
    | some value, values => exact List.forall_mem_cons.mpr ⟨values.1 value rfl, ih values.2 (first + 1)⟩

theorem forall_elementTerms {holds : Term → Prop} {elements : List Expr}
    (values : ∀ value ∈ elements, holds value.term) : ∀ term ∈ Expr.elementTerms elements, holds term := by
  induction elements with
  | nil => simp [Expr.elementTerms]
  | cons value rest ih =>
    rw [List.forall_mem_cons] at values
    exact List.forall_mem_cons.mpr ⟨values.1, ih values.2⟩

/-- What an expression denotes is legible if its names are identifiers and its literals are fit for a string literal. -/
theorem Expr.Written.legible {value : Expr} (written : value.Written alphabet) : value.term.Legible alphabet := by
  induction written with
  | atom typed written => exact written.legible typed
  | named typed names values ih =>
    refine .construct (Java.isWord_of_isIdentifier typed) (forall_namedTerms ?_ ih)
    intro slot member
    have isWord := Java.isWord_of_isIdentifier (names slot member)
    exact legible_unbound (by decide) (isWord.not_mem (by decide))
  | positional typed values ih =>
    refine .construct (Java.isWord_of_isIdentifier typed) (forall_positionalTerms ?_ ih 0)
    intro index
    exact legible_unbound (by decide) (not_mem_repr (by decide) index)
  | sequence typed values ih => exact .construct (Java.isWord_of_isIdentifier typed) (forall_elementTerms ih)
  | union typed named inner ih => exact .wrap (isWord_unionWrapper named typed) ih

theorem Expr.toList_source (indent : Nat) (value : Expr) : (value.source indent).toList = value.term.text indent := by
  rw [Expr.source, String.toList_join]
  exact value.chars_fragments indent

/-- The source of expressions is uniquely readable, on whatever line it stands, if their names are identifiers and their
    literals are fit for a string literal, as every escaped text is. What an expression denotes can be read back from
    its source, and two expressions have the same source exactly if they denote the same. -/
theorem source_uniquely_readable (alphabet : Alphabet) (left right : Expr) (leftWritten : left.Written alphabet)
    (rightWritten : right.Written alphabet) (indent : Nat) :
    Term.read alphabet (left.source indent).toList = some left.term ∧
      (left.source indent = right.source indent ↔ left.term = right.term) := by
  have readsLeft := leftWritten.legible.read_text indent
  have readsRight := rightWritten.legible.read_text indent
  refine ⟨by rw [Expr.toList_source, readsLeft], ?_, ?_⟩
  · intro same
    have texts : left.term.text indent = right.term.text indent := by
      rw [← Expr.toList_source, ← Expr.toList_source, same]
    rw [texts, readsRight] at readsLeft
    exact (Option.some.inj readsLeft).symm
  · intro same
    rw [← String.toList_inj, Expr.toList_source, Expr.toList_source, same]

/-- A literal and a description that look like the end of what they stand in and like further arguments, beside a field
    that is not given. The same record with one more field has another source. -/
theorem source_uniquely_readable_hostile :
    let text := Expr.atom "CHARSTRING" (.literal (Text.escapeString "\"),\n\tnull /* unbound field b */"))
    let other := Expr.atom "R" (.unsupported " */,\n\tnull /* unbound field b")
    let left := Expr.union "U" "alt" (.named "R" [("a", some text), ("b", some other)])
    let right := Expr.union "U" "alt" (.named "R" [("a", some text), ("b", none), ("c", some other)])
    left.Written .unicode ∧ right.Written .unicode ∧
      Term.read .unicode (left.source 0).toList = some (.wrap "SC_alt_U" (.construct "R"
        [.literal "CHARSTRING" "\\\"),\\n\\tnull /* unbound field b */",
          .unsupported " * /,\\n\tnull /* unbound field b"])) ∧
      left.source 0 ≠ right.source 0 := by
  intro text other left right
  have textWritten : text.Written .unicode := .atom (by decide +kernel) (.escapeString _)
  have otherWritten : other.Written .unicode := .atom (by decide +kernel) trivial
  have leftWritten : left.Written .unicode := by
    refine .union (by decide +kernel) (by decide +kernel) (.named (by decide +kernel) (by decide +kernel) ?_)
    simpa using ⟨textWritten, otherWritten⟩
  have rightWritten : right.Written .unicode := by
    refine .union (by decide +kernel) (by decide +kernel) (.named (by decide +kernel) (by decide +kernel) ?_)
    simpa using ⟨textWritten, otherWritten⟩
  have literal : Text.escapeString "\"),\n\tnull /* unbound field b */" =
      "\\\"),\\n\\tnull /* unbound field b */" := by decide +kernel
  have description : Text.escapeComment " */,\n\tnull /* unbound field b" =
      " * /,\\n\tnull /* unbound field b" := by decide +kernel
  obtain ⟨reads, unique⟩ := source_uniquely_readable .unicode left right leftWritten rightWritten 0
  refine ⟨leftWritten, rightWritten, ?_, ?_⟩
  · rw [← literal, ← description]
    exact reads
  · intro same
    have terms := unique.mp same
    simp [left, right, Expr.term, Expr.namedTerms] at terms

end TtcnTemplates
