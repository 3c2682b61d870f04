import Mathlib.Data.List.Forall2
import TtcnTemplates.Proofs.Lexical
import TtcnTemplates.Template.Source

/-! # The tokens of the generated source

Which tokens an expression, a template and a module are written as. If their names are identifiers and their literals
are fit for a string literal (`Expr.Written`, `Template.Written`), their source is read as these tokens, and the tokens
are balanced.
-/

namespace TtcnTemplates

open Java (Token Alphabet Complete Spells Balanced)

/-! ### Fragments -/

/-- The characters of fragments. -/
def chars (fragments : List String) : List Char := fragments.flatMap String.toList

@[simp] theorem chars_nil : chars [] = [] := rfl

@[simp] theorem chars_cons (fragment : String) (rest : List String) :
    chars (fragment :: rest) = fragment.toList ++ chars rest := rfl

@[simp] theorem chars_append (first second : List String) : chars (first ++ second) = chars first ++ chars second :=
  List.flatMap_append

variable {alphabet : Alphabet}

theorem complete_tabs (indent : Nat) : Complete alphabet (chars (tabs indent)) [] := by
  induction indent with
  | zero => exact .of_plain (by decide)
  | succ indent ih =>
    have tab : Complete alphabet "\t".toList [] := .of_plain (by decide)
    exact tab.append ih

/-- Each text is read as the tokens at its place. -/
def SpellEach (alphabet : Alphabet) (parts : List (List String)) (tokens : List (List Token)) : Prop :=
  List.Forall₂ (fun part => Spells alphabet (chars part)) parts tokens

/-- Texts between which a separator stands are read one after the other. -/
theorem spells_intercalate {separator : List String} {between : List Token}
    (complete : Complete alphabet (chars separator) between) (stop : Java.opensDelimited (chars separator) = true)
    {parts : List (List String)} {tokens : List (List Token)} (each : SpellEach alphabet parts tokens) :
    Spells alphabet (chars (separator.intercalate parts)) (between.intercalate tokens) := by
  induction each with
  | nil => exact Complete.nil.spells
  | cons here later ih =>
    cases later with
    | nil => simpa only [List.intercalate_singleton] using here
    | cons next later =>
      simp only [List.intercalate_cons_cons, chars_append, List.append_assoc]
      exact here.append_spells (complete.append_spells ih) (Java.opensDelimited_append stop _)

/-! ### Expressions -/

/-- The token of a name. -/
def Java.Token.name (text : String) : Token := .word text.toList

/-- The tokens of a static member of a class. -/
def memberTokens (type field : String) : List Token := [.name type, .symbol '.', .name field]

/-- The tokens of an expression without subexpressions. -/
def Atom.tokens (type : String) : Atom → List Token
  | .any => memberTokens type "ANY"
  | .anyOrOmit => memberTokens type "ANY_OR_OMIT"
  | .omitted => memberTokens type "OMIT"
  | .boolean true => memberTokens type "TRUE"
  | .boolean false => memberTokens type "FALSE"
  | .keyword field => memberTokens type field
  | .literal text => [.name "new", .name type, .symbol '(', .string text.toList, .symbol ')']
  | .parameter name => [.name name]
  | .constant name => memberTokens "Constants" name ++ [.symbol '(', .symbol ')']
  | .enumerated name => memberTokens type name
  | .baseCall name => [.symbol '(', .name type, .symbol ')', .name name, .symbol '(', .symbol ')']
  | .unsupported _ => [.name "null"]

/-- The tokens of a constructor call whose arguments have the given tokens. -/
def callTokens (type : String) (arguments : List (List Token)) : List Token :=
  [.name "new", .name type] ++ (.symbol '(' :: [.symbol ','].intercalate arguments ++ [.symbol ')'])

mutual
/-- The tokens of an expression. -/
def Expr.tokens : Expr → List Token
  | .atom type leaf => leaf.tokens type
  | .named type slots => callTokens type (Expr.namedTokens slots)
  | .positional type slots => callTokens type (Expr.positionalTokens slots)
  | .sequence type elements => callTokens type (Expr.elementTokens elements)
  | .union type alternative value => callTokens (unionWrapper alternative type) [value.tokens]

/-- The tokens of each slot of a record or set, by field name. -/
def Expr.namedTokens : List (String × Option Expr) → List (List Token)
  | [] => []
  | (_, none) :: rest => [.name "null"] :: Expr.namedTokens rest
  | (_, some value) :: rest => value.tokens :: Expr.namedTokens rest

/-- The tokens of each slot of a record or set, by position. -/
def Expr.positionalTokens : List (Option Expr) → List (List Token)
  | [] => []
  | none :: rest => [.name "null"] :: Expr.positionalTokens rest
  | some value :: rest => value.tokens :: Expr.positionalTokens rest

/-- The tokens of each element of a record of or set of. -/
def Expr.elementTokens : List Expr → List (List Token)
  | [] => []
  | value :: rest => value.tokens :: Expr.elementTokens rest
end

/-- The names are identifiers, and literals are fit for a string literal. -/
def Atom.Written (alphabet : Alphabet) : Atom → Prop
  | .keyword name => alphabet.isIdentifier name = true
  | .parameter name => alphabet.isIdentifier name = true
  | .constant name => alphabet.isIdentifier name = true
  | .enumerated name => alphabet.isIdentifier name = true
  | .baseCall name => alphabet.isIdentifier name = true
  | .literal text => Java.InString text.toList
  | _ => True

/-- The names in an expression are identifiers, and its literals are fit for a string literal. -/
inductive Expr.Written (alphabet : Alphabet) : Expr → Prop
  | atom {type : String} {leaf : Atom} (typed : alphabet.isIdentifier type = true) (written : leaf.Written alphabet) :
      Written alphabet (.atom type leaf)
  | named {type : String} {slots : List (String × Option Expr)} (typed : alphabet.isIdentifier type = true)
      (names : ∀ slot ∈ slots, alphabet.isIdentifier slot.1 = true)
      (values : ∀ slot ∈ slots, ∀ value, slot.2 = some value → Written alphabet value) :
      Written alphabet (.named type slots)
  | positional {type : String} {slots : List (Option Expr)} (typed : alphabet.isIdentifier type = true)
      (values : ∀ slot ∈ slots, ∀ value, slot = some value → Written alphabet value) :
      Written alphabet (.positional type slots)
  | sequence {type : String} {elements : List Expr} (typed : alphabet.isIdentifier type = true)
      (values : ∀ value ∈ elements, Written alphabet value) : Written alphabet (.sequence type elements)
  | union {type alternative : String} {value : Expr} (typed : alphabet.isIdentifier type = true)
      (name : alphabet.isIdentifier alternative = true) (inner : Written alphabet value) :
      Written alphabet (.union type alternative value)

theorem spells_name {name : String} (identifier : alphabet.isIdentifier name = true) :
    Spells alphabet name.toList [.name name] :=
  (Java.isWord_of_isIdentifier identifier).spells

theorem spells_member {type field : String} (typed : alphabet.isIdentifier type = true)
    (named : alphabet.isIdentifier field = true) :
    Spells alphabet (type.toList ++ (".".toList ++ field.toList)) (memberTokens type field) := by
  have point : Complete alphabet ".".toList [.symbol '.'] := .of_plain (by decide)
  exact (spells_name typed).append_spells (point.append_spells (spells_name named)) rfl

theorem complete_new {type : String} (typed : Java.IsWord alphabet type.toList) {arguments : List Char}
    {tokens : List Token} (complete : Complete alphabet arguments tokens)
    (stop : Java.opensDelimited arguments = true) :
    Complete alphabet ("new ".toList ++ (type.toList ++ arguments)) ([.name "new", .name type] ++ tokens) := by
  have keyword : Complete alphabet "new ".toList [.name "new"] := .of_plain (by decide)
  exact keyword.append (typed.spells.append complete stop)

/-- A comment says why there is no value. -/
theorem complete_null {lead : String} (asterisk : '*' ∉ lead.toList) (backslash : '\\' ∉ lead.toList)
    (text : String) :
    Complete alphabet ("null /*".toList ++ (lead.toList ++ ((Text.escapeComment text).toList ++ " */".toList)))
      [.name "null"] := by
  have null : Complete alphabet "null ".toList [.name "null"] := .of_plain (by decide)
  exact null.append (.blockComment asterisk backslash text)

theorem Atom.spells {type : String} {leaf : Atom} (typed : alphabet.isIdentifier type = true)
    (written : leaf.Written alphabet) : Spells alphabet (chars (leaf.fragments type)) (leaf.tokens type) := by
  have fixed (field : String) (latin : Alphabet.latin.isIdentifier field = true) :=
    spells_member typed (alphabet.isIdentifier_of_latin latin)
  have empty : Complete alphabet "()".toList [.symbol '(', .symbol ')'] := .of_plain (by decide)
  cases leaf with
  | any => exact fixed "ANY" (by decide)
  | anyOrOmit => exact fixed "ANY_OR_OMIT" (by decide)
  | omitted => exact fixed "OMIT" (by decide)
  | boolean value =>
    cases value with
    | true => exact fixed "TRUE" (by decide)
    | false => exact fixed "FALSE" (by decide)
  | keyword field => simpa [fragments, tokens] using spells_member typed written
  | literal text =>
    have call := complete_new (Java.isWord_of_isIdentifier typed) written.complete rfl
    simpa [fragments, tokens] using call.spells
  | parameter name => simpa [fragments, tokens] using spells_name written
  | constant name =>
    have latin : Alphabet.latin.isIdentifier "Constants" = true := by decide
    have constant := spells_member (alphabet.isIdentifier_of_latin latin) written
    simpa [fragments, tokens] using (constant.append empty rfl).spells
  | enumerated name => simpa [fragments, tokens] using spells_member typed written
  | baseCall name =>
    have opening : Complete alphabet "(".toList [.symbol '('] := .of_plain (by decide)
    have closing : Complete alphabet ") ".toList [.symbol ')'] := .of_plain (by decide)
    have cast := opening.append ((spells_name typed).append closing rfl)
    simpa [fragments, tokens] using (cast.append ((spells_name written).append empty rfl)).spells
  | unsupported description =>
    have lead : '*' ∉ " unsupported template: ".toList ∧ '\\' ∉ " unsupported template: ".toList := by decide
    simpa [fragments, tokens] using (complete_null lead.1 lead.2 description).spells

theorem spells_unbound {what : String} (asterisk : '*' ∉ what.toList) (backslash : '\\' ∉ what.toList) :
    Spells alphabet (chars (unbound what)) [.name "null"] := by
  have lead : '*' ∉ (" unbound " ++ what).toList ∧ '\\' ∉ (" unbound " ++ what).toList := by
    simp [asterisk, backslash]
  simpa [unbound, Text.escapeComment, Text.commentChars] using (complete_null lead.1 lead.2 "").spells

theorem complete_constructorCall (indent : Nat) {type : String} (typed : Java.IsWord alphabet type.toList)
    {arguments : List (List String)} {tokens : List (List Token)} (each : SpellEach alphabet arguments tokens) :
    Complete alphabet (chars (constructorCall indent type arguments)) (callTokens type tokens) := by
  have opening : Complete alphabet "(\n".toList [.symbol '('] := .of_plain (by decide)
  have comma : Complete alphabet (chars [",\n"]) [.symbol ','] := .of_plain (by decide)
  have newline : Complete alphabet "\n".toList [] := .of_plain (by decide)
  have closing : Complete alphabet ")".toList [.symbol ')'] := .of_plain (by decide)
  have lines : SpellEach alphabet (arguments.map (tabs (indent + 1) ++ ·)) tokens := by
    rw [SpellEach, List.forall₂_map_left_iff]
    refine each.imp ?_
    intro argument tokens spells
    simpa using (complete_tabs (indent + 1)).append_spells spells
  cases each with
  | nil =>
    have empty : Complete alphabet "()".toList [.symbol '(', .symbol ')'] := .of_plain (by decide)
    simpa [constructorCall, callTokens] using complete_new typed empty rfl
  | cons here later =>
    have inside := spells_intercalate comma rfl lines
    have ended := newline.append ((complete_tabs indent).append closing)
    have call := complete_new typed (opening.append (inside.append ended rfl)) rfl
    simpa [constructorCall, callTokens] using call

theorem isWord_unionWrapper {alternative union : String} (named : alphabet.isIdentifier alternative = true)
    (typed : alphabet.isIdentifier union = true) : Java.IsWord alphabet (unionWrapper alternative union).toList := by
  have fixed (text : String) (latin : Alphabet.latin.isIdentifier text = true) : Java.IsWord alphabet text.toList :=
    Java.isWord_of_isIdentifier (alphabet.isIdentifier_of_latin latin)
  rw [unionWrapper, String.toList_append, String.toList_append, String.toList_append]
  exact (((fixed "SC_" (by decide)).append (Java.isWord_of_isIdentifier named)).append (fixed "_" (by decide))).append
    (Java.isWord_of_isIdentifier typed)

theorem not_mem_repr {c : Char} (other : c.isDigit = false) (n : Nat) : c ∉ n.repr.toList := by
  rw [Nat.toList_repr]
  intro member
  rw [Nat.isDigit_of_mem_toDigits (by decide) (by decide) member] at other
  cases other

/-- Each argument of a constructor call is read as the tokens of its slot. -/
theorem spellEach_named {indent : Nat} {slots : List (String × Option Expr)}
    (names : ∀ slot ∈ slots, alphabet.isIdentifier slot.1 = true)
    (values : ∀ slot ∈ slots, ∀ value, slot.2 = some value →
      Spells alphabet (chars (value.fragments indent)) value.tokens) :
    SpellEach alphabet (Expr.namedArguments indent slots) (Expr.namedTokens slots) := by
  induction slots with
  | nil => exact .nil
  | cons slot rest ih =>
    rw [List.forall_mem_cons] at names values
    have later := ih names.2 values.2
    match slot, names.1, values.1 with
    | (name, none), named, _ =>
      have isWord := Java.isWord_of_isIdentifier named
      refine .cons (spells_unbound ?_ ?_) later
      · simpa using isWord.not_mem (by decide)
      · simpa using isWord.not_mem (by decide)
    | (_, some value), _, here => exact .cons (here value rfl) later

theorem spellEach_positional {indent first : Nat} {slots : List (Option Expr)}
    (values : ∀ slot ∈ slots, ∀ value, slot = some value →
      Spells alphabet (chars (value.fragments indent)) value.tokens) :
    SpellEach alphabet (Expr.positionalArguments indent first slots) (Expr.positionalTokens slots) := by
  induction slots generalizing first with
  | nil => exact .nil
  | cons slot rest ih =>
    rw [List.forall_mem_cons] at values
    match slot, values.1 with
    | none, _ =>
      refine .cons (spells_unbound ?_ ?_) (ih values.2)
      · simpa using not_mem_repr (by decide) first
      · simpa using not_mem_repr (by decide) first
    | some value, here => exact .cons (here value rfl) (ih values.2)

theorem spellEach_elements {indent : Nat} {elements : List Expr}
    (values : ∀ value ∈ elements, Spells alphabet (chars (value.fragments indent)) value.tokens) :
    SpellEach alphabet (Expr.elementArguments indent elements) (Expr.elementTokens elements) := by
  induction elements with
  | nil => exact .nil
  | cons value rest ih =>
    rw [List.forall_mem_cons] at values
    exact .cons values.1 (ih values.2)

/-- The source of an expression is read as its tokens, on whatever line it stands. -/
theorem Expr.Written.spells {value : Expr} (written : value.Written alphabet) (indent : Nat) :
    Spells alphabet (chars (value.fragments indent)) value.tokens := by
  induction written generalizing indent with
  | atom typed written => exact Atom.spells typed written
  | named typed names values ih =>
    have each := spellEach_named names fun slot member value filled => ih slot member value filled (indent + 1)
    exact (complete_constructorCall indent (Java.isWord_of_isIdentifier typed) each).spells
  | positional typed values ih =>
    have each := @spellEach_positional _ _ 0 _ fun slot member value filled =>
      ih slot member value filled (indent + 1)
    exact (complete_constructorCall indent (Java.isWord_of_isIdentifier typed) each).spells
  | sequence typed values ih =>
    have each := spellEach_elements fun value member => ih value member (indent + 1)
    exact (complete_constructorCall indent (Java.isWord_of_isIdentifier typed) each).spells
  | union typed name inner ih =>
    have opening : Complete alphabet "(".toList [.symbol '('] := .of_plain (by decide)
    have closing : Complete alphabet ")".toList [.symbol ')'] := .of_plain (by decide)
    have call := complete_new (isWord_unionWrapper name typed) (opening.append ((ih indent).append closing rfl)) rfl
    simpa [Expr.fragments, Expr.tokens, callTokens] using call.spells

/-! ### Templates -/

/-- The names in a template are identifiers, and its literals are fit for a string literal. -/
structure Template.Written (alphabet : Alphabet) (template : Template) : Prop where
  name : alphabet.isIdentifier template.name = true
  type : alphabet.isIdentifier template.type = true
  value : ∀ value, template.value = some value → value.Written alphabet
  parameters : ∀ parameter ∈ template.parameters,
    alphabet.isIdentifier parameter.type = true ∧ alphabet.isIdentifier parameter.name = true
  paths : ∀ override ∈ template.overrides, ∀ field ∈ override.path.fields, alphabet.isIdentifier field = true
  overrides : ∀ override ∈ template.overrides, override.value.Written alphabet

/-- The tokens of one formal parameter. -/
def Parameter.tokens (parameter : Parameter) : List Token := [.name parameter.type, .name parameter.name]

/-- The tokens of one override. -/
def Override.tokens (override : Override) : List Token :=
  .name "value" :: override.path.fields.flatMap (fun field => [.symbol '.', .name field]) ++ [.symbol '='] ++
    override.value.tokens ++ [.symbol ';']

/-- The tokens of the value of a template. -/
def Template.valueTokens (template : Template) : List Token :=
  match template.value with
  | some value => value.tokens
  | none => [.name "null"]

/-- The tokens of the statements in the method of a template. -/
def Template.bodyTokens (template : Template) : List Token :=
  [.name template.type, .name "value", .symbol '='] ++ template.valueTokens ++ [.symbol ';'] ++
    template.overrides.flatMap Override.tokens ++ [.name "return", .name "value", .symbol ';']

/-- The tokens of the method of a template. -/
def Template.tokens (template : Template) : List Token :=
  [.name "public", .name "static", .name template.type, .name template.name] ++
    (.symbol '(' :: [.symbol ','].intercalate (template.parameters.map Parameter.tokens) ++ [.symbol ')']) ++
    (.symbol '\x7b' :: template.bodyTokens ++ [.symbol '\x7d'])

theorem Parameter.spells {parameter : Parameter} (typed : alphabet.isIdentifier parameter.type = true)
    (named : alphabet.isIdentifier parameter.name = true) :
    Spells alphabet (chars parameter.fragments) parameter.tokens := by
  have space : Complete alphabet " ".toList [] := .of_plain (by decide)
  simpa [fragments, tokens] using (spells_name typed).append_spells (space.append_spells (spells_name named)) rfl

theorem FieldPath.spells {path : FieldPath} (names : ∀ field ∈ path.fields, alphabet.isIdentifier field = true)
    {start : List Char} {tokens : List Token} (spells : Spells alphabet start tokens) :
    Spells alphabet (start ++ path.text.toList)
      (tokens ++ path.fields.flatMap fun field => [.symbol '.', .name field]) := by
  obtain ⟨fields⟩ := path
  have point : Complete alphabet ".".toList [.symbol '.'] := .of_plain (by decide)
  induction fields generalizing start tokens with
  | nil => simpa [text] using spells
  | cons field rest ih =>
    dsimp only at names ih
    rw [List.forall_mem_cons] at names
    simpa [text] using ih (spells.append_spells (point.append_spells (spells_name names.1)) rfl) names.2

theorem Override.complete {override : Override}
    (names : ∀ field ∈ override.path.fields, alphabet.isIdentifier field = true)
    (written : override.value.Written alphabet) (indent : Nat) :
    Complete alphabet (chars (override.fragments indent)) override.tokens := by
  have value : Spells alphabet "value".toList [.name "value"] := .of_plain (by decide)
  have equals : Complete alphabet " = ".toList [.symbol '='] := .of_plain (by decide)
  have stop : Complete alphabet ";\n".toList [.symbol ';'] := .of_plain (by decide)
  have assigned := equals.append ((written.spells indent).append stop rfl)
  simpa [fragments, tokens] using (complete_tabs indent).append ((FieldPath.spells names value).append assigned rfl)

theorem Template.Written.spells_value {template : Template} (written : template.Written alphabet) (indent : Nat) :
    Spells alphabet (chars (template.valueFragments indent)) template.valueTokens := by
  rw [valueFragments, valueTokens]
  cases isValue : template.value with
  | none =>
    dsimp only
    exact .of_plain (by decide)
  | some value => exact (written.value value isValue).spells indent

theorem complete_flatMap {α : Type} {fragments : α → List String} {tokens : α → List Token} {list : List α}
    (each : ∀ item ∈ list, Complete alphabet (chars (fragments item)) (tokens item)) :
    Complete alphabet (chars (list.flatMap fragments)) (list.flatMap tokens) := by
  induction list with
  | nil => exact .nil
  | cons item rest ih =>
    rw [List.forall_mem_cons] at each
    simpa using each.1.append (ih each.2)

theorem Template.Written.spells_parameters {template : Template} (written : template.Written alphabet) :
    Spells alphabet (chars ([", "].intercalate (template.parameters.map Parameter.fragments)))
      ([.symbol ','].intercalate (template.parameters.map Parameter.tokens)) := by
  have comma : Complete alphabet (chars [", "]) [.symbol ','] := .of_plain (by decide)
  refine spells_intercalate comma rfl ?_
  rw [SpellEach, List.forall₂_map_left_iff, List.forall₂_map_right_iff, List.forall₂_same]
  intro parameter member
  exact Parameter.spells (written.parameters parameter member).1 (written.parameters parameter member).2

/-- The source of a template is read as its tokens, on whatever line it begins. -/
theorem Template.Written.complete {template : Template} (written : template.Written alphabet) (indent : Nat) :
    Complete alphabet (chars (template.fragments indent)) template.tokens := by
  have modifiers : Complete alphabet "public static ".toList [.name "public", .name "static"] := .of_plain (by decide)
  have space : Complete alphabet " ".toList [] := .of_plain (by decide)
  have opening : Complete alphabet "(".toList [.symbol '('] := .of_plain (by decide)
  have head : Complete alphabet ") \x7b\n".toList [.symbol ')', .symbol '\x7b'] := .of_plain (by decide)
  have target : Complete alphabet " value = ".toList [.name "value", .symbol '='] := .of_plain (by decide)
  have stop : Complete alphabet ";\n".toList [.symbol ';'] := .of_plain (by decide)
  have result : Complete alphabet "return value;\n".toList [.name "return", .name "value", .symbol ';'] :=
    .of_plain (by decide)
  have closing : Complete alphabet "\x7d\n".toList [.symbol '\x7d'] := .of_plain (by decide)
  have parameters := opening.append (written.spells_parameters.append head rfl)
  have named := (spells_name written.type).append (space.append ((spells_name written.name).append parameters rfl)) rfl
  have signature := (complete_tabs indent).append (modifiers.append named)
  have assigned := target.append ((written.spells_value (indent + 1)).append stop rfl)
  have declared := (complete_tabs (indent + 1)).append ((spells_name written.type).append assigned rfl)
  have overrides := complete_flatMap fun override member =>
    Override.complete (written.paths override member) (written.overrides override member) (indent + 1)
  have returned := (complete_tabs (indent + 1)).append result
  have ended := (complete_tabs indent).append closing
  have method := signature.append (declared.append (overrides.append (returned.append ended)))
  simpa [fragments, tokens, bodyTokens] using method

/-! ### Modules -/

/-- The fragments of a comment with the given text, on a line with `indent` tabs. -/
def commentFragments (indent : Nat) (text : String) : List String :=
  tabs indent ++ ["// ", Text.escapeComment text, "\n"]

/-- The source of a module whose faults have the given texts. -/
def Registry.sourceWith (text : Diagnostic → String) (indent : Nat) (registry : Registry) : String :=
  let faults := registry.diagnostics.filter Diagnostic.isError
  String.join (faults.flatMap (fun fault => commentFragments indent (text fault)) ++
    registry.templates.flatMap (Template.fragments indent))

theorem Registry.source_eq_sourceWith (registry : Registry) (indent : Nat) :
    registry.source indent = registry.sourceWith Diagnostic.text indent :=
  rfl

theorem complete_commentFragments (indent : Nat) (text : String) :
    Complete alphabet (chars (commentFragments indent text)) [] := by
  simpa [commentFragments] using (complete_tabs indent).append (Complete.lineComment text)

/-- The source of a module is read as the tokens of its templates, whatever the texts of its faults are. -/
theorem Registry.lex_sourceWith {registry : Registry}
    (written : ∀ template ∈ registry.templates, template.Written alphabet) (text : Diagnostic → String) (indent : Nat) :
    Java.lex alphabet (registry.sourceWith text indent).toList = some (registry.templates.flatMap Template.tokens) := by
  have comment (fault : Diagnostic) (_ : fault ∈ registry.diagnostics.filter Diagnostic.isError) :
      Complete alphabet (chars (commentFragments indent (text fault))) [] :=
    complete_commentFragments indent (text fault)
  have comments := complete_flatMap comment
  have methods := complete_flatMap fun template member => (written template member).complete indent
  rw [List.flatMap_eq_nil_iff.mpr fun _ _ => rfl] at comments
  rw [sourceWith, String.toList_join]
  simpa [chars] using (comments.append methods).lex_eq

/-! ### Balance -/

theorem Java.Balanced.cons {token : Token} {rest : List Token}
    (other : token ∉ ['(', ')', '\x7b', '\x7d'].map Token.symbol) (balanced : Balanced rest) :
    Balanced (token :: rest) :=
  (Balanced.token other).append balanced

/-- A name is not a bracket. -/
theorem Java.Balanced.name {rest : List Token} (balanced : Balanced rest) (text : String) :
    Balanced (.name text :: rest) :=
  balanced.cons (by simp [Token.name])

theorem balanced_intercalate {separator : List Token} (between : Balanced separator) {parts : List (List Token)}
    (each : ∀ part ∈ parts, Balanced part) : Balanced (separator.intercalate parts) := by
  induction parts with
  | nil => exact .nil
  | cons part rest ih =>
    rw [List.forall_mem_cons] at each
    cases rest with
    | nil => simpa only [List.intercalate_singleton] using each.1
    | cons next rest =>
      rw [List.intercalate_cons_cons]
      exact (each.1.append between).append (ih each.2)

theorem balanced_flatMap {α : Type} {tokens : α → List Token} {list : List α}
    (each : ∀ item ∈ list, Balanced (tokens item)) : Balanced (list.flatMap tokens) := by
  induction list with
  | nil => exact .nil
  | cons item rest ih =>
    rw [List.forall_mem_cons] at each
    rw [List.flatMap_cons]
    exact each.1.append (ih each.2)

theorem balanced_memberTokens (type field : String) : Balanced (memberTokens type field) :=
  .name (.cons (by decide) (.name .nil field)) type

theorem balanced_callTokens (type : String) {arguments : List (List Token)}
    (each : ∀ argument ∈ arguments, Balanced argument) : Balanced (callTokens type arguments) := by
  have comma : Balanced [.symbol ','] := .token (by decide)
  exact .name (.name (.parentheses (balanced_intercalate comma each)) type) "new"

theorem Atom.balanced (type : String) (leaf : Atom) : Balanced (leaf.tokens type) := by
  have empty : Balanced [.symbol '(', .symbol ')'] := .parentheses .nil
  cases leaf with
  | boolean value => cases value <;> exact balanced_memberTokens type _
  | literal text =>
    have content : Balanced [.string text.toList] := .token (by simp)
    exact .name (.name (.parentheses content) type) "new"
  | parameter name => exact .name .nil name
  | constant name => exact (balanced_memberTokens "Constants" name).append empty
  | baseCall name => exact (Balanced.parentheses (.name .nil type)).append (.name empty name)
  | unsupported description => exact .name .nil "null"
  | _ => exact balanced_memberTokens type _

mutual
theorem Expr.balanced (value : Expr) : Balanced value.tokens := by
  match value with
  | .atom type leaf => exact leaf.balanced type
  | .named type slots => exact balanced_callTokens type (Expr.balanced_named slots)
  | .positional type slots => exact balanced_callTokens type (Expr.balanced_positional slots)
  | .sequence type elements => exact balanced_callTokens type (Expr.balanced_elements elements)
  | .union type alternative value =>
    exact balanced_callTokens (unionWrapper alternative type) (List.forall_mem_singleton.mpr value.balanced)

theorem Expr.balanced_named (slots : List (String × Option Expr)) :
    ∀ tokens ∈ Expr.namedTokens slots, Balanced tokens := by
  match slots with
  | [] => exact nofun
  | (_, none) :: rest => exact List.forall_mem_cons.mpr ⟨.name .nil "null", Expr.balanced_named rest⟩
  | (_, some value) :: rest => exact List.forall_mem_cons.mpr ⟨value.balanced, Expr.balanced_named rest⟩

theorem Expr.balanced_positional (slots : List (Option Expr)) :
    ∀ tokens ∈ Expr.positionalTokens slots, Balanced tokens := by
  match slots with
  | [] => exact nofun
  | none :: rest => exact List.forall_mem_cons.mpr ⟨.name .nil "null", Expr.balanced_positional rest⟩
  | some value :: rest => exact List.forall_mem_cons.mpr ⟨value.balanced, Expr.balanced_positional rest⟩

theorem Expr.balanced_elements (elements : List Expr) :
    ∀ tokens ∈ Expr.elementTokens elements, Balanced tokens := by
  match elements with
  | [] => exact nofun
  | value :: rest => exact List.forall_mem_cons.mpr ⟨value.balanced, Expr.balanced_elements rest⟩
end

theorem Override.balanced (override : Override) : Balanced override.tokens := by
  have point (field : String) : Balanced [.symbol '.', .name field] := .cons (by decide) (.name .nil field)
  have path := balanced_flatMap fun field (_ : field ∈ override.path.fields) => point field
  have equals : Balanced [.symbol '='] := .token (by decide)
  have stop : Balanced [.symbol ';'] := .token (by decide)
  exact ((Balanced.name path "value").append equals |>.append override.value.balanced).append stop

theorem Template.balanced (template : Template) : Balanced template.tokens := by
  have comma : Balanced [.symbol ','] := .token (by decide)
  have equals : Balanced [.symbol '='] := .token (by decide)
  have stop : Balanced [.symbol ';'] := .token (by decide)
  have parameters : Balanced ([.symbol ','].intercalate (template.parameters.map Parameter.tokens)) := by
    refine balanced_intercalate comma (List.forall_mem_map.mpr ?_)
    exact fun parameter _ => .name (.name .nil parameter.name) parameter.type
  have value : Balanced template.valueTokens := by
    rw [valueTokens]
    split
    · exact Expr.balanced _
    · exact .name .nil "null"
  have overrides := balanced_flatMap fun override (_ : override ∈ template.overrides) => override.balanced
  have target : Balanced [.name template.type, .name "value", .symbol '='] := .name (.name equals _) _
  have result : Balanced [.name "return", .name "value", .symbol ';'] := .name (.name stop _) _
  have body : Balanced template.bodyTokens := ((target.append value).append stop |>.append overrides).append result
  have names : Balanced [.name "public", .name "static", .name template.type, .name template.name] :=
    .name (.name (.name (.name .nil _) _) _) _
  exact (names.append parameters.parentheses).append body.braces

/-! ### Blanked texts -/

/-- The same expression with empty texts. -/
def Atom.blank : Atom → Atom
  | .literal _ => .literal ""
  | .unsupported _ => .unsupported ""
  | leaf => leaf

mutual
/-- The same expression with empty texts in its literals and in place of what has no Java form. -/
def Expr.blank : Expr → Expr
  | .atom type leaf => .atom type leaf.blank
  | .named type slots => .named type (Expr.blankNamed slots)
  | .positional type slots => .positional type (Expr.blankPositional slots)
  | .sequence type elements => .sequence type (Expr.blankElements elements)
  | .union type alternative value => .union type alternative value.blank

/-- The same slots, by field name, with empty texts. -/
def Expr.blankNamed : List (String × Option Expr) → List (String × Option Expr)
  | [] => []
  | (name, none) :: rest => (name, none) :: Expr.blankNamed rest
  | (name, some value) :: rest => (name, some value.blank) :: Expr.blankNamed rest

/-- The same slots, by position, with empty texts. -/
def Expr.blankPositional : List (Option Expr) → List (Option Expr)
  | [] => []
  | none :: rest => none :: Expr.blankPositional rest
  | some value :: rest => some value.blank :: Expr.blankPositional rest

/-- The same elements with empty texts. -/
def Expr.blankElements : List Expr → List Expr
  | [] => []
  | value :: rest => value.blank :: Expr.blankElements rest
end

/-- The same template with empty texts. -/
def Template.blank (template : Template) : Template :=
  { template with
    value := template.value.map Expr.blank
    overrides := template.overrides.map fun override => { override with value := override.value.blank } }

/-- The same module with empty texts in its templates. -/
def Registry.blank (registry : Registry) : Registry :=
  { registry with templates := registry.templates.map Template.blank }

theorem blankNamed_eq_map (slots : List (String × Option Expr)) :
    Expr.blankNamed slots = slots.map fun slot => (slot.1, slot.2.map Expr.blank) := by
  induction slots with
  | nil => rfl
  | cons slot rest ih => rcases slot with ⟨name, _ | value⟩ <;> simp [Expr.blankNamed, ih]

theorem blankPositional_eq_map (slots : List (Option Expr)) :
    Expr.blankPositional slots = slots.map (Option.map Expr.blank) := by
  induction slots with
  | nil => rfl
  | cons slot rest ih => rcases slot with _ | value <;> simp [Expr.blankPositional, ih]

theorem blankElements_eq_map (elements : List Expr) : Expr.blankElements elements = elements.map Expr.blank := by
  induction elements with
  | nil => rfl
  | cons value rest ih => simp [Expr.blankElements, ih]

theorem Atom.Written.blank {leaf : Atom} (written : leaf.Written alphabet) : leaf.blank.Written alphabet := by
  cases leaf with
  | literal text => exact .nil
  | _ => exact written

theorem Expr.Written.blank {value : Expr} (written : value.Written alphabet) : value.blank.Written alphabet := by
  induction written with
  | atom typed written => exact .atom typed written.blank
  | named typed names values ih =>
    rw [Expr.blank, blankNamed_eq_map]
    refine .named typed (List.forall_mem_map.mpr names) (List.forall_mem_map.mpr ?_)
    intro slot member value filled
    obtain ⟨value, isValue, rfl⟩ := Option.map_eq_some_iff.mp filled
    exact ih slot member value isValue
  | positional typed values ih =>
    rw [Expr.blank, blankPositional_eq_map]
    refine .positional typed (List.forall_mem_map.mpr ?_)
    intro slot member value filled
    obtain ⟨value, isValue, rfl⟩ := Option.map_eq_some_iff.mp filled
    exact ih slot member value isValue
  | sequence typed values ih =>
    rw [Expr.blank, blankElements_eq_map]
    exact .sequence typed (List.forall_mem_map.mpr ih)
  | union typed name inner ih => exact .union typed name ih

theorem Template.Written.blank {template : Template} (written : template.Written alphabet) :
    template.blank.Written alphabet := by
  refine ⟨written.name, written.type, ?_, written.parameters, ?_, ?_⟩
  · intro blanked isBlanked
    obtain ⟨value, isValue, rfl⟩ := Option.map_eq_some_iff.mp isBlanked
    exact (written.value value isValue).blank
  · exact List.forall_mem_map.mpr written.paths
  · exact List.forall_mem_map.mpr fun override member => (written.overrides override member).blank

theorem map_intercalate {α β : Type} (change : α → β) (separator : List α) (parts : List (List α)) :
    (separator.intercalate parts).map change = (separator.map change).intercalate (parts.map (List.map change)) := by
  induction parts with
  | nil => rfl
  | cons part rest ih =>
    cases rest with
    | nil => simp
    | cons next rest =>
      rw [List.intercalate_cons_cons, List.map_append, List.map_append, ih]
      simp [List.intercalate_cons_cons]

theorem callTokens_blank (type : String) (arguments : List (List Token)) :
    (callTokens type arguments).map Token.blank = callTokens type (arguments.map (List.map Token.blank)) := by
  simp [callTokens, map_intercalate, Token.blank, Token.name]

theorem Atom.tokens_blank (type : String) (leaf : Atom) :
    leaf.blank.tokens type = (leaf.tokens type).map Token.blank := by
  cases leaf with
  | boolean value => cases value <;> rfl
  | _ => rfl

mutual
/-- Only the contents of string literals are lost. -/
theorem Expr.tokens_blank (value : Expr) : value.blank.tokens = value.tokens.map Token.blank := by
  match value with
  | .atom type leaf => exact leaf.tokens_blank type
  | .named type slots => rw [blank, tokens, tokens, callTokens_blank, Expr.namedTokens_blank slots]
  | .positional type slots => rw [blank, tokens, tokens, callTokens_blank, Expr.positionalTokens_blank slots]
  | .sequence type elements => rw [blank, tokens, tokens, callTokens_blank, Expr.elementTokens_blank elements]
  | .union type alternative value => rw [blank, tokens, tokens, callTokens_blank, value.tokens_blank]; rfl

theorem Expr.namedTokens_blank (slots : List (String × Option Expr)) :
    Expr.namedTokens (Expr.blankNamed slots) = (Expr.namedTokens slots).map (List.map Token.blank) := by
  match slots with
  | [] => rfl
  | (_, none) :: rest => rw [blankNamed, namedTokens, namedTokens, List.map_cons, Expr.namedTokens_blank rest]; rfl
  | (_, some value) :: rest =>
    rw [blankNamed, namedTokens, namedTokens, List.map_cons, value.tokens_blank, Expr.namedTokens_blank rest]

theorem Expr.positionalTokens_blank (slots : List (Option Expr)) :
    Expr.positionalTokens (Expr.blankPositional slots) = (Expr.positionalTokens slots).map (List.map Token.blank) := by
  match slots with
  | [] => rfl
  | none :: rest =>
    rw [blankPositional, positionalTokens, positionalTokens, List.map_cons, Expr.positionalTokens_blank rest]; rfl
  | some value :: rest =>
    rw [blankPositional, positionalTokens, positionalTokens, List.map_cons, value.tokens_blank,
      Expr.positionalTokens_blank rest]

theorem Expr.elementTokens_blank (elements : List Expr) :
    Expr.elementTokens (Expr.blankElements elements) = (Expr.elementTokens elements).map (List.map Token.blank) := by
  match elements with
  | [] => rfl
  | value :: rest =>
    rw [blankElements, elementTokens, elementTokens, List.map_cons, value.tokens_blank, Expr.elementTokens_blank rest]
end

theorem Override.tokens_blank (override : Override) :
    Override.tokens { override with value := override.value.blank } = override.tokens.map Token.blank := by
  simp [tokens, Expr.tokens_blank, List.map_flatMap, Token.blank, Token.name]

theorem Template.tokens_blank (template : Template) : template.blank.tokens = template.tokens.map Token.blank := by
  have value : template.blank.valueTokens = template.valueTokens.map Token.blank := by
    rw [valueTokens, valueTokens, blank]
    cases template.value with
    | none => rfl
    | some value => exact value.tokens_blank
  have overrides : template.blank.overrides.flatMap Override.tokens =
      (template.overrides.flatMap Override.tokens).map Token.blank := by
    simp [blank, List.flatMap_map, List.map_flatMap, Override.tokens_blank]
  have body : template.blank.bodyTokens = template.bodyTokens.map Token.blank := by
    rw [bodyTokens, bodyTokens, value, overrides]
    simp [blank, Token.blank, Token.name]
  have parameters : (template.parameters.map Parameter.tokens).map (List.map Token.blank) =
      template.parameters.map Parameter.tokens := by
    simp [Parameter.tokens, Token.blank, Token.name]
  rw [tokens, tokens, body]
  simp [blank, map_intercalate, parameters, Token.blank, Token.name]

end TtcnTemplates
