import TtcnTemplates.Proofs.Grammar
import TtcnTemplates.Proofs.Modules
import TtcnTemplates.Proofs.SourceTokens

/-! # Character strings keep their text

A character string passes through three notations: in a module its quotes are doubled, in the source it is escaped, and
Java reads the escapes back (`Java.unescape`) after it has replaced Unicode escapes and split the text into tokens.
Whatever the text is, Java reads the text that was written in the module.
-/

namespace TtcnTemplates

/-! ### What string literals denote in Java -/

namespace Java

/-- The value of an octal digit. -/
def octalDigit? (c : Char) : Option Nat := if '0' ≤ c ∧ c ≤ '7' then some (c.toNat - '0'.toNat) else none

/-- The characters that stand for another one after a backslash, with that one. -/
def escapeLetters : List (Char × Char) :=
  [('b', '\x08'), ('s', ' '), ('t', '\t'), ('n', '\n'), ('f', '\x0c'), ('r', '\r'), ('"', '"'), ('\'', '\''),
    ('\\', '\\')]

/-- What of an escape sequence has been read. -/
inductive Unescaping where
  | nothing
  | backslash
  /-- Octal digits with the given value, after which at most `more` can follow. -/
  | octal (more value : Nat)

/-- Reads a character that belongs to no escape sequence before it. -/
def plainStep (c : Char) : Unescaping × List Char := if c = '\\' then (.backslash, []) else (.nothing, [c])

/-- Reads a character of a string literal, and gives the characters that are then complete. An octal escape has three
    digits if the first is at most three, and else two; it ends before a character that is no octal digit. -/
def unescapeStep : Unescaping → Char → Option (Unescaping × List Char)
  | .nothing, c => some (plainStep c)
  | .backslash, c =>
    match octalDigit? c with
    | some digit => some (.octal (if digit ≤ 3 then 2 else 1) digit, [])
    | none => (escapeLetters.lookup c).map fun c => (.nothing, [c])
  | .octal more value, c =>
    match octalDigit? c, more with
    | some digit, more + 1 => some (.octal more (8 * value + digit), [])
    | _, _ => some ((plainStep c).1, Char.ofNat value :: (plainStep c).2)

/-- The text of a string literal, after what has been read of an escape sequence. -/
def unescapeFrom : Unescaping → List Char → Option (List Char)
  | .nothing, [] => some []
  | .backslash, [] => none
  | .octal _ value, [] => some [Char.ofNat value]
  | escape, c :: rest =>
    (unescapeStep escape c).bind fun next => (unescapeFrom next.1 rest).map (next.2 ++ ·)

/-- The text that stands between the quotes of a string literal, with its escape sequences replaced. -/
def unescape (content : List Char) : Option (List Char) := unescapeFrom .nothing content

/-- The text that is denoted by source which consists of one string literal. -/
def stringValue (alphabet : Alphabet) (source : List Char) : Option (List Char) :=
  match lex alphabet source with
  | some [.string content] => unescape content
  | _ => none

theorem unescapeFrom_stringChar (c : Char) (rest : List Char) :
    unescapeFrom .nothing (Text.stringChar c ++ rest) = (unescapeFrom .nothing rest).map (c :: ·) := by
  have escape {letter : Char} (other : octalDigit? letter = none) (stands : escapeLetters.lookup letter = some c) :
      unescapeFrom .nothing (['\\', letter] ++ rest) = (unescapeFrom .nothing rest).map (c :: ·) := by
    simp [unescapeFrom, unescapeStep, plainStep, other, stands, Function.comp_def]
  unfold Text.stringChar
  split
  · exact escape rfl rfl
  · exact escape rfl rfl
  · exact escape rfl rfl
  · exact escape rfl rfl
  · exact escape rfl rfl
  · rename_i backslash _ _ _
    simp [unescapeFrom, unescapeStep, plainStep, show c ≠ '\\' from backslash]

/-- What is escaped is read back. -/
theorem unescape_escapeString (text : String) :
    unescape (Text.escapeString text).toList = some text.toList := by
  have chars (text : List Char) : unescape (text.flatMap Text.stringChar) = some text := by
    induction text with
    | nil => rfl
    | cons c rest ih =>
      rw [unescape] at ih ⊢
      rw [List.flatMap_cons, unescapeFrom_stringChar, ih, Option.map_some]
  rw [Text.escapeString, String.toList_ofList]
  exact chars text.toList

/-- Escaped text does not end the line. -/
theorem not_mem_escapeString {c : Char} (ends : c ∈ lineEnds) (text : String) :
    c ∉ (Text.escapeString text).toList := by
  have chars (c' : Char) : c ∉ Text.stringChar c' := by
    simp only [lineEnds, List.mem_cons, List.not_mem_nil, or_false] at ends
    unfold Text.stringChar
    split
    · rcases ends with rfl | rfl <;> decide
    · rcases ends with rfl | rfl <;> decide
    · rcases ends with rfl | rfl <;> decide
    · rcases ends with rfl | rfl <;> decide
    · rcases ends with rfl | rfl <;> decide
    · rename_i newline carriage _
      rw [List.mem_singleton]
      rintro rfl
      exact ends.elim newline carriage
  rw [Text.escapeString, String.toList_ofList, List.mem_flatMap]
  rintro ⟨c', -, inside⟩
  exact chars c' inside

/-- A string literal that stands alone is one token. -/
theorem InString.lex_eq {alphabet : Alphabet} {text : List Char} (inside : InString text) :
    lex alphabet ('"' :: (text ++ ['"'])) = some [.string text] := by
  have quote : Inert ['"'] := .of_plain (by decide)
  have inert : Inert ('"' :: (text ++ ['"'])) := quote.append (inside.inert.append quote)
  have opened : run alphabet {} ['"'] = some ⟨.string [], []⟩ := run_of_plain (by decide) {}
  have reads : run alphabet {} ('"' :: (text ++ ['"'])) = (step alphabet ⟨.string text, []⟩ '"') := by
    rw [← List.singleton_append, run_append, opened, Option.bind_some, run_append, inside.reads, Option.bind_some,
      run_cons]
    simp
  rw [lex, inert.translate_eq, Option.bind_eq_bind, Option.bind_some, reads]
  -- A quote after nothing might begin a text block, so that the literal is only closed at the end of the source.
  cases text with
  | nil => rfl
  | cons c rest => rfl

theorem stringValue_escapeString (alphabet : Alphabet) (text : String) :
    stringValue alphabet ('"' :: ((Text.escapeString text).toList ++ ['"'])) = some text.toList := by
  rw [stringValue, (InString.escapeString text).lex_eq]
  exact unescape_escapeString text

end Java

/-! ### From the module to the source -/

/-- A quoted text is the token of what it stands in, whatever white space is around it. -/
theorem Literal.strips_quoted (text : List Char) {before after : List Char}
    (blank : ∀ c ∈ before ++ after, Text.isBlank c = true) :
    Text.Strips (before ++ quoted text ++ after) (quoted text) := by
  rw [List.forall_mem_append] at blank
  have last : (quoted text).getLast? = some '"' := by
    rw [quoted, ← List.cons_append, List.getLast?_concat]
  refine ⟨⟨before, after, rfl, blank.1, blank.2⟩, ?_, ?_⟩
  · intro c first
    cases first
    decide
  · intro c isLast
    rw [last] at isLast
    cases isLast
    decide

theorem readLiteral_quoted (text : String) {before after : List Char}
    (blank : ∀ c ∈ before ++ after, Text.isBlank c = true) :
    readLiteral (String.ofList (before ++ Literal.quoted text.toList ++ after)) = .ok (.charString text) := by
  rw [readLiteral_eq_ok_iff, String.toList_ofList, Text.strips_iff.mp (Literal.strips_quoted text.toList blank)]
  exact .charString text

/-- The expression of a character string at a class. -/
def charStringExpr (type : String) (text : String) : Expr := .atom type (.literal (Text.escapeString text))

theorem value_quoted (symbols : Symbols) (parameters : List Parameter) (type : TypeId) (text : String)
    {before after : List Char} (blank : ∀ c ∈ before ++ after, Text.isBlank c = true) :
    (Body.literal (String.ofList (before ++ Literal.quoted text.toList ++ after))).value symbols parameters type =
      pure (charStringExpr (symbols.javaName type) text) := by
  rw [Body.value, State.specific, readLiteral_quoted text blank]
  rfl

/-- A definition that is translated without remarks and faults adds its template and nothing else. -/
theorem Definition.translate_pure {definition : Definition} {symbols : Symbols} {registry : Registry} {type : TypeId}
    {template : Template} (known : symbols.lookup definition.type = some type)
    (reads : definition.template symbols registry.templates type = pure template) :
    definition.translate symbols registry = registry.add template := by
  simp [Definition.translate, known, reads, pure, Registry.remarkAll]

theorem charStringExpr_source (type text : String) (indent : Nat) :
    (charStringExpr type text).source indent = "new " ++ type ++ "(\"" ++ Text.escapeString text ++ "\")" := by
  simp [charStringExpr, Expr.source, Expr.fragments, Atom.fragments, String.join, String.append_assoc]

theorem charStringExpr_lex {alphabet : Java.Alphabet} {type : String} (typed : alphabet.isIdentifier type = true)
    (text : String) (indent : Nat) :
    Java.lex alphabet ((charStringExpr type text).source indent).toList =
      some [.name "new", .name type, .symbol '(', .string (Text.escapeString text).toList, .symbol ')'] := by
  have call := complete_new (Java.isWord_of_isIdentifier typed) (Java.InString.escapeString text).complete rfl
  rw [charStringExpr_source]
  simpa using call.lex_eq

/-- The literal of a character string, with any white space around its token, is compiled without a diagnostic to the
    construction of its type from one string literal: as the body of a definition, and wherever else a scope reads it as
    a value of the type. The string literal is one token on one line, and Java reads it as the text of the character
    string. -/
theorem charString_survives (alphabet : Java.Alphabet) (order : List Builtin) (declarations : Declarations)
    (symbols : Symbols) (resolved : declarations.resolveIn order = .ok symbols) (use : TypeUse) (type : TypeId)
    (known : symbols.lookup use = some type) (text : String) (before after : List Char)
    (blank : ∀ c ∈ before ++ after, Text.isBlank c = true) :
    let body := Tree.ofLiteral (String.ofList (before ++ Literal.quoted text.toList ++ after))
    let escaped := Text.escapeString text
    ∃ value : Expr,
      (∀ indent, value.source indent = "new " ++ symbols.javaName type ++ "(\"" ++ escaped ++ "\")") ∧
      (∀ module name,
        let registry := (compile symbols (Tree.ofModule module [Tree.ofDefinition use name [] none body])).registry
        registry.diagnostics = [] ∧ registry.templates = [⟨name, symbols.javaName type, some value, [], []⟩]) ∧
      (∀ (state : State) (parent parent' : Scope) (below : List Scope), state.symbols = symbols →
        parent.enter state body =
          .ok ⟨(state.valueScope type body).1, parent', some (state.valueScope type body).2⟩ →
        (Compiler.walk ⟨state, parent :: below⟩ body).Same
          (Compiler.deliver state body (.value value) (parent' :: below))) ∧
      (alphabet.isIdentifier (symbols.javaName type) = true → ∀ indent,
        Java.lex alphabet (value.source indent).toList =
          some [.name "new", .name (symbols.javaName type), .symbol '(', .string escaped.toList, .symbol ')']) ∧
      Java.lex alphabet ('"' :: (escaped.toList ++ ['"'])) = some [.string escaped.toList] ∧
      (∀ c ∈ Java.lineEnds, c ∉ escaped.toList) ∧
      Java.stringValue alphabet ('"' :: (escaped.toList ++ ['"'])) = some text.toList := by
  intro body escaped
  have distinct := Declarations.resolveIn_distinct resolved
  have translated (parameters : List Parameter) := value_quoted symbols parameters type text blank
  refine ⟨charStringExpr (symbols.javaName type) text, charStringExpr_source _ text, ?compiled, ?anywhere,
    fun typed => charStringExpr_lex typed text, (Java.InString.escapeString text).lex_eq,
    fun c ends => Java.not_mem_escapeString ends text, Java.stringValue_escapeString alphabet text⟩
  case compiled =>
    intro module name
    let definition : Definition :=
      ⟨use, name, [], none, .literal (String.ofList (before ++ Literal.quoted text.toList ++ after))⟩
    have reads : definition.template symbols [] type =
        pure ⟨name, symbols.javaName type, some (charStringExpr (symbols.javaName type) text), [], []⟩ := by
      simp only [Definition.template, Definition.content, definition, translated]
      rfl
    have registry := registry_ofModule distinct module [definition]
    rw [List.foldl_cons, List.foldl_nil, Definition.translate_pure known reads] at registry
    exact ⟨congrArg Registry.diagnostics registry, congrArg Registry.templates registry⟩
  case anywhere =>
    rintro state parent parent' below rfl opens
    have walked := Compiler.walk_body (Body.reads (.literal _)) below distinct opens
    rwa [translated, Reading.resume_pure] at walked

/-- A text with quotes, backslashes, what looks like a Unicode escape, a line break and a backslash at its end. -/
theorem charString_survives_hostile :
    let declarations : Declarations := { types := [⟨"Name", .record []⟩] }
    let symbols : Symbols :=
      { entries := [Builtin.charstring.entry, ⟨"Name", "Name", some (.record [])⟩]
        builtins := [("charstring", ⟨0⟩)]
        declared := [("Name", ⟨1⟩)]
        constants := [] }
    let text := "\"\"\\u0022\\\\u000a\n\\"
    let token := "\u2003\t\"\"\"\"\"\\u0022\\\\u000a\n\\\"\u00a0\r\n"
    declarations.resolveIn [.charstring] = .ok symbols ∧
      (compile symbols (Tree.ofModule "M" [Tree.ofDefinition (.builtin "charstring") "t" [] none
        (.ofLiteral token)])).registry.source 0 =
          "public static CHARSTRING t() \x7b\n\tCHARSTRING value = new CHARSTRING(" ++
            "\"\\\"\\\"\\\\u0022\\\\\\\\u000a\\n\\\\\");\n\treturn value;\n\x7d\n" ∧
      Java.stringValue .unicode "\"\\\"\\\"\\\\u0022\\\\\\\\u000a\\n\\\\\"".toList = some text.toList := by
  intro declarations symbols text token
  have resolved : declarations.resolveIn [.charstring] = .ok symbols := by rfl
  obtain ⟨value, -, -, -, -, -, -, denotes⟩ := charString_survives .unicode [.charstring] declarations symbols resolved
    (.builtin "charstring") ⟨0⟩ rfl text ['\u2003', '\t'] ['\u00a0', '\r', '\n']
    (List.all_eq_true.mp (by decide))
  have escaped : '"' :: ((Text.escapeString text).toList ++ ['"']) =
      "\"\\\"\\\"\\\\u0022\\\\\\\\u000a\\n\\\\\"".toList := by decide +kernel
  rw [escaped] at denotes
  exact ⟨resolved, by decide +kernel, denotes⟩

end TtcnTemplates
