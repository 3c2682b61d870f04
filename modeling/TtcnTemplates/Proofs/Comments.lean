import Mathlib.Algebra.Group.Nat.Even
import TtcnTemplates.Proofs.Terms
import TtcnTemplates.Template.Source

/-! # Texts in comments

Descriptions and diagnostics are put into comments, and they may hold anything. Escaping takes one pass, which does what
four replacements do one after the other (`Text.inPasses_eq`), although each of these puts characters next to those of
the ones before it. What comes out is made of plain characters and of pairs of a backslash and a character that is not a
`u` (`Java.Paired`), so that no backslash in it can begin a Unicode escape, which would be replaced even in a comment.
-/

namespace TtcnTemplates

namespace Text

/-! ### Replacements one after the other -/

/-- A text in which every occurrence of a pattern is replaced, from the left to the right. The first `skip` characters
    belong to an occurrence that is replaced already. -/
def replaceFrom (pattern replacement : List Char) : Nat → List Char → List Char
  | _, [] => []
  | skip + 1, _ :: rest => replaceFrom pattern replacement skip rest
  | 0, c :: rest =>
    if pattern.isPrefixOf (c :: rest) then replacement ++ replaceFrom pattern replacement (pattern.length - 1) rest
    else c :: replaceFrom pattern replacement 0 rest

/-- A text in which every occurrence of a pattern is replaced. -/
def replaceAll (pattern replacement text : List Char) : List Char := replaceFrom pattern replacement 0 text

section Replace

variable {c : Char} {pattern rest : List Char} (replacement : List Char)

theorem replaceAll_skip {first : Char} (other : first ≠ c) :
    replaceAll (first :: pattern) replacement (c :: rest) = c :: replaceAll (first :: pattern) replacement rest := by
  simp [replaceAll, replaceFrom, other]

theorem replaceAll_char : replaceAll [c] replacement (c :: rest) = replacement ++ replaceAll [c] replacement rest := by
  simp [replaceAll, replaceFrom]

theorem replaceAll_pair {d : Char} :
    replaceAll [c, d] replacement (c :: d :: rest) = replacement ++ replaceAll [c, d] replacement rest := by
  simp [replaceAll, replaceFrom]

theorem replaceAll_pair_skip {d : Char} (other : rest.head? ≠ some d) :
    replaceAll [c, d] replacement (c :: rest) = c :: replaceAll [c, d] replacement rest := by
  cases rest with
  | nil => simp [replaceAll, replaceFrom]
  | cons next rest =>
    have other : d ≠ next := by
      rintro rfl
      exact other rfl
    simp [replaceAll, replaceFrom, other]

end Replace

/-- A text after the replacements that make it fit for a comment: of a backslash, of the end of a block comment, of a
    carriage return and of a line feed. -/
def inPasses (text : List Char) : List Char :=
  let doubled := replaceAll ['\\'] ['\\', '\\'] text
  let broken := replaceAll ['*', '/'] ['*', ' ', '/'] doubled
  let returned := replaceAll ['\r'] ['\\', 'r'] broken
  replaceAll ['\n'] ['\\', 'n'] returned

/-- A doubled backslash is no solidus. -/
theorem head?_doubled {text : List Char} (other : text.head? ≠ some '/') :
    (replaceAll ['\\'] ['\\', '\\'] text).head? ≠ some '/' := by
  cases text with
  | nil => exact other
  | cons c rest =>
    by_cases backslash : c = '\\'
    · subst backslash
      rw [replaceAll_char]
      exact fun same => absurd same (by simp)
    · rw [replaceAll_skip _ (Ne.symm backslash)]
      exact other

/-- One pass does what the replacements do one after the other. -/
theorem inPasses_eq (text : List Char) : inPasses text = commentChars text := by
  induction text using commentChars.induct with
  | case1 => rfl
  | case2 rest ih =>
    have plain : replaceAll ['\\'] ['\\', '\\'] ('*' :: '/' :: rest) =
        '*' :: '/' :: replaceAll ['\\'] ['\\', '\\'] rest := by simp [replaceAll_skip]
    rw [commentChars, ← ih, inPasses, plain, replaceAll_pair]
    simp [replaceAll_skip, inPasses]
  | case3 rest ih =>
    rw [commentChars, ← ih, inPasses, replaceAll_char]
    simp [replaceAll_skip, inPasses]
  | case4 rest ih =>
    rw [commentChars, ← ih, inPasses, replaceAll_skip _ (by decide), replaceAll_skip _ (by decide), replaceAll_char]
    simp [replaceAll_skip, inPasses]
  | case5 rest ih =>
    rw [commentChars, ← ih, inPasses, replaceAll_skip _ (by decide), replaceAll_skip _ (by decide),
      replaceAll_skip _ (by decide), replaceAll_char]
    simp [inPasses]
  | case6 c rest ending backslash carriage newline ih =>
    -- An asterisk stays as it is because no solidus can come to stand after it.
    have kept : replaceAll ['*', '/'] ['*', ' ', '/'] (c :: replaceAll ['\\'] ['\\', '\\'] rest) =
        c :: replaceAll ['*', '/'] ['*', ' ', '/'] (replaceAll ['\\'] ['\\', '\\'] rest) := by
      by_cases asterisk : c = '*'
      · subst asterisk
        refine replaceAll_pair_skip _ (head?_doubled fun slash => ?_)
        obtain ⟨later, rfl⟩ := List.head?_eq_some_iff.mp slash
        exact ending later rfl rfl
      · exact replaceAll_skip _ (Ne.symm asterisk)
    rw [commentChars, ← ih, inPasses, replaceAll_skip _ (Ne.symm backslash), kept, replaceAll_skip _ (Ne.symm carriage),
      replaceAll_skip _ (Ne.symm newline), inPasses]
    all_goals assumption

end Text

namespace Java

/-! ### Backslashes -/

/-- The number of backslashes at the end of a text. -/
def closing (text : List Char) : Nat := (text.reverse.takeWhile (· == '\\')).length

/-- Whether a backslash in a text begins a Unicode escape: a `u` follows it, and the number of backslashes right before
    it is even. -/
def HasEscape (text : List Char) : Prop :=
  ∃ before after, text = before ++ '\\' :: 'u' :: after ∧ Even (closing before)

theorem closing_append (lead text : List Char) :
    closing (lead ++ text) = if closing text = text.length then text.length + closing lead else closing text := by
  rw [closing, List.reverse_append, List.takeWhile_append, apply_ite List.length, List.length_append,
    List.length_reverse]
  rfl

/-- An even number of backslashes more does not matter. -/
theorem even_closing_append {lead : List Char} (even : Even (closing lead)) (text : List Char) :
    Even (closing (lead ++ text)) ↔ Even (closing text) := by
  rw [closing_append]
  split
  case isTrue whole => rw [whole, Nat.even_add, iff_true_right even]
  case isFalse => rfl

/-- A text of plain characters and of pairs of a backslash and a character that is not a `u`. -/
inductive Paired : List Char → Prop
  | nil : Paired []
  | char {c : Char} {rest : List Char} (plain : c ≠ '\\') (later : Paired rest) : Paired (c :: rest)
  | pair {c : Char} {rest : List Char} (other : c ≠ 'u') (later : Paired rest) : Paired ('\\' :: c :: rest)

namespace Paired

theorem append {first second : List Char} (left : Paired first) (right : Paired second) : Paired (first ++ second) := by
  induction left with
  | nil => exact right
  | char plain _ ih => exact .char plain ih
  | pair other _ ih => exact .pair other ih

theorem of_not_mem {text : List Char} (plain : '\\' ∉ text) : Paired text := by
  induction text with
  | nil => exact .nil
  | cons c rest ih =>
    rw [List.mem_cons, not_or] at plain
    exact .char (Ne.symm plain.1) (ih plain.2)

theorem commentChars (text : List Char) : Paired (Text.commentChars text) := by
  induction text using Text.commentChars.induct with
  | case1 => exact .nil
  | case2 rest ih => exact (of_not_mem (by decide) : Paired ['*', ' ', '/']).append ih
  | case3 rest ih => exact .pair (by decide) ih
  | case4 rest ih => exact .pair (by decide) ih
  | case5 rest ih => exact .pair (by decide) ih
  | case6 c rest _ backslash _ _ ih =>
    rw [Text.commentChars]
    · exact .char backslash ih
    all_goals assumption

/-- The second backslash of a pair has an odd number of backslashes before it, and after the first there is no `u`. -/
theorem not_hasEscape {text : List Char} (paired : Paired text) : ¬HasEscape text := by
  induction paired with
  | nil =>
    rintro ⟨before, after, same, -⟩
    simp at same
  | @char c rest plain _ ih =>
    rintro ⟨before, after, same, even⟩
    rcases List.cons_eq_append_iff.mp same with ⟨rfl, here⟩ | ⟨before, rfl, later⟩
    · exact plain (List.cons.inj here).1.symm
    · have none : Even (closing [c]) := by simp [closing, plain]
      exact ih ⟨before, after, later, (even_closing_append none before).mp even⟩
  | @pair c rest other _ ih =>
    rintro ⟨before, after, same, even⟩
    rcases List.cons_eq_append_iff.mp same with ⟨rfl, here⟩ | ⟨before, rfl, here⟩
    · exact other (List.cons.inj (List.cons.inj here).2).1.symm
    · rcases List.cons_eq_append_iff.mp here with ⟨rfl, -⟩ | ⟨before, rfl, later⟩
      · exact absurd even (by decide)
      · have two : Even (closing ['\\', c]) := by
          by_cases backslash : c = '\\'
          · rw [backslash]
            decide
          · simp [closing, backslash]
        exact ih ⟨before, after, later, (even_closing_append two before).mp even⟩

end Paired

/-! ### The end of a comment -/

/-- Two texts that do not end a comment do not end it together, unless one ends with an asterisk and the other one
    begins with a solidus. -/
theorem InComment.append_text {first second : List Char} (left : InComment first) (right : InComment second)
    (apart : first.getLast? = some '*' → second.head? ≠ some '/') : InComment (first ++ second) := by
  induction first with
  | nil => exact right
  | cons c first ih =>
    rw [InComment, List.infix_cons_iff, not_or] at left
    rw [InComment, List.cons_append, List.infix_cons_iff, not_or]
    cases first with
    | nil =>
      refine ⟨?_, right⟩
      rw [List.nil_append, List.cons_prefix_cons, not_and]
      rintro rfl ⟨rest, same⟩
      exact apart rfl (by rw [← same]; rfl)
    | cons next first =>
      refine ⟨?_, ih left.2 fun last => apart (by simpa using last)⟩
      simpa [List.cons_prefix_cons] using left.1

/-- A comment has its end only where it is meant to. -/
theorem InComment.end_unique {text before after : List Char} (inside : InComment (text ++ ['*']))
    (same : text ++ ['*', '/'] = before ++ ['*', '/'] ++ after) : after = [] := by
  rcases List.eq_nil_or_concat after with rfl | ⟨later, last, rfl⟩
  · rfl
  · have parts : (text ++ ['*']) ++ ['/'] = (before ++ ['*', '/'] ++ later) ++ [last] := by simpa using same
    have cut := (List.append_inj' parts rfl).1
    exact absurd ⟨before, later, cut.symm⟩ inside

/-- What is read as no token at all has no influence on what is read after it. -/
theorem Complete.lex_append {alphabet : Alphabet} {text : List Char} (complete : Complete alphabet text [])
    (rest : List Char) : lex alphabet (text ++ rest) = lex alphabet rest := by
  rw [lex, lex, complete.inert rest]
  cases translate rest with
  | none => rfl
  | some translated =>
    have unchanged : Lexer.after [] = id := rfl
    simp only [Option.map_some, Option.bind_eq_bind, Option.bind_some]
    rw [complete.run_append, unchanged, Option.map_id_apply]

/-- A text that can stand in a comment of either style: it ends neither the line nor the comment, and no Unicode escape
    begins in it. -/
structure Harmless (text : List Char) : Prop where
  returned : '\r' ∉ text
  newline : '\n' ∉ text
  inside : InComment text
  inert : ¬HasEscape text

/-- Any text is harmless once it is escaped. -/
theorem Harmless.escapeComment (text : String) : Harmless (Text.escapeComment text).toList := by
  rw [toList_escapeComment]
  exact ⟨not_mem_commentChars (by decide) _, not_mem_commentChars (by decide) _, .commentChars _,
    (Paired.commentChars _).not_hasEscape⟩

/-- The comment that reports a fault, without its line feed. -/
def lineComment (text : String) : List Char := "// ".toList ++ (Text.escapeComment text).toList

/-- The comment that stands for an unsupported body. -/
def blockComment (text : String) : List Char :=
  (String.join ["/* unsupported template: ", Text.escapeComment text, " */"]).toList

theorem blockComment_eq (text : String) : blockComment text =
    "/*".toList ++ (" unsupported template: ".toList ++ ((Text.escapeComment text).toList ++ " */".toList)) := by
  simp [blockComment]

theorem Harmless.lineComment (text : String) : Harmless (lineComment text) := by
  have escaped := Harmless.escapeComment text
  refine ⟨?_, ?_, escaped.inside.append (by decide), ?_⟩
  · simpa [Java.lineComment] using escaped.returned
  · simpa [Java.lineComment] using escaped.newline
  · rw [Java.lineComment, toList_escapeComment]
    exact ((Paired.of_not_mem (by decide)).append (.commentChars _)).not_hasEscape

/-- A block comment goes on up to the solidus at its end. -/
theorem inComment_blockComment (text : String) :
    InComment ("/*".toList ++ (" unsupported template: ".toList ++ ((Text.escapeComment text).toList ++ [' '])) ++
      ['*']) := by
  have escaped := (Harmless.escapeComment text).inside
  have lead : InComment (" unsupported template: ".toList ++ (Text.escapeComment text).toList) :=
    escaped.append (by decide)
  have opening : InComment ['/', '*'] := by
    rw [InComment]
    decide
  have opened := opening.append_text lead fun _ => by simp
  have closing : InComment [' ', '*'] := by
    rw [InComment]
    decide
  simpa using opened.append_text closing fun _ => by simp

/-- Whatever a text holds, once it is escaped it has no carriage return, no line feed, no end of a block comment and no
    beginning of a Unicode escape, also where it stands in a comment; and a block comment with it ends with its last two
    characters and not before. So the comments that are written into the source are read as nothing at all. -/
theorem escaped_text_stays_in_comment (text : String) :
    (Text.escapeComment text).toList = Text.inPasses text.toList ∧
    Harmless (Text.escapeComment text).toList ∧ Harmless (lineComment text) ∧
    ('\r' ∉ blockComment text ∧ '\n' ∉ blockComment text ∧ ¬HasEscape (blockComment text) ∧
      ['*', '/'] <:+ blockComment text ∧
      ∀ before after, blockComment text = before ++ ['*', '/'] ++ after → after = []) ∧
    (∀ (indent : Nat) (diagnostic : Diagnostic), (String.join (diagnostic.fragments indent)).toList =
      (String.join (tabs indent)).toList ++ lineComment diagnostic.text ++ ['\n']) ∧
    (∀ (indent : Nat) (type : String),
      (Expr.source indent (.atom type (.unsupported text))).toList = "null ".toList ++ blockComment text) ∧
    ∀ (alphabet : Alphabet) (rest : List Char),
      lex alphabet (lineComment text ++ '\n' :: rest) = lex alphabet rest ∧
      lex alphabet (blockComment text ++ rest) = lex alphabet rest := by
  have escaped := Harmless.escapeComment text
  refine ⟨?passes, escaped, .lineComment text, ⟨?returned, ?newline, ?inert, ?ends, ?unique⟩, ?reported, ?written,
    fun alphabet rest => ⟨?line, ?block⟩⟩
  case passes => rw [toList_escapeComment, Text.inPasses_eq]
  case returned => simpa [blockComment_eq] using escaped.returned
  case newline => simpa [blockComment_eq] using escaped.newline
  case inert =>
    have opening : Paired "/*".toList := .of_not_mem (by decide)
    have lead : Paired " unsupported template: ".toList := .of_not_mem (by decide)
    have closing : Paired " */".toList := .of_not_mem (by decide)
    rw [blockComment_eq, toList_escapeComment]
    exact (opening.append (lead.append ((Paired.commentChars _).append closing))).not_hasEscape
  case ends =>
    have last : ['*', '/'] <:+ " */".toList := ⟨[' '], rfl⟩
    rw [blockComment_eq]
    exact ((last.trans (List.suffix_append _ _)).trans (List.suffix_append _ _)).trans (List.suffix_append _ _)
  case unique =>
    intro before after same
    refine InComment.end_unique (inComment_blockComment text) (Eq.trans ?_ same)
    simp [blockComment_eq]
  case reported =>
    intro indent diagnostic
    simp [Diagnostic.fragments, lineComment]
  case written =>
    intro indent type
    simp [Expr.source, Expr.fragments, Atom.fragments, blockComment_eq]
  case line =>
    have comment : Complete alphabet (lineComment text ++ "\n".toList) [] := by
      rw [lineComment, List.append_assoc]
      exact .lineComment text
    simpa using comment.lex_append rest
  case block =>
    have lead : '*' ∉ " unsupported template: ".toList ∧ '\\' ∉ " unsupported template: ".toList := by decide
    rw [blockComment_eq]
    exact (Complete.blockComment lead.1 lead.2 text).lex_append rest

end Java

end TtcnTemplates
