import TtcnTemplates.Proofs.Lexical

/-! # Expressions of the generated source

The expressions of generated source as trees (`Term`), the text of a tree, and a reader of such texts. A word ends at a
delimiter, a string literal at a quote that is not escaped, a comment at its end mark, and an argument at a comma or at
the end of its line. If the names, literals and comments of a tree leave these to the structure (`Term.Legible`), the
reader gets the tree back from its text, and it stops where the text stops (`Term.Legible.readFrom_text`).
-/

namespace TtcnTemplates.Java

/-! ### Trees and their text -/

/-- An expression of generated source. -/
inductive Term where
  | parameter (name : String)
  /-- A static field of a class. -/
  | member (type field : String)
  /-- A constant of the module. -/
  | constant (name : String)
  /-- What the method of a base gives, as an object of the class. -/
  | baseCall (type base : String)
  /-- A new object for a string literal, with the text between its quotes. -/
  | literal (type text : String)
  /-- A new object with each of its arguments on a line of its own. -/
  | construct (type : String) (arguments : List Term)
  /-- A new object around another one. -/
  | wrap (type : String) (inner : Term)
  /-- A construct without a Java form, with its description. -/
  | unsupported (description : String)
  /-- An argument that is not there, with its label. -/
  | unbound (label : String)

/-- The white space at the start of a line. -/
def indentation (indent : Nat) : List Char := List.replicate indent '\t'

/-- The text of a new object, with what stands between its parentheses. -/
def newText (type : String) (arguments : List Char) : List Char :=
  "new".toList ++ ' ' :: (type.toList ++ '(' :: (arguments ++ [')']))

/-- The text of nothing, with a comment on what is missing. -/
def nullText (what text : String) : List Char :=
  "null".toList ++ ' ' :: '/' :: '*' :: ' ' :: (what.toList ++ (text.toList ++ [' ', '*', '/']))

mutual
/-- The text of an expression that starts on a line with `indent` tabs. -/
def Term.text (indent : Nat) : Term → List Char
  | .parameter name => name.toList
  | .member type field => type.toList ++ '.' :: field.toList
  | .constant name => ("Constants." ++ name ++ "()").toList
  | .baseCall type base => ("(" ++ type ++ ") " ++ base ++ "()").toList
  | .literal type text => newText type ('"' :: (text.toList ++ ['"']))
  | .construct type arguments => newText type (Term.argumentsText indent arguments)
  | .wrap type inner => newText type (inner.text indent)
  | .unsupported description => nullText "unsupported template: " description
  | .unbound label => nullText "unbound " label

/-- The text of arguments. -/
def Term.argumentsText (indent : Nat) : List Term → List Char
  | [] => []
  | first :: rest => '\n' :: indentation (indent + 1) ++ (first.text (indent + 1) ++ Term.moreText indent rest)

/-- The text of arguments that come after another one. -/
def Term.moreText (indent : Nat) : List Term → List Char
  | [] => '\n' :: indentation indent
  | next :: rest => ',' :: '\n' :: indentation (indent + 1) ++ (next.text (indent + 1) ++ Term.moreText indent rest)
end

/-! ### Reading -/

/-- The word at the start of a text, and the text after it. -/
def word (alphabet : Alphabet) (text : List Char) : List Char × List Char :=
  (text.takeWhile alphabet.continues, text.dropWhile alphabet.continues)

/-- The text without the white space at its start. -/
def skipTabs (text : List Char) : List Char := text.dropWhile (· == '\t')

/-- The content of a string literal, up to the first quote without a backslash before it, and the text after it. -/
def splitString : List Char → Option (List Char × List Char)
  | [] => none
  | '"' :: rest => some ([], rest)
  | '\\' :: c :: rest => (splitString rest).map fun (content, rest) => ('\\' :: c :: content, rest)
  | c :: rest => (splitString rest).map fun (content, rest) => (c :: content, rest)

/-- The content of a comment, up to its end mark, and the text after it. -/
def splitComment : List Char → Option (List Char × List Char)
  | [] => none
  | '*' :: '/' :: rest => some ([], rest)
  | c :: rest => (splitComment rest).map fun (content, rest) => (c :: content, rest)

/-- What a comment says about the expression that it stands for. -/
def Term.ofComment (content : List Char) : Option Term :=
  if "unsupported template: ".toList.isPrefixOf content then some (.unsupported (String.ofList (content.drop 22)))
  else if "unbound ".toList.isPrefixOf content then some (.unbound (String.ofList (content.drop 8)))
  else none

theorem Term.ofComment_unsupported (description : String) :
    ofComment ("unsupported template: ".toList ++ description.toList) = some (.unsupported description) := by
  have dropped : ("unsupported template: ".toList ++ description.toList).drop 22 = description.toList := rfl
  rw [ofComment, if_pos (by simp), dropped, String.ofList_toList]

theorem Term.ofComment_unbound (label : String) :
    ofComment ("unbound ".toList ++ label.toList) = some (.unbound label) := by
  have dropped : ("unbound ".toList ++ label.toList).drop 8 = label.toList := rfl
  rw [ofComment, if_neg (by simp), if_pos (by simp), dropped, String.ofList_toList]

/-- Reads what comes after `null` and a blank. -/
def readNull : List Char → Option (Term × List Char)
  | '/' :: '*' :: ' ' :: rest => do
    let (content, rest) ← splitComment rest
    let term ← Term.ofComment content.dropLast
    return (term, rest)
  | _ => none

/-- Reads what comes after a parenthesis. -/
def readBaseCall (alphabet : Alphabet) (text : List Char) : Option (Term × List Char) :=
  match word alphabet text with
  | (type, ')' :: ' ' :: rest) =>
    match word alphabet rest with
    | (base, '(' :: ')' :: rest) => some (.baseCall (String.ofList type) (String.ofList base), rest)
    | _ => none
  | _ => none

/-- Reads what comes after a word and a dot. -/
def readMember (alphabet : Alphabet) (first text : List Char) : Option (Term × List Char) :=
  match word alphabet text with
  | (name, '(' :: ')' :: rest) =>
    if first = "Constants".toList then some (.constant (String.ofList name), rest) else none
  | (field, rest) => some (.member (String.ofList first) (String.ofList field), rest)

/-- Reads the arguments that come after another one, with a reader of expressions. -/
def readMore (read : List Char → Option (Term × List Char)) : Nat → List Char → Option (List Term × List Char)
  | fuel + 1, ',' :: '\n' :: rest => do
    let (next, rest) ← read (skipTabs rest)
    let (more, rest) ← readMore read fuel rest
    return (next :: more, rest)
  | _, '\n' :: rest =>
    match skipTabs rest with
    | ')' :: rest => some ([], rest)
    | _ => none
  | _, _ => none

/-- Reads what comes after the parenthesis of a new object, with a reader of expressions. -/
def readArguments (read : List Char → Option (Term × List Char)) (fuel : Nat) (type : String) :
    List Char → Option (Term × List Char)
  | '"' :: rest =>
    match splitString rest with
    | some (content, ')' :: rest) => some (.literal type (String.ofList content), rest)
    | _ => none
  | ')' :: rest => some (.construct type [], rest)
  | '\n' :: rest => do
    let (first, rest) ← read (skipTabs rest)
    let (more, rest) ← readMore read fuel rest
    return (.construct type (first :: more), rest)
  | rest =>
    match read rest with
    | some (inner, ')' :: rest) => some (.wrap type inner, rest)
    | _ => none

/-- Reads what comes after `new` and a blank, with a reader of expressions. -/
def readNew (alphabet : Alphabet) (read : List Char → Option (Term × List Char)) (fuel : Nat) (text : List Char) :
    Option (Term × List Char) :=
  match word alphabet text with
  | (type, '(' :: rest) => readArguments read fuel (String.ofList type) rest
  | _ => none

/-- Reads what comes after a word, with a reader of expressions. -/
def readAfter (alphabet : Alphabet) (read : List Char → Option (Term × List Char)) (fuel : Nat) :
    List Char × List Char → Option (Term × List Char)
  | (first, '.' :: rest) => readMember alphabet first rest
  | (first, ' ' :: rest) =>
    if first = "new".toList then readNew alphabet read fuel rest
    else if first = "null".toList then readNull rest
    else none
  | (name, rest) => some (.parameter (String.ofList name), rest)

/-- Reads an expression at the start of a text, and gives the text after it. Every nested expression uses up one of the
    given steps, and so does every argument. -/
def readFrom (alphabet : Alphabet) : Nat → List Char → Option (Term × List Char)
  | 0, _ => none
  | _ + 1, '(' :: rest => readBaseCall alphabet rest
  | fuel + 1, text => readAfter alphabet (readFrom alphabet fuel) fuel (word alphabet text)

/-- Reads a text that is one expression. There are no more steps than characters. -/
def Term.read (alphabet : Alphabet) (text : List Char) : Option Term :=
  match readFrom alphabet (text.length + 1) text with
  | some (term, []) => some term
  | _ => none

/-! ### Words, literals and comments -/

variable {alphabet : Alphabet}

/-- A text at which a word ends. -/
def Bounded (text : List Char) : Prop := ∀ c ∈ text.head?, c ∈ delimiters

theorem Bounded.cons {c : Char} (delimiter : c ∈ delimiters) (rest : List Char) : Bounded (c :: rest) := by
  rintro _ ⟨⟩
  exact delimiter

theorem word_append {first rest : List Char} (isWord : IsWord alphabet first) (bounded : Bounded rest) :
    word alphabet (first ++ rest) = (first, rest) := by
  rw [word, List.takeWhile_append_of_pos isWord.continues, List.dropWhile_append_of_pos isWord.continues]
  cases rest with
  | nil => simp
  | cons c rest => simp [alphabet.delimiter (bounded c rfl)]

/-- The words that every alphabet has. -/
theorem isWord_of_latin {text : String} (latin : Alphabet.latin.isIdentifier text = true) :
    IsWord alphabet text.toList := isWord_of_isIdentifier (alphabet.isIdentifier_of_latin latin)

/-- A text that is fit for a string literal is all of its content. -/
theorem InString.split {text : List Char} (inside : InString text) (rest : List Char) :
    splitString (text ++ '"' :: rest) = some (text, rest) := by
  -- The lexer stays inside the literal, so it meets no bare quote, and no backslash at the end.
  have reads := inside.reads .latin ['x'] []
  have opened : ['x'] ≠ [] := List.cons_ne_nil _ _
  clear inside
  generalize ['x'] = content at reads opened
  induction text using splitString.induct generalizing content with
  | case1 => rfl
  | case2 text =>
    have closed : run .latin ⟨.string content, []⟩ ('"' :: text) =
        (run .latin ⟨.code, []⟩ text).map (Lexer.after [.string content]) := by
      rw [← run_after, run_cons]
      simp [step, opened, Lexer.after]
    rw [closed] at reads
    obtain ⟨lexer, -, same⟩ := Option.map_eq_some_iff.mp reads
    simp [Lexer.after] at same
  | case3 c text ih =>
    have escaped : step .latin ⟨.string content, []⟩ '\\' = some ⟨.escape content, []⟩ := rfl
    rw [run_cons, escaped, Option.bind_some, run_cons] at reads
    by_cases valid : c ∈ escapes
    · simp only [step, valid, if_true, Option.bind_some] at reads
      have later := ih (content ++ ['\\', c]) (by simpa using reads) (by simp)
      rw [List.cons_append, List.cons_append, splitString, later]
      rfl
    · simp [step, valid] at reads
  | case4 c text quote backslash ih =>
    have isQuote : ¬c = '"' := quote
    by_cases isBackslash : c = '\\'
    · subst isBackslash
      cases text with
      | nil => cases reads
      | cons c text => exact (backslash c text rfl rfl).elim
    · rw [run_cons] at reads
      by_cases ends : c ∈ lineEnds
      · simp [step, isQuote, isBackslash, ends] at reads
      · simp only [step, isQuote, isBackslash, ends, if_false, Option.bind_some] at reads
        have later := ih (content ++ [c]) (by simpa using reads) (by simp)
        rw [List.cons_append, splitString, later]
        · rfl
        · exact quote
        · exact fun _ _ equal _ => isBackslash equal

/-- A text that does not end the comment that it stands in. -/
def InComment (text : List Char) : Prop := ¬['*', '/'] <:+: text

theorem InComment.split {text : List Char} (inside : InComment text) (rest : List Char) :
    splitComment (text ++ ' ' :: '*' :: '/' :: rest) = some (text ++ [' '], rest) := by
  induction text with
  | nil => rfl
  | cons c text ih =>
    rw [InComment, List.infix_cons_iff, not_or] at inside
    rw [List.cons_append, splitComment, ih inside.2]
    · rfl
    · rintro later rfl same
      cases text with
      | nil => cases same
      | cons c' text =>
        cases same
        exact inside.1 (List.prefix_append ['*', '/'] text)

theorem InComment.of_not_mem {text : List Char} (plain : '*' ∉ text) : InComment text :=
  fun ends => plain (ends.subset List.mem_cons_self)

/-- A text without an asterisk may stand before it. -/
theorem InComment.append {lead text : List Char} (inside : InComment text) (plain : '*' ∉ lead) :
    InComment (lead ++ text) := by
  induction lead with
  | nil => exact inside
  | cons c lead ih =>
    rw [List.mem_cons, not_or] at plain
    rw [InComment, List.cons_append, List.infix_cons_iff, not_or, List.cons_prefix_cons, not_and]
    exact ⟨fun equal => absurd equal plain.1, ih plain.2⟩

/-- An escaped text begins with a solidus only where the text does. -/
theorem head?_of_commentChars {text : List Char} (slash : (Text.commentChars text).head? = some '/') :
    text.head? = some '/' := by
  unfold Text.commentChars at slash
  split at slash
  · cases slash
  · cases slash
  · cases slash
  · cases slash
  · cases slash
  · exact slash

/-- Any text can stand in a comment once it is escaped. -/
theorem InComment.commentChars (text : List Char) : InComment (Text.commentChars text) := by
  induction text using Text.commentChars.induct with
  | case1 => exact .of_not_mem List.not_mem_nil
  | case2 rest ih =>
    have broken : InComment ([' ', '/'] ++ Text.commentChars rest) := ih.append (by decide)
    rw [Text.commentChars, InComment, List.infix_cons_iff, not_or]
    exact ⟨by simp [List.cons_prefix_cons], broken⟩
  | case6 c rest ending _ _ _ ih =>
    rw [Text.commentChars, InComment, List.infix_cons_iff, not_or, List.cons_prefix_cons, not_and]
    · refine ⟨?_, ih⟩
      rintro rfl slash
      obtain ⟨tail, same⟩ := slash
      obtain ⟨rest', rfl⟩ := List.head?_eq_some_iff.mp (head?_of_commentChars (congrArg List.head? same.symm))
      exact ending rest' rfl rfl
    all_goals assumption
  | case3 rest ih =>
    have doubled : InComment (['\\', '\\'] ++ Text.commentChars rest) := ih.append (by decide)
    exact doubled
  | case4 rest ih =>
    have escaped : InComment (['\\', 'r'] ++ Text.commentChars rest) := ih.append (by decide)
    exact escaped
  | case5 rest ih =>
    have escaped : InComment (['\\', 'n'] ++ Text.commentChars rest) := ih.append (by decide)
    exact escaped

/-! ### Legible expressions -/

/-- An expression whose names are words, whose literals are fit for a string literal, and whose comments end where they
    are meant to. -/
inductive Term.Legible (alphabet : Alphabet) : Term → Prop
  | parameter {name : String} (named : IsWord alphabet name.toList) : Legible alphabet (.parameter name)
  | member {type field : String} (typed : IsWord alphabet type.toList) (named : IsWord alphabet field.toList) :
      Legible alphabet (.member type field)
  | constant {name : String} (named : IsWord alphabet name.toList) : Legible alphabet (.constant name)
  | baseCall {type base : String} (typed : IsWord alphabet type.toList) (named : IsWord alphabet base.toList) :
      Legible alphabet (.baseCall type base)
  | literal {type text : String} (typed : IsWord alphabet type.toList) (inside : InString text.toList) :
      Legible alphabet (.literal type text)
  | construct {type : String} {arguments : List Term} (typed : IsWord alphabet type.toList)
      (each : ∀ argument ∈ arguments, Legible alphabet argument) : Legible alphabet (.construct type arguments)
  | wrap {type : String} {inner : Term} (typed : IsWord alphabet type.toList) (legible : Legible alphabet inner) :
      Legible alphabet (.wrap type inner)
  | unsupported {description : String} (inside : InComment description.toList) :
      Legible alphabet (.unsupported description)
  | unbound {label : String} (inside : InComment label.toList) : Legible alphabet (.unbound label)

/-- What may follow an expression: nothing, or the end of an argument. -/
def Stops (text : List Char) : Prop := ∀ c ∈ text.head?, c ∈ [',', ')', '\n']

theorem Stops.cons {c : Char} (stop : c ∈ [',', ')', '\n']) (rest : List Char) : Stops (c :: rest) := by
  rintro _ ⟨⟩
  exact stop

theorem Stops.bounded {text : List Char} (stops : Stops text) : Bounded text := by
  intro c first
  have among : [',', ')', '\n'] ⊆ delimiters := by decide
  exact among (stops c first)

namespace Term

/-- A character that begins an expression: a parenthesis, or one that continues a word. -/
def Opens (alphabet : Alphabet) (c : Char) : Prop := c = '(' ∨ alphabet.continues c = true

theorem Opens.not_mem {c : Char} (opens : Opens alphabet c) : c ∉ ['"', ')', '\n', '\t'] := by
  intro member
  rcases opens with rfl | continues
  · exact absurd member (by decide)
  · have among : ['"', ')', '\n', '\t'] ⊆ delimiters := by decide
    rw [alphabet.delimiter (among member)] at continues
    cases continues

theorem exists_opens_of_isWord {first : List Char} (isWord : IsWord alphabet first) (rest : List Char) :
    ∃ c tail, first ++ rest = c :: tail ∧ Opens alphabet c := by
  cases first with
  | nil => exact absurd rfl isWord.nonempty
  | cons c tail => exact ⟨c, tail ++ rest, rfl, .inr (isWord.continues c List.mem_cons_self)⟩

theorem Legible.exists_opens {term : Term} (legible : term.Legible alphabet) (indent : Nat) :
    ∃ c tail, term.text indent = c :: tail ∧ Opens alphabet c := by
  have letter {c : Char} (latin : c.isAlpha = true) : Opens alphabet c :=
    .inr (alphabet.continues_of_starts (alphabet.starts_of_latin (.inl latin)))
  cases legible with
  | parameter named => simpa [text] using exists_opens_of_isWord named []
  | member typed named => exact exists_opens_of_isWord typed _
  | constant named =>
    rw [text, String.toList_append, String.toList_append]
    exact ⟨'C', _, rfl, letter (by decide)⟩
  | baseCall typed named =>
    rw [text, String.toList_append, String.toList_append, String.toList_append, String.toList_append]
    exact ⟨'(', _, rfl, .inl rfl⟩
  | _ => exact ⟨'n', _, rfl, letter (by decide)⟩

end Term

/-! ### Reading a text back -/

section
variable {indent fuel : Nat} {first rest : List Char}

/-- Reading begins with a word, unless with a parenthesis. -/
theorem readFrom_word (isWord : IsWord alphabet first) (bounded : Bounded rest) :
    readFrom alphabet (fuel + 1) (first ++ rest) =
      readAfter alphabet (readFrom alphabet fuel) fuel (first, rest) := by
  rw [readFrom, word_append isWord bounded]
  intro later same
  cases first with
  | nil => exact isWord.nonempty rfl
  | cons c tail =>
    cases same
    exact isWord.not_mem (by decide) List.mem_cons_self

theorem readFrom_parameter {name : String} (named : IsWord alphabet name.toList) (stops : Stops rest) :
    readFrom alphabet (fuel + 1) (Term.text indent (.parameter name) ++ rest) = some (.parameter name, rest) := by
  rw [Term.text, readFrom_word named stops.bounded, readAfter, String.ofList_toList]
  · rintro later rfl
    exact absurd (stops _ rfl) (by decide)
  · rintro later rfl
    exact absurd (stops _ rfl) (by decide)

theorem readFrom_member {type field : String} (typed : IsWord alphabet type.toList)
    (named : IsWord alphabet field.toList) (stops : Stops rest) :
    readFrom alphabet (fuel + 1) (Term.text indent (.member type field) ++ rest) = some (.member type field, rest) := by
  rw [Term.text, List.append_assoc, List.cons_append, readFrom_word typed (.cons (by decide) _), readAfter, readMember,
    word_append named stops.bounded]
  split
  · rename_i name later same
    cases same
    exact absurd (stops _ rfl) (by decide)
  · rename_i same
    cases same
    rw [String.ofList_toList, String.ofList_toList]

theorem readFrom_constant {name : String} (named : IsWord alphabet name.toList) :
    readFrom alphabet (fuel + 1) (Term.text indent (.constant name) ++ rest) = some (.constant name, rest) := by
  have constants : IsWord alphabet "Constants".toList := isWord_of_latin (by decide)
  have split : Term.text indent (.constant name) ++ rest =
      "Constants".toList ++ '.' :: (name.toList ++ '(' :: ')' :: rest) := by
    simp [Term.text]
  rw [split, readFrom_word constants (.cons (by decide) _), readAfter, readMember,
    word_append named (.cons (by decide) _)]
  simp

theorem readFrom_baseCall {type base : String} (typed : IsWord alphabet type.toList)
    (named : IsWord alphabet base.toList) :
    readFrom alphabet (fuel + 1) (Term.text indent (.baseCall type base) ++ rest) =
      some (.baseCall type base, rest) := by
  have split : Term.text indent (.baseCall type base) ++ rest =
      '(' :: (type.toList ++ ')' :: ' ' :: (base.toList ++ '(' :: ')' :: rest)) := by
    simp [Term.text]
  have call : word alphabet (base.toList ++ '(' :: ')' :: rest) = (base.toList, '(' :: ')' :: rest) :=
    word_append named (.cons (by decide) _)
  rw [split, readFrom, readBaseCall, word_append typed (.cons (by decide) _)]
  simp [call]

/-- A comment that begins with a fixed text is read to its end. -/
theorem readFrom_null {what text : String} {term : Term} (plain : '*' ∉ what.toList) (inside : InComment text.toList)
    (given : Term.ofComment (what.toList ++ text.toList) = some term) :
    readFrom alphabet (fuel + 1) (nullText what text ++ rest) = some (term, rest) := by
  have null : IsWord alphabet "null".toList := isWord_of_latin (by decide)
  have split : nullText what text ++ rest =
      "null".toList ++ ' ' :: '/' :: '*' :: ' ' :: (what.toList ++ text.toList ++ ' ' :: '*' :: '/' :: rest) := by
    simp only [nullText, List.append_assoc, List.cons_append, List.nil_append]
  rw [split, readFrom_word null (.cons (by decide) _), readAfter, if_neg (by decide), if_pos rfl, readNull,
    (inside.append plain).split]
  simp [given]

/-- A new object is read by what stands between its parentheses. -/
theorem readFrom_new {type : String} (typed : IsWord alphabet type.toList) (arguments : List Char) :
    readFrom alphabet (fuel + 1) (newText type arguments ++ rest) =
      readArguments (readFrom alphabet fuel) fuel type (arguments ++ ')' :: rest) := by
  have new : IsWord alphabet "new".toList := isWord_of_latin (by decide)
  have split : newText type arguments ++ rest =
      "new".toList ++ ' ' :: (type.toList ++ '(' :: (arguments ++ ')' :: rest)) := by
    simp only [newText, List.append_assoc, List.cons_append, List.nil_append]
  rw [split, readFrom_word new (.cons (by decide) _), readAfter, if_pos rfl, readNew,
    word_append typed (.cons (by decide) _)]
  simp

theorem readFrom_literal {type text : String} (typed : IsWord alphabet type.toList) (inside : InString text.toList) :
    readFrom alphabet (fuel + 1) (Term.text indent (.literal type text) ++ rest) = some (.literal type text, rest) := by
  have split : '"' :: (text.toList ++ ['"']) ++ ')' :: rest = '"' :: (text.toList ++ '"' :: ')' :: rest) := by simp
  rw [Term.text, readFrom_new typed, split, readArguments, inside.split]
  simp

theorem readFrom_wrap {type : String} {inner : Term} (typed : IsWord alphabet type.toList)
    (legible : inner.Legible alphabet)
    (reads : readFrom alphabet fuel (inner.text indent ++ ')' :: rest) = some (inner, ')' :: rest)) :
    readFrom alphabet (fuel + 1) (Term.text indent (.wrap type inner) ++ rest) = some (.wrap type inner, rest) := by
  obtain ⟨c, tail, same, opens⟩ := legible.exists_opens indent
  have other := opens.not_mem
  simp only [List.mem_cons, List.not_mem_nil, or_false, not_or] at other
  rw [Term.text, readFrom_new typed]
  rw [same, List.cons_append] at reads ⊢
  rw [readArguments, reads]
  · rfl
  · rintro later ⟨⟩
    exact other.1 rfl
  · rintro later ⟨⟩
    exact other.2.1 rfl
  · rintro later ⟨⟩
    exact other.2.2.1 rfl

end

/-! ### Arguments -/

section
variable {indent : Nat} {read : List Char → Option (Term × List Char)}

theorem skipTabs_text {term : Term} (legible : term.Legible alphabet) (tabs : Nat) (rest : List Char) :
    skipTabs (indentation tabs ++ (term.text indent ++ rest)) = term.text indent ++ rest := by
  obtain ⟨c, tail, same, opens⟩ := legible.exists_opens indent
  have other := opens.not_mem
  simp only [List.mem_cons, List.not_mem_nil, or_false, not_or] at other
  rw [skipTabs, indentation, List.dropWhile_append_of_pos (by simp), same]
  simp [other.2.2.2]

theorem stops_moreText (indent : Nat) (more : List Term) (rest : List Char) :
    Stops (Term.moreText indent more ++ ')' :: rest) := by
  cases more with
  | nil => exact .cons (by decide) _
  | cons next more => exact .cons (by decide) _

/-- Arguments that come after another one are read up to the parenthesis. -/
theorem readMore_text {more : List Term} (each : ∀ argument ∈ more, argument.Legible alphabet)
    (reads : ∀ argument ∈ more, ∀ rest, Stops rest →
      read (argument.text (indent + 1) ++ rest) = some (argument, rest)) {fuel : Nat} (enough : more.length ≤ fuel)
    (rest : List Char) : readMore read fuel (Term.moreText indent more ++ ')' :: rest) = some (more, rest) := by
  induction more generalizing fuel with
  | nil =>
    have closed : skipTabs (indentation indent ++ ')' :: rest) = ')' :: rest := by
      rw [skipTabs, indentation, List.dropWhile_append_of_pos (by simp)]
      rfl
    rw [Term.moreText, List.cons_append]
    cases fuel <;> simp [readMore, closed]
  | cons next more ih =>
    rw [List.forall_mem_cons] at each reads
    obtain _ | fuel := fuel
    · simp at enough
    have here := reads.1 _ (stops_moreText indent more rest)
    have later := ih each.2 reads.2 (Nat.le_of_succ_le_succ enough)
    simp only [Term.moreText, List.cons_append, List.append_assoc, readMore, skipTabs_text each.1, here,
      Option.bind_eq_bind, Option.bind_some, later]
    rfl

theorem length_le_moreText (indent : Nat) (more : List Term) : more.length ≤ (Term.moreText indent more).length := by
  induction more with
  | nil => exact Nat.zero_le _
  | cons next more ih =>
    simp only [Term.moreText, List.length_cons, List.length_append]
    omega

theorem length_text_le_moreText (indent : Nat) {more : List Term} {argument : Term} (member : argument ∈ more) :
    (argument.text (indent + 1)).length ≤ (Term.moreText indent more).length := by
  induction more with
  | nil => cases member
  | cons next more ih =>
    simp only [Term.moreText, List.length_cons, List.length_append]
    rcases List.mem_cons.mp member with rfl | later
    · omega
    · have shorter := ih later
      omega

/-- An argument is shorter than the text of all arguments. -/
theorem length_text_lt_argumentsText (indent : Nat) {arguments : List Term} {argument : Term}
    (member : argument ∈ arguments) :
    (argument.text (indent + 1)).length < (Term.argumentsText indent arguments).length := by
  cases arguments with
  | nil => cases member
  | cons first more =>
    simp only [Term.argumentsText, List.length_cons, List.length_append]
    rcases List.mem_cons.mp member with rfl | later
    · omega
    · have shorter := length_text_le_moreText indent later
      omega

theorem readFrom_construct {type : String} {arguments : List Term} (typed : IsWord alphabet type.toList)
    (each : ∀ argument ∈ arguments, argument.Legible alphabet) {fuel : Nat}
    (reads : ∀ argument ∈ arguments, ∀ rest, Stops rest →
      readFrom alphabet fuel (argument.text (indent + 1) ++ rest) = some (argument, rest))
    (enough : (Term.argumentsText indent arguments).length ≤ fuel) (rest : List Char) :
    readFrom alphabet (fuel + 1) (Term.text indent (.construct type arguments) ++ rest) =
      some (.construct type arguments, rest) := by
  rw [Term.text, readFrom_new typed]
  cases arguments with
  | nil => rfl
  | cons first more =>
    rw [List.forall_mem_cons] at each reads
    have few : more.length ≤ fuel := by
      have bound := length_le_moreText indent more
      simp only [Term.argumentsText, List.length_cons, List.length_append] at enough
      omega
    have here := reads.1 _ (stops_moreText indent more rest)
    have later := readMore_text each.2 reads.2 few rest
    simp only [Term.argumentsText, List.cons_append, List.append_assoc, readArguments, skipTabs_text each.1, here,
      Option.bind_eq_bind, Option.bind_some, later]
    rfl

end

theorem length_newText (type : String) (arguments : List Char) :
    (newText type arguments).length = type.toList.length + arguments.length + 6 := by
  have new : "new".toList.length = 3 := rfl
  simp only [newText, List.length_append, List.length_cons, List.length_nil, new]
  omega

/-- The reader gets an expression back from its text, on whatever line it stands, and stops where the text stops. -/
theorem Term.Legible.readFrom_text {term : Term} (legible : term.Legible alphabet) (indent : Nat) {fuel : Nat}
    (enough : (term.text indent).length ≤ fuel) {rest : List Char} (stops : Stops rest) :
    readFrom alphabet (fuel + 1) (term.text indent ++ rest) = some (term, rest) := by
  induction legible generalizing indent fuel rest with
  | parameter named => exact readFrom_parameter named stops
  | member typed named => exact readFrom_member typed named stops
  | constant named => exact readFrom_constant named
  | baseCall typed named => exact readFrom_baseCall typed named
  | literal typed inside => exact readFrom_literal typed inside
  | construct typed each ih =>
    rw [Term.text, length_newText] at enough
    refine readFrom_construct typed each ?_ (by omega) rest
    intro argument member rest stops
    have shorter := length_text_lt_argumentsText indent member
    obtain ⟨steps, rfl⟩ := Nat.exists_eq_add_one_of_ne_zero (n := fuel) (by omega)
    exact ih argument member (indent + 1) (by omega) stops
  | wrap typed legible ih =>
    rw [Term.text, length_newText] at enough
    obtain ⟨steps, rfl⟩ := Nat.exists_eq_add_one_of_ne_zero (n := fuel) (by omega)
    exact readFrom_wrap typed legible (ih indent (by omega) (.cons (by decide) rest))
  | unsupported inside => exact readFrom_null (by decide) inside (ofComment_unsupported _)
  | unbound inside => exact readFrom_null (by decide) inside (ofComment_unbound _)

theorem Term.Legible.read_text {term : Term} (legible : term.Legible alphabet) (indent : Nat) :
    Term.read alphabet (term.text indent) = some term := by
  have whole : readFrom alphabet ((term.text indent).length + 1) (term.text indent ++ []) = some (term, []) :=
    legible.readFrom_text indent (Nat.le_refl _) (by simp [Stops])
  rw [List.append_nil] at whole
  rw [Term.read, whole]

end TtcnTemplates.Java
