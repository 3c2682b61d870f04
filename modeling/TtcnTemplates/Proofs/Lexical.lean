import Mathlib.Tactic.SplitIfs
import TtcnTemplates.Text.Characters
import TtcnTemplates.Text.Writing

/-! # The lexical structure of Java

Java source is read in two passes. The first replaces Unicode escapes, wherever they stand (`translate`). The second
splits the text into tokens and drops white space and comments (`Java.run`). Texts that are inert in the first pass and
leave the second where it began can be put one after the other, and so do their tokens (`Complete`). A text that may end
inside a word has to be followed by a delimiter (`Spells`).
-/

namespace TtcnTemplates.Java

/-! ### Unicode escapes -/

/-- The value of a hexadecimal digit. -/
def hexDigit? (c : Char) : Option Nat :=
  if c.isDigit then some (c.toNat - '0'.toNat)
  else if 'a' ≤ c ∧ c ≤ 'f' then some (c.toNat - 'a'.toNat + 10)
  else if 'A' ≤ c ∧ c ≤ 'F' then some (c.toNat - 'A'.toNat + 10)
  else none

/-- What of a Unicode escape has been read. -/
inductive Escaping where
  | nothing
  /-- A backslash that no other backslash has used up. -/
  | backslash
  /-- A backslash, one or more `u`, and digits of the given number and value. -/
  | digits (count value : Nat)

/-- The text with its Unicode escapes replaced, after what has been read of one. A backslash uses up the character after
    it, so that only the first, the third and so on of several backslashes can begin an escape. An escape that is cut
    short, or that does not denote a character, is refused. -/
def translateFrom : Escaping → List Char → Option (List Char)
  | .nothing, [] => some []
  | .backslash, [] => some ['\\']
  | .digits _ _, [] => none
  | .nothing, c :: rest =>
    if c = '\\' then translateFrom .backslash rest
    else (translateFrom .nothing rest).map (c :: ·)
  | .backslash, c :: rest =>
    if c = 'u' then translateFrom (.digits 0 0) rest
    else (translateFrom .nothing rest).map (['\\', c] ++ ·)
  | .digits count value, c :: rest =>
    if count = 0 ∧ c = 'u' then translateFrom (.digits 0 0) rest
    else
      match hexDigit? c with
      | none => none
      | some digit =>
        if count < 3 then translateFrom (.digits (count + 1) (16 * value + digit)) rest
        else if (16 * value + digit).isValidChar then
          (translateFrom .nothing rest).map (Char.ofNat (16 * value + digit) :: ·)
        else none

/-- The text with its Unicode escapes replaced. -/
def translate (text : List Char) : Option (List Char) := translateFrom .nothing text

/-- A text in which, and in front of which, replacing Unicode escapes changes nothing. -/
def Inert (text : List Char) : Prop :=
  ∀ rest, translate (text ++ rest) = (translate rest).map (text ++ ·)

namespace Inert

theorem nil : Inert [] := by
  intro rest
  simp

theorem append {first second : List Char} (left : Inert first) (right : Inert second) : Inert (first ++ second) := by
  intro rest
  rw [List.append_assoc, left, right, Option.map_map]
  congr 1
  funext text
  simp

theorem char {c : Char} (plain : c ≠ '\\') : Inert [c] := by
  intro rest
  simp [translate, translateFrom, plain]

/-- A backslash that is not followed by a `u`. -/
theorem pair {c : Char} (other : c ≠ 'u') : Inert ['\\', c] := by
  intro rest
  simp [translate, translateFrom, other]

theorem of_forall {text : List Char} (plain : ∀ c ∈ text, c ≠ '\\') : Inert text := by
  induction text with
  | nil => exact .nil
  | cons c rest ih =>
    have plain := List.forall_mem_cons.mp plain
    exact (char plain.1).append (ih plain.2)

/-- What is inert has no Unicode escapes. -/
theorem translate_eq {text : List Char} (inert : Inert text) : translate text = some text := by
  have whole := inert []
  rwa [List.append_nil, show translate [] = some [] from rfl, Option.map_some, List.append_nil] at whole

end Inert

/-! ### Words -/

/-- The characters of white space. -/
def spaces : List Char := [' ', '\t', '\x0c', '\n', '\r']

/-- The characters that end a line. -/
def lineEnds : List Char := ['\n', '\r']

/-- The characters of separators and operators, apart from the solidus, which may begin a comment. An operator of several
    characters is read as several symbols. -/
def symbols : List Char :=
  ['(', ')', '\x7b', '\x7d', '[', ']', ';', ',', '.', '@', '=', '<', '>', '!', '~', '?', ':', '+', '-', '*', '&', '|',
    '^', '%']

/-- The characters that are in no word. -/
def delimiters : List Char := spaces ++ symbols ++ ['/', '"', '\'', '\\']

/-- Which characters begin an identifier, and which continue it. The letters of ASCII and the underscore do. -/
structure Alphabet where
  starts : Char → Bool
  continues : Char → Bool
  continues_of_starts {c : Char} : starts c = true → continues c = true
  starts_of_latin {c : Char} : c.isAlpha = true ∨ c = '_' → starts c = true
  delimiter {c : Char} : c ∈ delimiters → continues c = false

/-- Whether a text is an identifier. Keywords have the form of identifiers. -/
def Alphabet.isIdentifier (alphabet : Alphabet) (text : String) : Bool :=
  match text.toList with
  | [] => false
  | c :: rest => alphabet.starts c && rest.all alphabet.continues

/-- The alphabet that has nothing but the letters of ASCII and the underscore. -/
def Alphabet.latin : Alphabet where
  starts c := c.isAlpha || c == '_'
  continues c := c.isAlpha || c == '_'
  continues_of_starts := id
  starts_of_latin := by simp
  delimiter {c} member := by
    have none : delimiters.all (fun c => !(c.isAlpha || c == '_')) = true := by decide
    simpa using List.all_eq_true.mp none c member

/-- The alphabet of the names that a generated class may have. -/
def Alphabet.unicode : Alphabet where
  starts := Text.startsIdentifier
  continues := Text.continuesIdentifier
  continues_of_starts := Text.continuesIdentifier_of_starts
  starts_of_latin := by
    rintro c (letter | rfl)
    · exact Text.startsIdentifier_of_isAlpha letter
    · decide +kernel
  delimiter {c} member := by
    have none : delimiters.all (fun c => !Text.continuesIdentifier c) = true := by decide +kernel
    simpa using List.all_eq_true.mp none c member

/-- The names that every alphabet has. -/
theorem Alphabet.isIdentifier_of_latin (alphabet : Alphabet) {text : String}
    (latin : Alphabet.latin.isIdentifier text = true) : alphabet.isIdentifier text = true := by
  have starts (c : Char) (letter : Alphabet.latin.starts c = true) : alphabet.starts c = true :=
    alphabet.starts_of_latin (by simpa [Alphabet.latin] using letter)
  rw [Alphabet.isIdentifier] at latin ⊢
  split at latin
  · cases latin
  · simp only [Bool.and_eq_true, List.all_eq_true] at latin ⊢
    exact ⟨starts _ latin.1, fun c member => alphabet.continues_of_starts (starts c (latin.2 c member))⟩

/-! ### Tokens -/

/-- What source consists of, apart from white space and comments. -/
inductive Token where
  /-- An identifier, a keyword or a numeral. -/
  | word (text : List Char)
  /-- A string literal, with what stands between its quotes. -/
  | string (content : List Char)
  | symbol (c : Char)
deriving DecidableEq, Repr

/-- The token without the content of a string literal. -/
def Token.blank : Token → Token
  | .string _ => .string []
  | token => token

/-- Where a text is cut off. -/
inductive Mode where
  /-- Between tokens. -/
  | code
  | word (text : List Char)
  /-- After a solidus that may begin a comment. -/
  | slash
  | lineComment
  | blockComment
  /-- After an asterisk in a block comment. -/
  | star
  | string (content : List Char)
  /-- After a backslash in a string literal. -/
  | escape (content : List Char)
  /-- After two quotes. -/
  | empty
deriving DecidableEq, Repr

/-- The tokens of a text, as far as it has been read. -/
structure Lexer where
  mode : Mode := .code
  tokens : List Token := []
deriving DecidableEq, Repr

/-- The characters that can follow a backslash in a string literal. -/
def escapes : List Char :=
  ['b', 's', 't', 'n', 'f', 'r', '"', '\'', '\\', '0', '1', '2', '3', '4', '5', '6', '7']

/-- Reads a character between tokens. Character literals are refused. -/
def codeStep (alphabet : Alphabet) (tokens : List Token) (c : Char) : Option Lexer :=
  if alphabet.continues c then some ⟨.word [c], tokens⟩
  else if c ∈ spaces then some ⟨.code, tokens⟩
  else if c ∈ symbols then some ⟨.code, tokens ++ [.symbol c]⟩
  else if c = '/' then some ⟨.slash, tokens⟩
  else if c = '"' then some ⟨.string [], tokens⟩
  else none

/-- Reads a character. Text blocks, which begin with three quotes, are refused. -/
def step (alphabet : Alphabet) (lexer : Lexer) (c : Char) : Option Lexer :=
  let tokens := lexer.tokens
  match lexer.mode with
  | .code => codeStep alphabet tokens c
  | .word text =>
    if alphabet.continues c then some ⟨.word (text ++ [c]), tokens⟩
    else codeStep alphabet (tokens ++ [.word text]) c
  | .slash =>
    if c = '/' then some ⟨.lineComment, tokens⟩
    else if c = '*' then some ⟨.blockComment, tokens⟩
    else codeStep alphabet (tokens ++ [.symbol '/']) c
  | .lineComment => some ⟨if c ∈ lineEnds then .code else .lineComment, tokens⟩
  | .blockComment => some ⟨if c = '*' then .star else .blockComment, tokens⟩
  | .star => some ⟨if c = '/' then .code else if c = '*' then .star else .blockComment, tokens⟩
  | .string content =>
    if c = '"' then
      if content = [] then some ⟨.empty, tokens⟩ else some ⟨.code, tokens ++ [.string content]⟩
    else if c = '\\' then some ⟨.escape content, tokens⟩
    else if c ∈ lineEnds then none
    else some ⟨.string (content ++ [c]), tokens⟩
  | .escape content => if c ∈ escapes then some ⟨.string (content ++ ['\\', c]), tokens⟩ else none
  | .empty => if c = '"' then none else codeStep alphabet (tokens ++ [.string []]) c

/-- Reads a text. -/
def run (alphabet : Alphabet) (lexer : Lexer) (text : List Char) : Option Lexer := text.foldlM (step alphabet) lexer

/-- The tokens of a text that ends here. String literals and block comments have to be closed. -/
def Lexer.finish (lexer : Lexer) : Option (List Token) :=
  match lexer.mode with
  | .code => some lexer.tokens
  | .word text => some (lexer.tokens ++ [.word text])
  | .slash => some (lexer.tokens ++ [.symbol '/'])
  | .lineComment => some lexer.tokens
  | .empty => some (lexer.tokens ++ [.string []])
  | _ => none

/-- The tokens of a text. -/
def lex (alphabet : Alphabet) (text : List Char) : Option (List Token) := do
  let translated ← translate text
  let lexer ← run alphabet {} translated
  lexer.finish

/-- Parentheses and braces stand in pairs, one inside or after the other. -/
inductive Balanced : List Token → Prop
  | nil : Balanced []
  | token {token : Token} (other : token ∉ ['(', ')', '\x7b', '\x7d'].map Token.symbol) : Balanced [token]
  | append {first second : List Token} (left : Balanced first) (right : Balanced second) : Balanced (first ++ second)
  | parentheses {inner : List Token} (inside : Balanced inner) : Balanced (.symbol '(' :: inner ++ [.symbol ')'])
  | braces {inner : List Token} (inside : Balanced inner) : Balanced (.symbol '\x7b' :: inner ++ [.symbol '\x7d'])

/-! ### Reading a text in parts -/

variable {alphabet : Alphabet}

@[simp] theorem run_nil (lexer : Lexer) : run alphabet lexer [] = some lexer := rfl

theorem run_cons (lexer : Lexer) (c : Char) (rest : List Char) :
    run alphabet lexer (c :: rest) = (step alphabet lexer c).bind fun next => run alphabet next rest := rfl

theorem run_append (lexer : Lexer) (first second : List Char) :
    run alphabet lexer (first ++ second) = (run alphabet lexer first).bind fun next => run alphabet next second :=
  List.foldlM_append

/-- The same lexer after a text with the given tokens. -/
def Lexer.after (before : List Token) (lexer : Lexer) : Lexer := { lexer with tokens := before ++ lexer.tokens }

theorem codeStep_after (before tokens : List Token) (c : Char) :
    codeStep alphabet (before ++ tokens) c = (codeStep alphabet tokens c).map (Lexer.after before) := by
  unfold codeStep
  split_ifs <;> simp [Lexer.after]

/-- What has been read has no influence on what is read next, apart from where it stopped. -/
theorem step_after (before : List Token) (lexer : Lexer) (c : Char) :
    step alphabet (lexer.after before) c = (step alphabet lexer c).map (Lexer.after before) := by
  obtain ⟨mode, tokens⟩ := lexer
  cases mode with
  | code => exact codeStep_after before tokens c
  | _ =>
    simp only [step, Lexer.after, List.append_assoc, codeStep_after]
    try split_ifs
    all_goals simp [Lexer.after]

theorem run_after (before : List Token) (lexer : Lexer) (text : List Char) :
    run alphabet (lexer.after before) text = (run alphabet lexer text).map (Lexer.after before) := by
  induction text generalizing lexer with
  | nil => rfl
  | cons c rest ih =>
    rw [run_cons, run_cons, step_after]
    cases step alphabet lexer c with
    | none => rfl
    | some next => exact ih next

/-- The tokens of a text that is not inside a comment or a string literal. -/
def Lexer.settled (lexer : Lexer) : Option (List Token) :=
  match lexer.mode with
  | .code => some lexer.tokens
  | .word text => some (lexer.tokens ++ [.word text])
  | _ => none

theorem Lexer.settled_after (before : List Token) {lexer : Lexer} {tokens : List Token}
    (settled : lexer.settled = some tokens) : (lexer.after before).settled = some (before ++ tokens) := by
  obtain ⟨mode, tokens'⟩ := lexer
  cases mode with
  | code => cases settled; rfl
  | word text =>
    cases settled
    simp [Lexer.settled, Lexer.after]
  | _ => cases settled

theorem step_of_settled {lexer : Lexer} {tokens : List Token} (settled : lexer.settled = some tokens) {c : Char}
    (stop : c ∈ delimiters) : step alphabet lexer c = step alphabet ⟨.code, tokens⟩ c := by
  obtain ⟨mode, before⟩ := lexer
  cases mode with
  | code => cases settled; rfl
  | word text =>
    cases settled
    simp [step, alphabet.delimiter stop]
  | _ => cases settled

/-- A text that is read as the given tokens, whatever follows it. -/
structure Complete (alphabet : Alphabet) (text : List Char) (tokens : List Token) : Prop where
  inert : Inert text
  reads : run alphabet {} text = some ⟨.code, tokens⟩

/-- A text that is read as the given tokens if a delimiter follows it. -/
structure Spells (alphabet : Alphabet) (text : List Char) (tokens : List Token) : Prop where
  inert : Inert text
  reads : ∃ lexer, run alphabet {} text = some lexer ∧ lexer.settled = some tokens

/-- Whether a text begins with a delimiter. -/
def opensDelimited (text : List Char) : Bool := text.head?.any fun c => c ∈ delimiters

theorem opensDelimited_append {first : List Char} (opens : opensDelimited first = true) (second : List Char) :
    opensDelimited (first ++ second) = true := by
  cases first with
  | nil => cases opens
  | cons c rest => exact opens

variable {first second : List Char} {before after : List Token}

theorem Complete.nil : Complete alphabet [] [] := ⟨.nil, rfl⟩

theorem Complete.spells {text : List Char} {tokens : List Token} (complete : Complete alphabet text tokens) :
    Spells alphabet text tokens :=
  ⟨complete.inert, _, complete.reads, rfl⟩

theorem Complete.run_append (left : Complete alphabet first before) (second : List Char) :
    run alphabet {} (first ++ second) = (run alphabet {} second).map (Lexer.after before) := by
  rw [Java.run_append, left.reads, ← run_after]
  simp [Lexer.after]

/-- A delimiter is read as if the text before it were complete. -/
theorem Spells.run_append (left : Spells alphabet first before) (stop : opensDelimited second = true) :
    run alphabet {} (first ++ second) = (run alphabet {} second).map (Lexer.after before) := by
  obtain ⟨lexer, reads, settled⟩ := left.reads
  cases second with
  | nil => cases stop
  | cons c rest =>
    have stop : c ∈ delimiters := by simpa [opensDelimited] using stop
    rw [Java.run_append, reads, ← run_after, Option.bind_some, run_cons, run_cons, step_of_settled settled stop]
    simp [Lexer.after]

theorem Complete.append (left : Complete alphabet first before) (right : Complete alphabet second after) :
    Complete alphabet (first ++ second) (before ++ after) := by
  refine ⟨left.inert.append right.inert, ?_⟩
  rw [left.run_append, right.reads]
  rfl

theorem Complete.append_spells (left : Complete alphabet first before) (right : Spells alphabet second after) :
    Spells alphabet (first ++ second) (before ++ after) := by
  obtain ⟨lexer, reads, settled⟩ := right.reads
  refine ⟨left.inert.append right.inert, lexer.after before, ?_, ?_⟩
  · rw [left.run_append, reads]
    rfl
  · exact Lexer.settled_after before settled

theorem Spells.append (left : Spells alphabet first before) (right : Complete alphabet second after)
    (stop : opensDelimited second = true) : Complete alphabet (first ++ second) (before ++ after) := by
  refine ⟨left.inert.append right.inert, ?_⟩
  rw [left.run_append stop, right.reads]
  rfl

theorem Spells.append_spells (left : Spells alphabet first before) (right : Spells alphabet second after)
    (stop : opensDelimited second = true) : Spells alphabet (first ++ second) (before ++ after) := by
  obtain ⟨lexer, reads, settled⟩ := right.reads
  refine ⟨left.inert.append right.inert, lexer.after before, ?_, ?_⟩
  · rw [left.run_append stop, reads]
    rfl
  · exact Lexer.settled_after before settled

theorem Complete.lex_eq {text : List Char} {tokens : List Token} (complete : Complete alphabet text tokens) :
    lex alphabet text = some tokens := by
  rw [lex, complete.inert.translate_eq, Option.bind_eq_bind, Option.bind_some, complete.reads]
  rfl

/-! ### Fixed texts -/

/-- Whether every alphabet has the character at the same places, and Unicode escapes do not begin with it. -/
def isPlain (c : Char) : Bool := (Alphabet.latin.continues c || c ∈ delimiters) && c != '\\'

theorem continues_of_plain {c : Char} (plain : isPlain c = true) :
    alphabet.continues c = Alphabet.latin.continues c := by
  simp only [isPlain, Bool.and_eq_true, Bool.or_eq_true, decide_eq_true_eq] at plain
  rcases plain.1 with letter | delimiter
  · rw [letter]
    exact alphabet.continues_of_starts (alphabet.starts_of_latin (by simpa [Alphabet.latin] using letter))
  · rw [alphabet.delimiter delimiter, Alphabet.latin.delimiter delimiter]

theorem step_of_plain {c : Char} (plain : isPlain c = true) (lexer : Lexer) :
    step alphabet lexer c = step .latin lexer c := by
  simp only [step, codeStep, continues_of_plain plain]

theorem run_of_plain {text : List Char} (plain : text.all isPlain = true) (lexer : Lexer) :
    run alphabet lexer text = run .latin lexer text := by
  induction text generalizing lexer with
  | nil => rfl
  | cons c rest ih =>
    rw [List.all_cons, Bool.and_eq_true] at plain
    rw [run_cons, run_cons, step_of_plain plain.1]
    congr 1
    funext next
    exact ih plain.2 next

theorem Inert.of_plain {text : List Char} (plain : text.all isPlain = true) : Inert text := by
  apply Inert.of_forall
  rintro c member rfl
  exact absurd (List.all_eq_true.mp plain _ member) (by decide)

/-- A fixed text is read by every alphabet as by the smallest one. -/
theorem Complete.of_plain {text : List Char} {tokens : List Token}
    (reads : text.all isPlain = true ∧ run .latin {} text = some ⟨.code, tokens⟩) : Complete alphabet text tokens :=
  ⟨.of_plain reads.1, (run_of_plain reads.1 {}).trans reads.2⟩

theorem Spells.of_plain {text : List Char} {tokens : List Token}
    (reads : text.all isPlain = true ∧ (run .latin {} text).bind Lexer.settled = some tokens) :
    Spells alphabet text tokens := by
  obtain ⟨lexer, read, settled⟩ := Option.bind_eq_some_iff.mp reads.2
  exact ⟨.of_plain reads.1, lexer, (run_of_plain reads.1 {}).trans read, settled⟩

/-! ### Identifiers -/

theorem run_word {text : List Char} (inside : ∀ c ∈ text, alphabet.continues c = true) (start : List Char)
    (tokens : List Token) : run alphabet ⟨.word start, tokens⟩ text = some ⟨.word (start ++ text), tokens⟩ := by
  induction text generalizing start with
  | nil => simp
  | cons c rest ih =>
    have inside := List.forall_mem_cons.mp inside
    rw [run_cons]
    simp only [step, inside.1, if_true, Option.bind_some, ih inside.2, List.append_assoc, List.singleton_append]

/-- The characters of a word. -/
structure IsWord (alphabet : Alphabet) (text : List Char) : Prop where
  nonempty : text ≠ []
  continues : ∀ c ∈ text, alphabet.continues c = true

theorem IsWord.append {first second : List Char} (left : IsWord alphabet first) (right : IsWord alphabet second) :
    IsWord alphabet (first ++ second) :=
  ⟨by simp [left.nonempty], by simpa [or_imp, forall_and] using ⟨left.continues, right.continues⟩⟩

theorem IsWord.not_mem {text : List Char} (isWord : IsWord alphabet text) {c : Char} (delimiter : c ∈ delimiters) :
    c ∉ text := by
  intro member
  have continues := isWord.continues c member
  rw [alphabet.delimiter delimiter] at continues
  cases continues

theorem IsWord.spells {text : List Char} (isWord : IsWord alphabet text) : Spells alphabet text [.word text] := by
  have inert : Inert text := .of_forall fun c member equal => isWord.not_mem (by decide) (equal ▸ member)
  refine ⟨inert, ⟨.word text, []⟩, ?_, rfl⟩
  obtain ⟨nonempty, continues⟩ := isWord
  cases text with
  | nil => exact absurd rfl nonempty
  | cons c rest =>
    have continues := List.forall_mem_cons.mp continues
    rw [run_cons]
    simp only [step, codeStep, continues.1, if_true, Option.bind_some]
    exact run_word continues.2 [c] []

theorem isWord_of_isIdentifier {name : String} (identifier : alphabet.isIdentifier name = true) :
    IsWord alphabet name.toList := by
  rw [Alphabet.isIdentifier] at identifier
  split at identifier
  · cases identifier
  · rename_i c rest chars
    rw [Bool.and_eq_true, List.all_eq_true] at identifier
    rw [chars]
    exact ⟨nofun, List.forall_mem_cons.mpr ⟨alphabet.continues_of_starts identifier.1, identifier.2⟩⟩

/-! ### String literals -/

/-- A text that stays as it is between the quotes of a string literal. -/
structure InString (text : List Char) : Prop where
  inert : Inert text
  reads (alphabet : Alphabet) (content : List Char) (tokens : List Token) :
    run alphabet ⟨.string content, tokens⟩ text = some ⟨.string (content ++ text), tokens⟩

namespace InString

theorem nil : InString [] := ⟨.nil, by simp⟩

theorem append {first second : List Char} (left : InString first) (right : InString second) :
    InString (first ++ second) := by
  refine ⟨left.inert.append right.inert, ?_⟩
  intro alphabet content tokens
  rw [run_append, left.reads, Option.bind_some, right.reads, List.append_assoc]

theorem char {c : Char} (plain : c ∉ ['"', '\\', '\n', '\r']) : InString [c] := by
  simp only [List.mem_cons, List.not_mem_nil, or_false, not_or] at plain
  obtain ⟨quote, backslash, newline, carriage⟩ := plain
  refine ⟨.char backslash, ?_⟩
  intro alphabet content tokens
  simp [run_cons, step, quote, backslash, lineEnds, newline, carriage]

theorem escape {c : Char} (valid : c ∈ escapes) : InString ['\\', c] := by
  have other : c ≠ 'u' := by
    rintro rfl
    exact absurd valid (by decide)
  refine ⟨.pair other, ?_⟩
  intro alphabet content tokens
  simp [run_cons, step, lineEnds, valid]

theorem flatMap {write : Char → List Char} (each : ∀ c, InString (write c)) (text : List Char) :
    InString (text.flatMap write) := by
  induction text with
  | nil => exact nil
  | cons c rest ih =>
    rw [List.flatMap_cons]
    exact (each c).append ih

theorem of_forall {text : List Char} (plain : ∀ c ∈ text, c ∉ ['"', '\\', '\n', '\r']) : InString text := by
  induction text with
  | nil => exact nil
  | cons c rest ih =>
    have plain := List.forall_mem_cons.mp plain
    exact (char plain.1).append (ih plain.2)

theorem stringChar (c : Char) : InString (Text.stringChar c) := by
  unfold Text.stringChar
  split
  · exact escape (by decide)
  · exact escape (by decide)
  · exact escape (by decide)
  · exact escape (by decide)
  · exact escape (by decide)
  · exact char (by simp_all)

/-- Any text can stand in a string literal once it is escaped. -/
theorem escapeString (text : String) : InString (Text.escapeString text).toList := by
  rw [Text.escapeString, String.toList_ofList]
  exact flatMap stringChar _

/-- A string literal between parentheses. -/
theorem complete {text : List Char} (inside : InString text) :
    Complete alphabet (['(', '"'] ++ text ++ ['"', ')']) [.symbol '(', .string text, .symbol ')'] := by
  have opened : run alphabet {} ['(', '"'] = some ⟨.string [], [.symbol '(']⟩ := run_of_plain (by decide) {}
  refine ⟨((Inert.of_plain (by decide)).append inside.inert).append (.of_plain (by decide)), ?_⟩
  rw [run_append, run_append, opened, Option.bind_some, inside.reads, Option.bind_some, List.nil_append]
  -- A quote after nothing might begin a text block, so the two cases close the literal at different characters.
  have parenthesis : alphabet.continues ')' = false := alphabet.delimiter (by decide)
  cases text with
  | nil => simp [run_cons, step, codeStep, parenthesis, spaces, Java.symbols]
  | cons c rest => simp [run_cons, step, codeStep, parenthesis, spaces, Java.symbols]

end InString

/-! ### Comments -/

theorem toList_escapeComment (text : String) : (Text.escapeComment text).toList = Text.commentChars text.toList :=
  String.toList_ofList

theorem inert_commentChars (text : List Char) : Inert (Text.commentChars text) := by
  induction text using Text.commentChars.induct with
  | case1 => exact .nil
  | case2 rest ih => exact (Inert.of_plain (by decide) : Inert ['*', ' ', '/']).append ih
  | case3 rest ih => exact (Inert.pair (by decide)).append ih
  | case4 rest ih => exact (Inert.pair (by decide)).append ih
  | case5 rest ih => exact (Inert.pair (by decide)).append ih
  | case6 c rest _ backslash _ _ ih =>
    rw [Text.commentChars]
    · exact (Inert.char backslash).append ih
    all_goals assumption

/-- Escaped text does not end the line. -/
theorem not_mem_commentChars {c : Char} (ends : c ∈ lineEnds) (text : List Char) : c ∉ Text.commentChars text := by
  induction text using Text.commentChars.induct with
  | case1 => exact List.not_mem_nil
  | case6 c' rest _ _ carriage newline ih =>
    rw [Text.commentChars]
    · rintro (_ | ⟨_, later⟩)
      · simp only [lineEnds, List.mem_cons, List.not_mem_nil, or_false] at ends
        exact ends.elim newline carriage
      · exact ih later
    all_goals assumption
  | _ =>
    rename_i rest ih
    rw [Text.commentChars]
    simp only [lineEnds, List.mem_cons, List.not_mem_nil, or_false] at ends
    rcases ends with rfl | rfl <;> simp [ih]

theorem run_lineComment {text : List Char} (unbroken : ∀ c ∈ lineEnds, c ∉ text) (tokens : List Token) :
    run alphabet ⟨.lineComment, tokens⟩ text = some ⟨.lineComment, tokens⟩ := by
  induction text with
  | nil => rfl
  | cons c rest ih =>
    have inside : c ∉ lineEnds := fun ends => unbroken c ends (List.mem_cons_self ..)
    rw [run_cons]
    simp only [step, inside, if_false, Option.bind_some]
    exact ih fun c' ends member => unbroken c' ends (List.mem_cons_of_mem c member)

theorem run_blockComment {text : List Char} (plain : '*' ∉ text) (tokens : List Token) :
    run alphabet ⟨.blockComment, tokens⟩ text = some ⟨.blockComment, tokens⟩ := by
  induction text with
  | nil => rfl
  | cons c rest ih =>
    rw [List.mem_cons, not_or] at plain
    rw [run_cons]
    simp only [step, Ne.symm plain.1, if_false, Option.bind_some]
    exact ih plain.2

/-- A block comment goes on through escaped text. An asterisk at its end is not yet the end of the comment. -/
theorem run_commentChars (text : List Char) (tokens : List Token) (mode : Mode)
    (inside : mode = .blockComment ∨ mode = .star ∧ text.head? ≠ some '/') :
    ∃ mode', (mode' = .blockComment ∨ mode' = .star) ∧
      run alphabet ⟨mode, tokens⟩ (Text.commentChars text) = some ⟨mode', tokens⟩ := by
  induction text using Text.commentChars.induct generalizing mode with
  | case1 => exact ⟨mode, inside.imp_right And.left, rfl⟩
  | case6 c rest ending _ _ _ ih =>
    have next : ∃ mode', (mode' = .blockComment ∨ mode' = .star ∧ rest.head? ≠ some '/') ∧
        step alphabet ⟨mode, tokens⟩ c = some ⟨mode', tokens⟩ := by
      by_cases asterisk : c = '*'
      · subst asterisk
        refine ⟨.star, .inr ⟨rfl, ?_⟩, ?_⟩
        · intro slash
          obtain ⟨rest', rfl⟩ := List.head?_eq_some_iff.mp slash
          exact ending rest' rfl rfl
        · rcases inside with rfl | ⟨rfl, -⟩ <;> rfl
      · refine ⟨.blockComment, .inl rfl, ?_⟩
        rcases inside with rfl | ⟨rfl, slash⟩
        · simp [step, asterisk]
        · have slash : c ≠ '/' := by simpa using slash
          simp [step, asterisk, slash]
    obtain ⟨mode', inside', read⟩ := next
    rw [Text.commentChars, run_cons, read]
    · exact ih mode' inside'
    all_goals assumption
  | _ =>
    rename_i rest ih
    obtain ⟨mode', inside', read⟩ := ih .blockComment (.inl rfl)
    refine ⟨mode', inside', ?_⟩
    rw [Text.commentChars, ← read]
    rcases inside with rfl | ⟨rfl, -⟩ <;> rfl

/-- A comment to the end of the line, with any text once it is escaped. -/
theorem Complete.lineComment (text : String) :
    Complete alphabet ("// ".toList ++ ((Text.escapeComment text).toList ++ "\n".toList)) [] := by
  rw [toList_escapeComment]
  have start : Inert "// ".toList := .of_plain (by decide)
  have stop : Inert "\n".toList := .of_plain (by decide)
  have opened : run alphabet {} "// ".toList = some ⟨.lineComment, []⟩ := run_of_plain (by decide) {}
  have unbroken (c : Char) (ends : c ∈ lineEnds) := not_mem_commentChars ends text.toList
  have closed : run alphabet ⟨.lineComment, []⟩ "\n".toList = some ⟨.code, []⟩ := run_of_plain (by decide) _
  refine ⟨start.append ((inert_commentChars text.toList).append stop), ?_⟩
  rw [Java.run_append, opened, Option.bind_some, Java.run_append, run_lineComment unbroken, Option.bind_some, closed]

/-- A comment that begins with a fixed text, followed by any text once it is escaped. -/
theorem Complete.blockComment {lead : List Char} (asterisk : '*' ∉ lead) (backslash : '\\' ∉ lead) (text : String) :
    Complete alphabet ("/*".toList ++ (lead ++ ((Text.escapeComment text).toList ++ " */".toList))) [] := by
  rw [toList_escapeComment]
  have start : Inert "/*".toList := .of_plain (by decide)
  have inert : Inert lead := .of_forall fun c member equal => backslash (equal ▸ member)
  have stop : Inert " */".toList := .of_plain (by decide)
  have opened : run alphabet {} "/*".toList = some ⟨.blockComment, []⟩ := run_of_plain (by decide) {}
  have read : ∃ mode, (mode = .blockComment ∨ mode = .star) ∧
      run alphabet ⟨.blockComment, []⟩ (Text.commentChars text.toList) = some ⟨mode, []⟩ :=
    run_commentChars text.toList [] .blockComment (.inl rfl)
  obtain ⟨mode, inside, read⟩ := read
  have closed : run alphabet ⟨mode, []⟩ " */".toList = some ⟨.code, []⟩ := by
    rw [run_of_plain (by decide)]
    rcases inside with rfl | rfl <;> decide
  refine ⟨start.append (inert.append ((inert_commentChars text.toList).append stop)), ?_⟩
  rw [Java.run_append, opened, Option.bind_some, Java.run_append, run_blockComment asterisk, Option.bind_some,
    Java.run_append, read, Option.bind_some, closed]

end TtcnTemplates.Java
