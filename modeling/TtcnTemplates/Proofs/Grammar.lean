import Mathlib.Data.List.Basic
import Mathlib.Data.List.Induction
import Mathlib.Data.Nat.Digits.Defs
import TtcnTemplates.Compiler.Body

/-! # The grammar of literals

What token denotes what literal, said without readers and without an order in which they are tried (`Denotes`). The
readers accept exactly this grammar. The first reader that takes anything off the front of a token decides, so what has
to be shown is that it never hides a reader that would take the whole token: after an optional minus, the first
character of a token tells keywords, numbers, character strings and strings of digits apart (`lead`).
-/

namespace TtcnTemplates

/-! ### White space around a token -/

namespace Text

/-- The token in a text: white space stands before and after it, but not at its own start or end. -/
structure Strips (text token : List Char) : Prop where
  around : ∃ before after, text = before ++ token ++ after ∧ (∀ c ∈ before, isBlank c = true) ∧
    ∀ c ∈ after, isBlank c = true
  starts : ∀ c ∈ token.head?, isBlank c = false
  ends : ∀ c ∈ token.getLast?, isBlank c = false

/-- A run of characters of some kind ends where the first character of another kind stands. -/
theorem dropWhile_run {kind : Char → Bool} {run rest : List Char} (inside : ∀ c ∈ run, kind c = true)
    (stops : ∀ c ∈ rest.head?, kind c = false) : (run ++ rest).dropWhile kind = rest := by
  rw [List.dropWhile_append_of_pos inside]
  cases rest with
  | nil => rfl
  | cons c rest => simp [stops c rfl]

theorem takeWhile_run {kind : Char → Bool} {run rest : List Char} (inside : ∀ c ∈ run, kind c = true)
    (stops : ∀ c ∈ rest.head?, kind c = false) : (run ++ rest).takeWhile kind = run := by
  rw [List.takeWhile_append_of_pos inside]
  cases rest with
  | nil => simp
  | cons c rest => simp [stops c rfl]

theorem exists_dropWhile_blank (text : List Char) :
    ∃ before, text = before ++ text.dropWhile isBlank ∧ (∀ c ∈ before, isBlank c = true) ∧
      ∀ c ∈ (text.dropWhile isBlank).head?, isBlank c = false := by
  refine ⟨text.takeWhile isBlank, List.takeWhile_append_dropWhile.symm, ?_, ?_⟩
  · intro c member
    exact List.all_eq_true.mp List.all_takeWhile c member
  · intro c first
    have stops := List.head?_dropWhile_not isBlank text
    rw [Option.mem_def.mp first] at stops
    simpa using stops

/-- Exactly one token is left when the white space is taken off both ends. -/
theorem strips_iff {text token : List Char} : Strips text token ↔ trim text = token := by
  constructor
  · rintro ⟨⟨before, after, rfl, blankBefore, blankAfter⟩, starts, ends⟩
    have reversed : ∀ c ∈ after.reverse, isBlank c = true := by simpa using blankAfter
    have dropped : (token ++ after).reverse.dropWhile isBlank = token.reverse := by
      rw [List.reverse_append]
      exact dropWhile_run reversed (by simpa using ends)
    rw [trim, List.append_assoc, List.dropWhile_append_of_pos blankBefore]
    cases token with
    | nil =>
      have empty : (after ++ []).dropWhile isBlank = [] := dropWhile_run blankAfter (by simp)
      rw [List.append_nil] at empty
      simp [empty]
    | cons c rest =>
      have kept : (c :: rest ++ after).dropWhile isBlank = c :: rest ++ after := by simp [starts c rfl]
      rw [kept, dropped, List.reverse_reverse]
  · rintro rfl
    obtain ⟨before, split, blankBefore, starts⟩ := exists_dropWhile_blank text
    obtain ⟨after, split', blankAfter, ends⟩ := exists_dropWhile_blank (text.dropWhile isBlank).reverse
    have whole : text.dropWhile isBlank = trim text ++ after.reverse := by
      rw [trim, ← List.reverse_append, ← split', List.reverse_reverse]
    refine ⟨⟨before, after.reverse, ?_, blankBefore, ?_⟩, ?_, ?_⟩
    · rw [List.append_assoc, ← whole]
      exact split
    · simpa using blankAfter
    · intro c first
      refine starts c ?_
      rw [whole]
      simp only [List.head?_append, Option.mem_def] at first ⊢
      simp [first]
    · simpa [trim] using ends

end Text

namespace Literal

/-! ### The grammar -/

/-- The words that are literals. -/
def keywords : List (String × Literal) :=
  [("true", .boolean true), ("false", .boolean false), ("omit", .omit), ("pass", .verdict .pass),
    ("fail", .verdict .fail), ("inconc", .verdict .inconclusive), ("none", .verdict .none), ("error", .verdict .error),
    ("infinity", .specialFloat .infinity), ("-infinity", .specialFloat .minusInfinity),
    ("not_a_number", .specialFloat .notANumber)]

/-- The decimal digits. -/
def decimalDigits : List Char := "0123456789".toList

/-- The hexadecimal digits. -/
def hexDigits : List Char := "0123456789abcdefABCDEF".toList

/-- One or more decimal digits. -/
def IsDigits (text : List Char) : Prop := text ≠ [] ∧ ∀ c ∈ text, c ∈ decimalDigits

/-- The number that decimal digits denote, the last one being the units. -/
def placeValue (digits : List Char) : Nat := Nat.ofDigits 10 (digits.reverse.map fun c => c.toNat - '0'.toNat)

/-- An exponent: its letter, an optional sign and digits. -/
inductive IsExponent : List Char → Prop
  | mk {letter : Char} {sign digits : List Char} (isLetter : letter = 'e' ∨ letter = 'E')
      (isSign : sign = [] ∨ sign = ['+'] ∨ sign = ['-']) (isDigits : IsDigits digits) :
      IsExponent (letter :: (sign ++ digits))

/-- What makes digits a float: a point with digits and an optional exponent after it, or an exponent. -/
inductive IsTail : List Char → Prop
  | point {digits : List Char} (isDigits : IsDigits digits) : IsTail ('.' :: digits)
  | pointExponent {digits exponent : List Char} (isDigits : IsDigits digits) (isExponent : IsExponent exponent) :
      IsTail ('.' :: (digits ++ exponent))
  | exponent {exponent : List Char} (isExponent : IsExponent exponent) : IsTail exponent

/-- A text with every quote doubled. -/
def doubled : List Char → List Char
  | [] => []
  | c :: rest => if c = '"' then '"' :: '"' :: doubled rest else c :: doubled rest

/-- A text between quotes, with every quote in it doubled. -/
def quoted (text : List Char) : List Char := '"' :: (doubled text ++ ['"'])

/-- Digits between apostrophes, with the letter of their kind at the end. -/
def digitString (digits : String) (letter : Char) : List Char := '\'' :: (digits.toList ++ ['\'', letter])

/-- What a token denotes. -/
inductive Denotes : List Char → Literal → Prop
  | keyword {word : String} {literal : Literal} (member : (word, literal) ∈ keywords) : Denotes word.toList literal
  | integer {digits : List Char} (isDigits : IsDigits digits) : Denotes digits (.integer (placeValue digits))
  | negative {digits : List Char} (isDigits : IsDigits digits) : Denotes ('-' :: digits) (.integer (-placeValue digits))
  | real {sign digits tail : List Char} (isSign : sign = [] ∨ sign = ['-']) (isDigits : IsDigits digits)
      (isTail : IsTail tail) : Denotes (sign ++ (digits ++ tail)) (.real (String.ofList (sign ++ (digits ++ tail))))
  | charString (text : String) : Denotes (quoted text.toList) (.charString text)
  | bitString {digits : String} (bits : ∀ c ∈ digits.toList, c = '0' ∨ c = '1') :
      Denotes (digitString digits 'B') (.bitString digits)
  | hexString {digits : String} (hex : ∀ c ∈ digits.toList, c ∈ hexDigits) :
      Denotes (digitString digits 'H') (.hexString digits)
  | octetString {digits : String} (hex : ∀ c ∈ digits.toList, c ∈ hexDigits) (pairs : digits.length % 2 = 0) :
      Denotes (digitString digits 'O') (.octetString digits)

/-! ### Characters -/

theorem mem_of_toNat {chars : List Char} {first last c : Char}
    (all : ∀ n < last.toNat + 1 - first.toNat, Char.ofNat (first.toNat + n) ∈ chars) (lower : first.toNat ≤ c.toNat)
    (upper : c.toNat ≤ last.toNat) : c ∈ chars := by
  have member := all (c.toNat - first.toNat) (by omega)
  rwa [Nat.add_sub_cancel' lower, Char.ofNat_toNat] at member

theorem isDigit_iff {c : Char} : c.isDigit = true ↔ c ∈ decimalDigits := by
  constructor
  · intro digit
    rw [Char.isDigit_iff_toNat] at digit
    exact mem_of_toNat (by decide) digit.1 digit.2
  · intro member
    exact List.all_eq_true.mp (show decimalDigits.all Char.isDigit = true by decide) c member

theorem isHex_iff {c : Char} : isHex c = true ↔ c ∈ hexDigits := by
  constructor
  · intro hex
    simp only [isHex, Bool.or_eq_true, Bool.and_eq_true, decide_eq_true_eq, isDigit_iff] at hex
    rcases hex with (digit | ⟨lower, upper⟩) | ⟨lower, upper⟩
    · have all : decimalDigits.all hexDigits.contains = true := by decide
      exact List.contains_iff_mem.mp (List.all_eq_true.mp all c digit)
    · exact mem_of_toNat (by decide) lower upper
    · exact mem_of_toNat (by decide) lower upper
  · intro member
    exact List.all_eq_true.mp (show hexDigits.all isHex = true by decide) c member

theorem isBit_iff {c : Char} : isBit c = true ↔ c = '0' ∨ c = '1' := by
  simp [isBit]

theorem digitsValue_eq (digits : List Char) : digitsValue digits = placeValue digits := by
  induction digits using List.reverseRecOn with
  | nil => rfl
  | append_singleton rest c ih =>
    rw [digitsValue, List.foldl_append, ← digitsValue, ih]
    simp [placeValue, Nat.ofDigits_cons, Nat.add_comm]

/-! ### What the readers take -/

/-- A reader that gives back what it takes, and takes nothing but texts of the given kind. -/
def Reader.Keeps (kind : List Char → Prop) (reader : Reader (List Char)) : Prop :=
  ∀ cs text rest, reader cs = some (text, rest) → cs = text ++ rest ∧ kind text

/-- A reader that takes nothing but texts of the given kind, with what it makes of them. -/
def Reader.Takes {α : Type} (kind : List Char → α → Prop) (reader : Reader α) : Prop :=
  ∀ cs value rest, reader cs = some (value, rest) → ∃ taken, cs = taken ++ rest ∧ kind taken value

theorem readDigits_keeps : Reader.Keeps IsDigits readDigits := by
  intro cs digits rest read
  rw [readDigits] at read
  split at read
  · cases read
  · rename_i some
    cases read
    refine ⟨List.takeWhile_append_dropWhile.symm, some, ?_⟩
    intro c member
    exact isDigit_iff.mp (List.all_eq_true.mp List.all_takeWhile c member)

theorem readSign_keeps {signs cs sign rest : List Char} (read : readSign signs cs = (sign, rest)) :
    cs = sign ++ rest ∧ (sign = [] ∨ ∃ c ∈ signs, sign = [c]) := by
  cases cs with
  | nil =>
    cases read
    exact ⟨rfl, .inl rfl⟩
  | cons c cs =>
    rw [readSign] at read
    split at read
    · rename_i isSign
      cases read
      exact ⟨rfl, .inr ⟨c, List.contains_iff_mem.mp isSign, rfl⟩⟩
    · cases read
      exact ⟨rfl, .inl rfl⟩

theorem readExponent_keeps : Reader.Keeps IsExponent readExponent := by
  intro cs exponent rest read
  cases cs with
  | nil => cases read
  | cons letter cs =>
    rw [readExponent] at read
    split at read
    · rename_i isLetter
      generalize signed : readSign ['+', '-'] cs = pair at read
      obtain ⟨sign, after⟩ := pair
      obtain ⟨⟨digits, rest'⟩, found, made⟩ := Option.map_eq_some_iff.mp read
      cases made
      obtain ⟨rfl, isSign⟩ := readSign_keeps signed
      obtain ⟨rfl, isDigits⟩ := readDigits_keeps _ _ _ found
      exact ⟨by simp, .mk isLetter (by simpa using isSign) isDigits⟩
    · cases read

theorem readFraction_keeps : Reader.Keeps IsTail readFraction := by
  intro cs fraction rest read
  rw [readFraction.eq_def] at read
  split at read
  · obtain ⟨⟨digits, after⟩, found, made⟩ := Option.map_eq_some_iff.mp read
    obtain ⟨rfl, isDigits⟩ := readDigits_keeps _ _ _ found
    dsimp only at made
    split at made
    · rename_i found'
      cases made
      obtain ⟨rfl, isExponent⟩ := readExponent_keeps _ _ _ found'
      exact ⟨by simp, .pointExponent isDigits isExponent⟩
    · cases made
      exact ⟨rfl, .point isDigits⟩
  · cases read

theorem readReal_takes : Reader.Takes Denotes readReal := by
  intro cs literal rest read
  simp only [readReal] at read
  generalize signed : readSign ['-'] cs = pair at read
  obtain ⟨sign, after⟩ := pair
  obtain ⟨⟨digits, after'⟩, found, read⟩ := Option.bind_eq_some_iff.mp read
  obtain ⟨⟨tail, rest'⟩, followed, made⟩ := Option.map_eq_some_iff.mp read
  cases made
  obtain ⟨rfl, isSign⟩ := readSign_keeps signed
  obtain ⟨rfl, isDigits⟩ := readDigits_keeps _ _ _ found
  have kept : after' = tail ++ rest' ∧ IsTail tail := by
    rcases Option.or_eq_some_iff.mp followed with fraction | ⟨-, exponent⟩
    · exact readFraction_keeps _ _ _ fraction
    · obtain ⟨split, isExponent⟩ := readExponent_keeps _ _ _ exponent
      exact ⟨split, .exponent isExponent⟩
  obtain ⟨rfl, isTail⟩ := kept
  refine ⟨sign ++ (digits ++ tail), by simp, ?_⟩
  rw [List.append_assoc]
  exact .real (by simpa using isSign) isDigits isTail

theorem readInteger_takes : Reader.Takes Denotes readInteger := by
  intro cs literal rest read
  simp only [readInteger] at read
  generalize signed : readSign ['-'] cs = pair at read
  obtain ⟨sign, after⟩ := pair
  obtain ⟨⟨digits, after'⟩, found, made⟩ := Option.map_eq_some_iff.mp read
  cases made
  obtain ⟨rfl, isSign⟩ := readSign_keeps signed
  obtain ⟨rfl, isDigits⟩ := readDigits_keeps _ _ _ found
  refine ⟨sign ++ digits, by simp, ?_⟩
  rw [digitsValue_eq]
  rcases isSign with rfl | ⟨c, isMinus, rfl⟩
  · exact .integer isDigits
  · cases List.mem_singleton.mp isMinus
    exact .negative isDigits

theorem readQuoted_takes : Reader.Takes (fun taken text => taken = doubled text ++ ['"']) readQuoted := by
  intro cs
  induction cs using readQuoted.induct with
  | case1 =>
    intro text rest read
    cases read
  | case2 cs ih =>
    intro text rest read
    rw [readQuoted] at read
    obtain ⟨⟨text', rest'⟩, found, made⟩ := Option.map_eq_some_iff.mp read
    cases made
    obtain ⟨_, rfl, rfl⟩ := ih _ _ found
    exact ⟨'"' :: '"' :: (doubled text' ++ ['"']), rfl, by simp [doubled]⟩
  | case3 cs single =>
    intro text rest read
    rw [readQuoted] at read
    · cases read
      exact ⟨['"'], rfl, rfl⟩
    · exact single
  | case4 c cs _ other ih =>
    intro text rest read
    rw [readQuoted] at read
    · obtain ⟨⟨text', rest'⟩, found, made⟩ := Option.map_eq_some_iff.mp read
      cases made
      obtain ⟨_, rfl, rfl⟩ := ih _ _ found
      have other : c ≠ '"' := other
      exact ⟨c :: (doubled text' ++ ['"']), rfl, by simp [doubled, other]⟩
    all_goals assumption

theorem readCharString_takes : Reader.Takes Denotes readCharString := by
  intro cs literal rest read
  rw [readCharString.eq_def] at read
  split at read
  · obtain ⟨⟨text, rest'⟩, found, made⟩ := Option.map_eq_some_iff.mp read
    cases made
    obtain ⟨_, rfl, rfl⟩ := readQuoted_takes _ _ _ found
    refine ⟨quoted text, rfl, ?_⟩
    have denotes := Denotes.charString (String.ofList text)
    rwa [String.toList_ofList] at denotes
  · cases read

theorem readDigitString_takes (isDigit : Char → Bool) (letter : Char) :
    Reader.Takes (fun taken digits => taken = digitString digits letter ∧ ∀ c ∈ digits.toList, isDigit c = true)
      (readDigitString isDigit letter) := by
  intro cs digits rest read
  rw [readDigitString.eq_def] at read
  split at read
  · rename_i inner
    split at read
    · rename_i c after stopped
      split at read
      · rename_i isLetter
        cases read
        refine ⟨_, ?_, rfl, ?_⟩
        · have whole := List.takeWhile_append_dropWhile (p := isDigit) (l := inner)
          rw [stopped, isLetter] at whole
          simp [digitString, whole]
        · intro c member
          rw [String.toList_ofList] at member
          exact List.all_eq_true.mp List.all_takeWhile c member
      · cases read
    · cases read
  · cases read

theorem readWord_takes (word : String) (literal : Literal) :
    Reader.Takes (fun taken literal' => taken = word.toList ∧ literal' = literal) (readWord word literal) := by
  intro cs literal' rest read
  obtain ⟨rest', found, made⟩ := Option.map_eq_some_iff.mp read
  cases made
  exact ⟨word.toList, (List.append_eq_of_isPrefixOf?_eq_some found).symm, rfl, rfl⟩

theorem readFirst_takes {kind : List Char → Literal → Prop} {readers : List (Reader Literal)}
    (each : ∀ reader ∈ readers, reader.Takes kind) : Reader.Takes kind (readFirst readers) := by
  intro cs literal rest read
  obtain ⟨reader, member, found⟩ := List.exists_of_findSome?_eq_some read
  exact each reader member cs literal rest found

/-- The readers of keywords. -/
def wordReaders : List (Reader Literal) := [readBoolean, readOmit, readVerdict, readSpecialFloat]

theorem wordReaders_take {reader : Reader Literal} (member : reader ∈ wordReaders) :
    reader.Takes fun taken literal => ∃ word, taken = word.toList ∧ (word, literal) ∈ keywords := by
  have each {word : String} {literal : Literal} (known : (word, literal) ∈ keywords) :
      (readWord word literal).Takes fun taken literal => ∃ word, taken = word.toList ∧ (word, literal) ∈ keywords := by
    intro cs literal' rest read
    obtain ⟨taken, split, isWord, rfl⟩ := readWord_takes word literal cs literal' rest read
    exact ⟨taken, split, word, isWord, known⟩
  simp only [wordReaders, List.mem_cons, List.not_mem_nil, or_false] at member
  rcases member with rfl | rfl | rfl | rfl
  · refine readFirst_takes ?_
    simp only [List.forall_mem_cons]
    exact ⟨each (by decide), each (by decide), by simp⟩
  · exact each (by decide)
  · refine readFirst_takes (List.forall_mem_map.mpr ?_)
    intro verdict _
    exact each (by cases verdict <;> simp [keywords, Verdict.word])
  · refine readFirst_takes (List.forall_mem_map.mpr ?_)
    intro float _
    exact each (by cases float <;> simp [keywords, SpecialFloat.word])

/-- Whatever a reader takes off the front of a text is a token of the grammar, if strings of octets are left out that
    have half an octet. -/
theorem readers_take {reader : Reader Literal} (member : reader ∈ readers) :
    reader.Takes fun taken literal => literal.isWhole = true → Denotes taken literal := by
  have split : readers = wordReaders ++
      [readReal, readInteger, readCharString, readBitString, readHexString, readOctetString] := rfl
  have of_takes {reader : Reader Literal} (takes : reader.Takes Denotes) :
      reader.Takes fun taken literal => literal.isWhole = true → Denotes taken literal := by
    intro cs literal rest read
    obtain ⟨taken, split, denotes⟩ := takes cs literal rest read
    exact ⟨taken, split, fun _ => denotes⟩
  rw [split] at member
  simp only [List.mem_append, List.mem_cons, List.not_mem_nil, or_false] at member
  rcases member with isWord | rfl | rfl | rfl | rfl | rfl | rfl
  · refine of_takes ?_
    intro cs literal rest read
    obtain ⟨_, split, word, rfl, known⟩ := wordReaders_take isWord cs literal rest read
    exact ⟨word.toList, split, .keyword known⟩
  · exact of_takes readReal_takes
  · exact of_takes readInteger_takes
  · exact of_takes readCharString_takes
  · refine of_takes ?_
    intro cs literal rest read
    obtain ⟨⟨digits, rest'⟩, found, made⟩ := Option.map_eq_some_iff.mp read
    cases made
    obtain ⟨_, split, rfl, bits⟩ := readDigitString_takes _ _ _ _ _ found
    exact ⟨digitString digits 'B', split, .bitString fun c inside => isBit_iff.mp (bits c inside)⟩
  · refine of_takes ?_
    intro cs literal rest read
    obtain ⟨⟨digits, rest'⟩, found, made⟩ := Option.map_eq_some_iff.mp read
    cases made
    obtain ⟨_, split, rfl, hex⟩ := readDigitString_takes _ _ _ _ _ found
    exact ⟨digitString digits 'H', split, .hexString fun c inside => isHex_iff.mp (hex c inside)⟩
  · intro cs literal rest read
    obtain ⟨⟨digits, rest'⟩, found, made⟩ := Option.map_eq_some_iff.mp read
    cases made
    obtain ⟨_, split, rfl, hex⟩ := readDigitString_takes _ _ _ _ _ found
    refine ⟨digitString digits 'O', split, fun whole => ?_⟩
    exact .octetString (fun c inside => isHex_iff.mp (hex c inside)) (by simpa [isWhole] using whole)

/-- A token that a reader takes as a whole is in the grammar. -/
theorem denotes_of_read {reader : Reader Literal} (member : reader ∈ readers) {token : List Char} {literal : Literal}
    (read : reader token = some (literal, [])) (whole : literal.isWhole = true) : Denotes token literal := by
  obtain ⟨taken, split, denotes⟩ := readers_take member token literal [] read
  rw [split, List.append_nil]
  exact denotes whole

/-! ### What tells tokens apart -/

/-- The first character of a token after an optional minus. -/
def lead : List Char → Option Char
  | [] => none
  | c :: rest => if c = '-' then rest.head? else some c

theorem lead_append {token : List Char} {c : Char} (first : lead token = some c) (rest : List Char) :
    lead (token ++ rest) = some c := by
  cases token with
  | nil => cases first
  | cons c' token =>
    rw [List.cons_append, lead]
    rw [lead] at first
    split
    · rename_i isMinus
      rw [if_pos isMinus] at first
      rw [List.head?_append, first]
      rfl
    · rename_i other
      rwa [if_neg other] at first

theorem lead_keyword {word : String} {literal : Literal} (member : (word, literal) ∈ keywords) :
    ∃ c, lead word.toList = some c ∧ c.isAlpha = true := by
  have all : keywords.all (fun keyword => (lead keyword.1.toList).any Char.isAlpha) = true := by decide
  have letter := List.all_eq_true.mp all (word, literal) member
  exact (Option.any_eq_true _ _).mp letter

/-- Keywords begin with a letter. -/
theorem wordReaders_refuse {token : List Char} {c : Char} (first : lead token = some c) (other : c.isAlpha = false) :
    ∀ reader ∈ wordReaders, reader token = none := by
  intro reader member
  cases read : reader token with
  | none => rfl
  | some taken =>
    obtain ⟨literal, rest⟩ := taken
    obtain ⟨_, split, word, rfl, known⟩ := wordReaders_take member token literal rest read
    obtain ⟨c', first', letter⟩ := lead_keyword known
    rw [split, lead_append first' rest] at first
    cases first
    rw [other] at letter
    cases letter

/-- Numbers begin with a digit. -/
theorem readDigits_refuse {token : List Char} {c : Char} (first : lead token = some c) (other : c.isDigit = false) :
    readDigits (readSign ['-'] token).2 = none := by
  cases token with
  | nil => cases first
  | cons c' token =>
    rw [lead] at first
    split at first
    · rename_i isMinus
      obtain ⟨rest, rfl⟩ := List.head?_eq_some_iff.mp first
      simp [readSign, isMinus, readDigits, other]
    · rename_i notMinus
      cases first
      simp [readSign, notMinus, readDigits, other]

theorem readNumbers_refuse {token : List Char} {c : Char} (first : lead token = some c) (other : c.isDigit = false) :
    readReal token = none ∧ readInteger token = none := by
  simp [readReal, readInteger, readDigits_refuse first other]

/-! ### Reading a whole token -/

theorem IsDigits.head {digits : List Char} (isDigits : IsDigits digits) (rest : List Char) :
    ∃ c ∈ decimalDigits, (digits ++ rest).head? = some c := by
  obtain ⟨nonempty, inside⟩ := isDigits
  cases digits with
  | nil => exact absurd rfl nonempty
  | cons c digits => exact ⟨c, inside c List.mem_cons_self, rfl⟩

theorem IsExponent.head {exponent : List Char} (isExponent : IsExponent exponent) :
    ∀ c ∈ exponent.head?, c = 'e' ∨ c = 'E' := by
  obtain ⟨isLetter, -, -⟩ := isExponent
  simpa using isLetter

theorem IsTail.head {tail : List Char} (isTail : IsTail tail) : ∀ c ∈ tail.head?, c = '.' ∨ c = 'e' ∨ c = 'E' := by
  cases isTail with
  | point isDigits => simp
  | pointExponent isDigits isExponent => simp
  | exponent isExponent =>
    intro c first
    exact .inr (isExponent.head c first)

theorem readDigits_append {digits rest : List Char} (isDigits : IsDigits digits)
    (stops : ∀ c ∈ rest.head?, c ∉ decimalDigits) : readDigits (digits ++ rest) = some (digits, rest) := by
  have inside : ∀ c ∈ digits, c.isDigit = true := fun c member => isDigit_iff.mpr (isDigits.2 c member)
  have stops : ∀ c ∈ rest.head?, c.isDigit = false := by
    intro c first
    exact Bool.eq_false_iff.mpr fun digit => stops c first (isDigit_iff.mp digit)
  rw [readDigits, Text.takeWhile_run inside stops, Text.dropWhile_run inside stops]
  cases digits with
  | nil => exact absurd rfl isDigits.1
  | cons c digits => rfl

theorem readDigits_token {digits : List Char} (isDigits : IsDigits digits) : readDigits digits = some (digits, []) := by
  have read : readDigits (digits ++ []) = some (digits, []) := readDigits_append isDigits (by simp)
  rwa [List.append_nil] at read

/-- A sign is told from the digits after it. -/
theorem readSign_digits {signs : List Char} (apart : signs.any Char.isDigit = false) {sign digits : List Char}
    (isSign : sign = [] ∨ ∃ c ∈ signs, sign = [c]) (isDigits : IsDigits digits) (rest : List Char) :
    readSign signs (sign ++ (digits ++ rest)) = (sign, digits ++ rest) := by
  obtain ⟨c, digit, first⟩ := isDigits.head rest
  obtain ⟨more, split⟩ := List.head?_eq_some_iff.mp first
  have noSign : c ∉ signs := fun member => List.any_eq_false.mp apart c member (isDigit_iff.mpr digit)
  rw [split]
  rcases isSign with rfl | ⟨c', member, rfl⟩
  · simp [readSign, noSign]
  · simp [readSign, member]

theorem readExponent_token {exponent : List Char} (isExponent : IsExponent exponent) :
    readExponent exponent = some (exponent, []) := by
  obtain @⟨letter, sign, digits, isLetter, isSign, isDigits⟩ := isExponent
  have signed : readSign ['+', '-'] (sign ++ (digits ++ [])) = (sign, digits ++ []) :=
    readSign_digits (by decide) (by simpa using isSign) isDigits []
  rw [List.append_nil] at signed
  rw [readExponent, if_pos isLetter, signed]
  simp [readDigits_token isDigits]

theorem readTail_token {tail : List Char} (isTail : IsTail tail) :
    (readFraction tail).or (readExponent tail) = some (tail, []) := by
  cases isTail with
  | point isDigits => simp [readFraction, readDigits_token isDigits, readExponent]
  | @pointExponent digits exponent isDigits isExponent =>
    have read : readDigits (digits ++ exponent) = some (digits, exponent) := by
      refine readDigits_append isDigits ?_
      intro c first
      rcases isExponent.head c first with rfl | rfl <;> decide
    simp [readFraction, read, readExponent_token isExponent]
  | exponent isExponent =>
    have noPoint : readFraction tail = none := by
      obtain ⟨rfl | rfl, -, -⟩ := isExponent <;> rfl
    rw [noPoint, Option.none_or, readExponent_token isExponent]

theorem readReal_token {sign digits tail : List Char} (isSign : sign = [] ∨ sign = ['-']) (isDigits : IsDigits digits)
    (isTail : IsTail tail) :
    readReal (sign ++ (digits ++ tail)) = some (.real (String.ofList (sign ++ (digits ++ tail))), []) := by
  have signed : readSign ['-'] (sign ++ (digits ++ tail)) = (sign, digits ++ tail) :=
    readSign_digits (by decide) (by simpa using isSign) isDigits tail
  have read : readDigits (digits ++ tail) = some (digits, tail) := by
    refine readDigits_append isDigits ?_
    intro c first
    rcases isTail.head c first with rfl | rfl | rfl <;> decide
  simp [readReal, signed, read, readTail_token isTail]

/-- An integer is not mistaken for the start of a float. -/
theorem readInteger_token {sign digits : List Char} (isSign : sign = [] ∨ sign = ['-']) (isDigits : IsDigits digits) :
    readReal (sign ++ digits) = none ∧
      readInteger (sign ++ digits) =
        some (.integer (if sign = [] then placeValue digits else -placeValue digits), []) := by
  have signed : readSign ['-'] (sign ++ (digits ++ [])) = (sign, digits ++ []) :=
    readSign_digits (by decide) (by simpa using isSign) isDigits []
  rw [List.append_nil] at signed
  constructor
  · simp [readReal, signed, readDigits_token isDigits, readFraction, readExponent]
  · simp [readInteger, signed, readDigits_token isDigits, digitsValue_eq]

theorem readQuoted_token (text : List Char) : readQuoted (doubled text ++ ['"']) = some (text, []) := by
  induction text with
  | nil => rfl
  | cons c text ih =>
    rw [doubled]
    split
    · rename_i isQuote
      simp [readQuoted, ih, isQuote]
    · rename_i other
      rw [List.cons_append, readQuoted]
      · simp [ih]
      · simp [other]
      · simp [other]

theorem readDigitString_token {isDigit : Char → Bool} (apart : isDigit '\'' = false) {digits : String}
    (inside : ∀ c ∈ digits.toList, isDigit c = true) (letter : Char) :
    readDigitString isDigit letter (digitString digits letter) = some (digits, []) := by
  have stops : ∀ c ∈ ['\'', letter].head?, isDigit c = false := by simp [apart]
  rw [digitString, readDigitString, Text.dropWhile_run inside stops, Text.takeWhile_run inside stops]
  simp

/-- A string of digits is not mistaken for one of another kind. -/
theorem readDigitString_refuse (isDigit : Char → Bool) {digits : String} (plain : '\'' ∉ digits.toList)
    {letter other : Char} (isLetter : '\'' ≠ other) (different : other ≠ letter) :
    readDigitString isDigit letter (digitString digits other) = none := by
  cases read : readDigitString isDigit letter (digitString digits other) with
  | none => rfl
  | some taken =>
    obtain ⟨digits', rest⟩ := taken
    obtain ⟨_, split, rfl, inside⟩ := readDigitString_takes isDigit letter _ _ _ read
    simp only [digitString, List.cons_append, List.append_assoc, List.nil_append, List.cons.injEq, true_and] at split
    have same := (List.append_cons_inj_of_notMem plain (by simpa using isLetter)).mp split
    simp only [List.cons.injEq] at same
    exact absurd same.2.2.1 different

/-! ### The readers accept the grammar -/

/-- The reader that decides is the first that takes anything. -/
theorem readFirst_readers (before : List (Reader Literal)) {after : List (Reader Literal)} {reader : Reader Literal}
    (split : readers = before ++ reader :: after) {token : List Char} {taken : Literal × List Char}
    (refused : ∀ reader ∈ before, reader token = none) (read : reader token = some taken) :
    readFirst readers token = some taken := by
  rw [readFirst, split, List.findSome?_append, List.findSome?_eq_none_iff.mpr refused, Option.none_or,
    List.findSome?_cons, read]

theorem lead_number {sign digits : List Char} (isSign : sign = [] ∨ sign = ['-']) (isDigits : IsDigits digits)
    (rest : List Char) : ∃ c, lead (sign ++ (digits ++ rest)) = some c ∧ c.isAlpha = false := by
  obtain ⟨c, digit, first⟩ := isDigits.head rest
  obtain ⟨more, split⟩ := List.head?_eq_some_iff.mp first
  have letter : decimalDigits.all (fun c => !c.isAlpha) = true := by decide
  have noMinus : c ≠ '-' := by
    rintro rfl
    exact absurd (isDigit_iff.mpr digit) (by decide)
  refine ⟨c, ?_, by simpa using List.all_eq_true.mp letter c digit⟩
  rw [split]
  rcases isSign with rfl | rfl
  · simp [lead, noMinus]
  · simp [lead]

/-- Quotes and apostrophes begin neither a keyword nor a number. -/
theorem refuse_quoted {token : List Char} {c : Char} (first : lead token = some c) (quote : c = '"' ∨ c = '\'') :
    ∀ reader ∈ wordReaders ++ [readReal, readInteger], reader token = none := by
  have noLetter : c.isAlpha = false := by rcases quote with rfl | rfl <;> decide
  have noDigit : c.isDigit = false := by rcases quote with rfl | rfl <;> decide
  have numbers := readNumbers_refuse first noDigit
  rw [List.forall_mem_append]
  refine ⟨wordReaders_refuse first noLetter, ?_⟩
  simp [numbers.1, numbers.2]

theorem readFirst_integer {sign digits : List Char} (isSign : sign = [] ∨ sign = ['-']) (isDigits : IsDigits digits) :
    readFirst readers (sign ++ digits) =
      some (.integer (if sign = [] then placeValue digits else -placeValue digits), []) := by
  obtain ⟨noReal, read⟩ := readInteger_token isSign isDigits
  obtain ⟨c, first, noLetter⟩ := lead_number isSign isDigits []
  rw [List.append_nil] at first
  refine readFirst_readers (wordReaders ++ [readReal]) rfl ?_ read
  rw [List.forall_mem_append, List.forall_mem_singleton]
  exact ⟨wordReaders_refuse first noLetter, noReal⟩

/-- The readers that are tried before those of strings of digits. -/
theorem refuse_digitString (digits : String) (letter : Char) :
    ∀ reader ∈ wordReaders ++ [readReal, readInteger] ++ [readCharString],
      reader (digitString digits letter) = none := by
  rw [List.forall_mem_append, List.forall_mem_singleton]
  exact ⟨refuse_quoted rfl (.inr rfl), rfl⟩

theorem Denotes.readFirst {token : List Char} {literal : Literal} (denotes : Denotes token literal) :
    readFirst readers token = some (literal, []) := by
  have plain {digits : String} (hex : ∀ c ∈ digits.toList, c ∈ hexDigits) : '\'' ∉ digits.toList :=
    fun member => absurd (hex _ member) (by decide)
  have hexadecimal {digits : String} (hex : ∀ c ∈ digits.toList, c ∈ hexDigits) :
      ∀ c ∈ digits.toList, isHex c = true := fun c member => isHex_iff.mpr (hex c member)
  cases denotes with
  | @keyword word _ member =>
    have all : ∀ keyword ∈ keywords, Literal.readFirst readers keyword.1.toList = some (keyword.2, []) := by
      decide +kernel
    exact all (word, literal) member
  | integer isDigits => exact readFirst_integer (.inl rfl) isDigits
  | negative isDigits => exact readFirst_integer (.inr rfl) isDigits
  | real isSign isDigits isTail =>
    obtain ⟨c, first, noLetter⟩ := lead_number isSign isDigits _
    exact readFirst_readers wordReaders rfl (wordReaders_refuse first noLetter) (readReal_token isSign isDigits isTail)
  | charString text =>
    have read : readCharString (quoted text.toList) = some (.charString text, []) := by
      simp [quoted, readCharString, readQuoted_token]
    exact readFirst_readers (wordReaders ++ [readReal, readInteger]) rfl (refuse_quoted rfl (.inl rfl)) read
  | @bitString digits bits =>
    have read : readBitString (digitString digits 'B') = some (.bitString digits, []) := by
      have inside : ∀ c ∈ digits.toList, isBit c = true := fun c member => isBit_iff.mpr (bits c member)
      simp [readBitString, readDigitString_token (by decide) inside]
    exact readFirst_readers _ rfl (refuse_digitString digits 'B') read
  | @hexString digits hex =>
    have noBits : readBitString (digitString digits 'H') = none := by
      simp [readBitString, readDigitString_refuse isBit (plain hex)]
    have read : readHexString (digitString digits 'H') = some (.hexString digits, []) := by
      simp [readHexString, readDigitString_token (by decide) (hexadecimal hex)]
    refine readFirst_readers (wordReaders ++ [readReal, readInteger] ++ [readCharString] ++ [readBitString]) rfl ?_ read
    rw [List.forall_mem_append, List.forall_mem_singleton]
    exact ⟨refuse_digitString digits 'H', noBits⟩
  | @octetString digits hex pairs =>
    have noBits : readBitString (digitString digits 'O') = none := by
      simp [readBitString, readDigitString_refuse isBit (plain hex)]
    have noHex : readHexString (digitString digits 'O') = none := by
      simp [readHexString, readDigitString_refuse isHex (plain hex)]
    have read : readOctetString (digitString digits 'O') = some (.octetString digits, []) := by
      simp [readOctetString, readDigitString_token (by decide) (hexadecimal hex)]
    refine readFirst_readers
      (wordReaders ++ [readReal, readInteger] ++ [readCharString] ++ [readBitString, readHexString]) rfl ?_ read
    rw [List.forall_mem_append]
    refine ⟨refuse_digitString digits 'O', ?_⟩
    simp [noBits, noHex]

theorem Denotes.isWhole {token : List Char} {literal : Literal} (denotes : Denotes token literal) :
    literal.isWhole = true := by
  cases denotes with
  | @keyword word _ member =>
    have all : ∀ keyword ∈ keywords, keyword.2.isWhole = true := by decide
    exact all (word, literal) member
  | octetString hex pairs => simpa [Literal.isWhole] using pairs
  | _ => rfl

/-- The readers accept exactly the grammar, with what it assigns to a token. -/
theorem ofToken?_iff {token : List Char} {literal : Literal} :
    ofToken? token = some literal ↔ Denotes token literal := by
  constructor
  · intro read
    rw [ofToken?] at read
    split at read
    · rename_i first
      split at read
      · rename_i whole
        cases read
        obtain ⟨reader, member, found⟩ := List.exists_of_findSome?_eq_some first
        exact denotes_of_read member found whole
      · cases read
    · cases read
  · intro denotes
    simp [ofToken?, denotes.readFirst, denotes.isWhole]

theorem Denotes.unique {token : List Char} {literal literal' : Literal} (denotes : Denotes token literal)
    (denotes' : Denotes token literal') : literal = literal' :=
  Option.some.inj ((ofToken?_iff.mpr denotes).symm.trans (ofToken?_iff.mpr denotes'))

/-! ### Integers in decimal -/

/-- Zero, or an optional minus and digits that do not begin with a zero. -/
def IsCanonical (text : List Char) : Prop :=
  text = ['0'] ∨ ∃ sign first rest, text = sign ++ first :: rest ∧ (sign = [] ∨ sign = ['-']) ∧
    (∀ c ∈ first :: rest, c ∈ decimalDigits) ∧ first ≠ '0'

theorem isDigits_toDigits (n : Nat) : IsDigits (Nat.toDigits 10 n) := by
  refine ⟨Nat.toDigits_ne_nil, ?_⟩
  intro c member
  exact isDigit_iff.mp (Nat.isDigit_of_mem_toDigits (by decide) (by decide) member)

theorem placeValue_toDigits (n : Nat) : placeValue (Nat.toDigits 10 n) = n := by
  rw [← digitsValue_eq]
  exact Nat.ofDigitChars_ten_toDigits

theorem toDigits_head {n : Nat} (positive : 0 < n) :
    ∃ first rest, Nat.toDigits 10 n = first :: rest ∧ first ≠ '0' := by
  induction n using Nat.strong_induction_on with
  | _ n ih =>
    by_cases small : n < 10
    · refine ⟨n.digitChar, [], Nat.toDigits_of_lt_base small, ?_⟩
      have all : ∀ n < 10, 0 < n → n.digitChar ≠ '0' := by decide
      exact all n small positive
    · obtain ⟨first, rest, split, nonzero⟩ := ih (n / 10) (by omega) (by omega)
      refine ⟨first, rest ++ [(n % 10).digitChar], ?_, nonzero⟩
      rw [Nat.toDigits_of_base_le (by decide) (by omega), split, List.cons_append]

/-- An integer is written without a superfluous zero or sign, and what is written denotes it. -/
theorem repr_canonical (value : Int) :
    IsCanonical value.repr.toList ∧ Denotes value.repr.toList (.integer value) := by
  cases value with
  | ofNat n =>
    have text : (Int.ofNat n).repr.toList = Nat.toDigits 10 n := Nat.toList_repr
    rw [text]
    constructor
    · rcases Nat.eq_zero_or_pos n with rfl | positive
      · exact .inl rfl
      · obtain ⟨first, rest, split, nonzero⟩ := toDigits_head positive
        have digits := (isDigits_toDigits n).2
        rw [split] at digits ⊢
        exact .inr ⟨[], first, rest, rfl, .inl rfl, digits, nonzero⟩
    · have denotes := Denotes.integer (isDigits_toDigits n)
      rwa [placeValue_toDigits] at denotes
  | negSucc n =>
    have text : (Int.negSucc n).repr.toList = '-' :: Nat.toDigits 10 (n + 1) := by
      rw [Int.repr, String.toList_append, Nat.toList_repr]
      rfl
    rw [text]
    constructor
    · obtain ⟨first, rest, split, nonzero⟩ := toDigits_head (Nat.succ_pos n)
      have digits := (isDigits_toDigits (n + 1)).2
      rw [split] at digits ⊢
      exact .inr ⟨['-'], first, rest, rfl, .inr rfl, digits, nonzero⟩
    · have denotes := Denotes.negative (isDigits_toDigits (n + 1))
      rwa [placeValue_toDigits] at denotes

end Literal

/-! ### The literal of a text -/

open Literal

theorem readLiteral_eq_ok_iff {text : String} {literal : Literal} :
    readLiteral text = .ok literal ↔ Denotes (Text.trim text.toList) literal := by
  rw [← ofToken?_iff, readLiteral, Literal.ofText?]
  cases ofToken? (Text.trim text.toList) with
  | none => simp
  | some literal' => simp

theorem readLiteral_eq_error_iff {text : String} {fault : Fault} :
    readLiteral text = .error fault ↔
      fault = .malformedLiteral text ∧ ∀ literal, ¬Denotes (Text.trim text.toList) literal := by
  simp only [← ofToken?_iff]
  rw [readLiteral, Literal.ofText?]
  cases ofToken? (Text.trim text.toList) with
  | none => simp [eq_comm]
  | some literal => simp

/-- A text is read as a literal exactly if its token, without the white space around it, denotes that literal. Any other
    text is malformed, and the fault has all of it. A token denotes one literal at most, integers are written in
    canonical form, and no token is refused that one of the readers would take as a whole. -/
theorem readLiteral_accepts_grammar (text : String) :
    (∀ literal, readLiteral text = .ok literal ↔ ∃ token, Text.Strips text.toList token ∧ Denotes token literal) ∧
    (∀ fault, readLiteral text = .error fault ↔
      fault = .malformedLiteral text ∧ ¬∃ token literal, Text.Strips text.toList token ∧ Denotes token literal) ∧
    (∀ token literal literal', Denotes token literal → Denotes token literal' → literal = literal') ∧
    (∀ value, readLiteral text = .ok (.integer value) →
      IsCanonical value.repr.toList ∧ Denotes value.repr.toList (.integer value)) ∧
    ∀ reader ∈ readers, ∀ token literal, Text.Strips text.toList token → reader token = some (literal, []) →
      literal.isWhole = true → readLiteral text = .ok literal := by
  simp only [Text.strips_iff]
  refine ⟨?accepts, ?refuses, ?unambiguous, ?canonical, ?unhidden⟩
  case accepts =>
    intro literal
    simp [readLiteral_eq_ok_iff]
  case refuses =>
    intro fault
    simp [readLiteral_eq_error_iff]
  case unambiguous =>
    intro token literal literal' denotes denotes'
    exact denotes.unique denotes'
  case canonical =>
    intro value _
    exact repr_canonical value
  case unhidden =>
    rintro reader member token literal rfl read whole
    exact readLiteral_eq_ok_iff.mpr (denotes_of_read member read whole)

end TtcnTemplates
