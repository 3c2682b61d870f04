import TtcnTemplates.Literal.Basic
import TtcnTemplates.Text.Characters

/-! # Reading literals

A reader takes a literal off the front of a text and leaves the rest. The readers are tried in order, the first
that succeeds decides, and the token is a literal if that reader leaves nothing. White space around the token is
ignored.
-/

namespace TtcnTemplates.Literal

/-- Takes something off the front of a text and leaves the rest. -/
abbrev Reader (α : Type) := List Char → Option (α × List Char)

/-- Reads a word as the given literal. -/
def readWord (word : String) (literal : Literal) : Reader Literal := fun cs =>
  (word.toList.isPrefixOf? cs).map fun rest => (literal, rest)

/-- Reads by the first reader of a list that succeeds. -/
def readFirst (readers : List (Reader Literal)) : Reader Literal := fun cs =>
  readers.findSome? fun reader => reader cs

/-- Reads `true` or `false`. -/
def readBoolean : Reader Literal :=
  readFirst [readWord "true" (.boolean true), readWord "false" (.boolean false)]

/-- Reads `omit`. -/
def readOmit : Reader Literal := readWord "omit" .omit

/-- Reads a verdict. -/
def readVerdict : Reader Literal :=
  readFirst (Verdict.all.map fun verdict => readWord verdict.word (.verdict verdict))

/-- Reads a float that has no digits. -/
def readSpecialFloat : Reader Literal :=
  readFirst (SpecialFloat.all.map fun float => readWord float.word (.specialFloat float))

/-! ### Numbers -/

/-- Reads one or more decimal digits, as many as there are. -/
def readDigits : Reader (List Char) := fun cs =>
  match cs.takeWhile Char.isDigit with
  | [] => none
  | digits => some (digits, cs.dropWhile Char.isDigit)

/-- Reads one character of a list, if there is one. -/
def readSign (signs : List Char) : List Char → List Char × List Char
  | [] => ([], [])
  | c :: rest => if signs.contains c then ([c], rest) else ([], c :: rest)

/-- Reads an exponent: its letter, an optional sign and digits. -/
def readExponent : Reader (List Char)
  | [] => none
  | c :: rest =>
    if c = 'e' ∨ c = 'E' then
      let (sign, rest) := readSign ['+', '-'] rest
      (readDigits rest).map fun (digits, rest) => (c :: sign ++ digits, rest)
    else none

/-- Reads a point, digits and an optional exponent. -/
def readFraction : Reader (List Char)
  | '.' :: rest =>
    (readDigits rest).map fun (digits, rest) =>
      match readExponent rest with
      | some (exponent, rest) => ('.' :: digits ++ exponent, rest)
      | none => ('.' :: digits, rest)
  | _ => none

/-- Reads a float with digits: an optional minus, digits, and a fraction or an exponent. -/
def readReal : Reader Literal := fun cs =>
  let (sign, rest) := readSign ['-'] cs
  (readDigits rest).bind fun (digits, rest) =>
    ((readFraction rest).or (readExponent rest)).map fun (tail, rest) =>
      (.real (String.ofList (sign ++ digits ++ tail)), rest)

/-- The number that decimal digits denote. -/
def digitsValue (digits : List Char) : Nat :=
  digits.foldl (fun value c => 10 * value + (c.toNat - '0'.toNat)) 0

/-- Reads an integer: an optional minus and digits. -/
def readInteger : Reader Literal := fun cs =>
  let (sign, rest) := readSign ['-'] cs
  (readDigits rest).map fun (digits, rest) =>
    (.integer (if sign.isEmpty then (digitsValue digits : Int) else -(digitsValue digits : Int)), rest)

/-! ### Strings -/

/-- Reads the rest of a character string, up to its closing quote. A doubled quote stands for one quote. -/
def readQuoted : Reader (List Char)
  | [] => none
  | '"' :: '"' :: rest => (readQuoted rest).map fun (text, rest) => ('"' :: text, rest)
  | '"' :: rest => some ([], rest)
  | c :: rest => (readQuoted rest).map fun (text, rest) => (c :: text, rest)

/-- Reads a character string. -/
def readCharString : Reader Literal
  | '"' :: rest => (readQuoted rest).map fun (text, rest) => (.charString (String.ofList text), rest)
  | _ => none

/-- Reads digits of some kind between apostrophes, with the letter of the kind at the end. -/
def readDigitString (isDigit : Char → Bool) (letter : Char) : Reader String
  | '\'' :: rest =>
    match rest.dropWhile isDigit with
    | '\'' :: c :: after =>
      if c = letter then some (String.ofList (rest.takeWhile isDigit), after) else none
    | _ => none
  | _ => none

/-- Whether a character is a binary digit. -/
def isBit (c : Char) : Bool := c == '0' || c == '1'

/-- Whether a character is a hexadecimal digit. -/
def isHex (c : Char) : Bool :=
  c.isDigit || (decide ('a' ≤ c) && decide (c ≤ 'f')) || (decide ('A' ≤ c) && decide (c ≤ 'F'))

/-- Reads a bit string. -/
def readBitString : Reader Literal := fun cs =>
  (readDigitString isBit 'B' cs).map fun (digits, rest) => (.bitString digits, rest)

/-- Reads a string of hexadecimal digits. -/
def readHexString : Reader Literal := fun cs =>
  (readDigitString isHex 'H' cs).map fun (digits, rest) => (.hexString digits, rest)

/-- Reads a string of octets, given by hexadecimal digits. -/
def readOctetString : Reader Literal := fun cs =>
  (readDigitString isHex 'O' cs).map fun (digits, rest) => (.octetString digits, rest)

/-! ### Tokens -/

/-- The readers in the order in which they are tried. -/
def readers : List (Reader Literal) :=
  [readBoolean, readOmit, readVerdict, readSpecialFloat, readReal, readInteger, readCharString, readBitString,
    readHexString, readOctetString]

/-- Whether a string of octets has two digits for each octet. Other literals have nothing to satisfy. -/
def isWhole : Literal → Bool
  | .octetString digits => digits.length % 2 == 0
  | _ => true

/-- The literal of a token. -/
def ofToken? (cs : List Char) : Option Literal :=
  match readFirst readers cs with
  | some (literal, []) => if literal.isWhole then some literal else none
  | _ => none

/-- The literal of a token with white space around it. -/
def ofText? (text : String) : Option Literal := ofToken? (Text.trim text.toList)

end TtcnTemplates.Literal
