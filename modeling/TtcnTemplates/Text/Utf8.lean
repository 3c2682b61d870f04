/-! # UTF-8

Texts as bytes and back. A byte sequence that is no UTF-8 text is either refused or read with the replacement
character U+FFFD for each longest run of bytes that starts a character without completing it.
-/

namespace TtcnTemplates.Text

/-- A string of bytes. -/
abbrev Bytes := List UInt8

/-- The bytes of a text. -/
def encode (text : String) : Bytes :=
  text.toList.flatMap String.utf8EncodeChar

/-- The bytes of two texts follow one another. -/
theorem encode_append (s t : String) : encode (s ++ t) = encode s ++ encode t := by
  simp [encode]

/-- The text of the bytes, if they are one. -/
def decode? (bytes : Bytes) : Option String :=
  String.fromUTF8? ⟨bytes.toArray⟩

/-- Whether a byte continues a character. -/
def isTail (b : UInt8) : Bool := 0x80 ≤ b && b ≤ 0xBF

/-- Whether `second` may follow the first byte `first` of a character of three bytes: it rules out a character
    that two bytes can hold, and the surrogates. -/
def opensThree (first second : UInt8) : Bool :=
  isTail second && (first != 0xE0 || 0xA0 ≤ second) && (first != 0xED || second ≤ 0x9F)

/-- Whether `second` may follow the first byte `first` of a character of four bytes: it rules out a character
    that three bytes can hold, and the numbers above the last code point. -/
def opensFour (first second : UInt8) : Bool :=
  isTail second && (first != 0xF0 || 0x90 ≤ second) && (first != 0xF4 || second ≤ 0x8F)

/-- The six low bits of a byte. -/
def tailBits (b : UInt8) : Nat := b.toNat % 64

/-- The character that stands for bytes that are no text. -/
def replacement : Char := Char.ofNat 0xFFFD

/-- The characters of a byte sequence, with a replacement character for each maximal run of bytes that starts
    a character without completing it, and for each byte that starts none. -/
def lossyChars : Bytes → List Char
  | [] => []
  | a :: rest =>
    if a < 0x80 then Char.ofNat a.toNat :: lossyChars rest
    else if 0xC2 ≤ a && a ≤ 0xDF then
      match rest with
      | [] => [replacement]
      | b :: rest' =>
        if isTail b then Char.ofNat (a.toNat % 32 * 64 + tailBits b) :: lossyChars rest'
        else replacement :: lossyChars (b :: rest')
    else if 0xE0 ≤ a && a ≤ 0xEF then
      match rest with
      | [] => [replacement]
      | [b] => if opensThree a b then [replacement] else replacement :: lossyChars [b]
      | b :: c :: rest' =>
        if !opensThree a b then replacement :: lossyChars (b :: c :: rest')
        else if isTail c then
          Char.ofNat (a.toNat % 16 * 4096 + tailBits b * 64 + tailBits c) :: lossyChars rest'
        else replacement :: lossyChars (c :: rest')
    else if 0xF0 ≤ a && a ≤ 0xF4 then
      match rest with
      | [] => [replacement]
      | [b] => if opensFour a b then [replacement] else replacement :: lossyChars [b]
      | [b, c] =>
        if !opensFour a b then replacement :: lossyChars [b, c]
        else if isTail c then [replacement]
        else replacement :: lossyChars [c]
      | b :: c :: d :: rest' =>
        if !opensFour a b then replacement :: lossyChars (b :: c :: d :: rest')
        else if !isTail c then replacement :: lossyChars (c :: d :: rest')
        else if isTail d then
          Char.ofNat (a.toNat % 8 * 262144 + tailBits b * 4096 + tailBits c * 64 + tailBits d) :: lossyChars rest'
        else replacement :: lossyChars (d :: rest')
    else replacement :: lossyChars rest

/-- The text of a byte sequence, with replacement characters where it is no text. -/
def lossy (bytes : Bytes) : String := String.ofList (lossyChars bytes)

end TtcnTemplates.Text
