import TtcnTemplates.Text.Utf8

/-! # Writing text

Generated source is written one fragment after another. What it says inside string literals and comments is escaped,
and the items of a list have separators between them.
-/

namespace TtcnTemplates.Text

/-! ### Inside string literals and comments

A string literal may not hold a bare quote, backslash or line break, so these are written as escape sequences.
A comment may hold anything but its own end, a line break, or a backslash that could start a Unicode escape.
-/

/-- One character as it stands inside a Java string literal. -/
def stringChar : Char → List Char
  | '"' => ['\\', '"']
  | '\\' => ['\\', '\\']
  | '\n' => ['\\', 'n']
  | '\r' => ['\\', 'r']
  | '\t' => ['\\', 't']
  | c => [c]

/-- A text as it stands inside a Java string literal. -/
def escapeString (text : String) : String :=
  String.ofList (text.toList.flatMap stringChar)

/-- The characters of a text as they stand inside a Java comment of either style: the pair that would end a
    block comment is broken by a space, a backslash is doubled, and a line break is written as an escape. -/
def commentChars : List Char → List Char
  | [] => []
  | '*' :: '/' :: rest => '*' :: ' ' :: '/' :: commentChars rest
  | '\\' :: rest => '\\' :: '\\' :: commentChars rest
  | '\r' :: rest => '\\' :: 'r' :: commentChars rest
  | '\n' :: rest => '\\' :: 'n' :: commentChars rest
  | c :: rest => c :: commentChars rest

/-- A text as it stands inside a Java comment of either style. -/
def escapeComment (text : String) : String :=
  String.ofList (commentChars text.toList)

/-! ### Items with separators between them -/

/-- Runs `body` for each item in order and `separator` between any two of them. Where the monad can fail, the
    first failure ends the run. -/
def eachSeparated {m : Type → Type} [Monad m] {α : Type} (separator : m Unit) (body : α → m Unit) : List α → m Unit
  | [] => pure ()
  | first :: rest => do
    body first
    rest.forM fun item => do
      separator
      body item

/-! ### A sink of bounded size

A sink stores what fits; the first fragment that does not fit ends the writing.
-/

/-- A sink that holds `stored` and has room for `room` more bytes. -/
structure Sink where
  room : Nat
  stored : Bytes := []
deriving DecidableEq, Repr

/-- Why a sink refuses a fragment. -/
inductive SinkError where
  /-- There is no room for all of it. -/
  | full
deriving DecidableEq, Repr

/-- Writes one fragment. Failure leaves the sink full, with as much of the fragment as it had room for. -/
def Sink.put (fragment : String) : EStateM SinkError Sink Unit := fun sink =>
  let bytes := encode fragment
  if bytes.length ≤ sink.room then .ok () ⟨sink.room - bytes.length, sink.stored ++ bytes⟩
  else .error .full ⟨0, sink.stored ++ bytes.take sink.room⟩

end TtcnTemplates.Text
