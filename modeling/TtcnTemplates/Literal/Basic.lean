/-! # Literals

What the token of a literal says before it is given a type.
-/

namespace TtcnTemplates

/-- The verdicts of a test. -/
inductive Verdict where
  | pass
  | fail
  | inconclusive
  | none
  | error
deriving DecidableEq, Repr

/-- Every verdict. -/
def Verdict.all : List Verdict := [.pass, .fail, .inconclusive, .none, .error]

/-- The spelling of a verdict in a module. -/
def Verdict.word : Verdict → String
  | .pass => "pass"
  | .fail => "fail"
  | .inconclusive => "inconc"
  | .none => "none"
  | .error => "error"

/-- The static field that holds a verdict in the Java runtime. -/
def Verdict.field : Verdict → String
  | .pass => "PASS"
  | .fail => "FAIL"
  | .inconclusive => "INCONC"
  | .none => "NONE"
  | .error => "ERROR"

/-- The floats that have no digits. -/
inductive SpecialFloat where
  | infinity
  | minusInfinity
  | notANumber
deriving DecidableEq, Repr

/-- Every float that has no digits. -/
def SpecialFloat.all : List SpecialFloat := [.infinity, .minusInfinity, .notANumber]

/-- The spelling of a float that has no digits. -/
def SpecialFloat.word : SpecialFloat → String
  | .infinity => "infinity"
  | .minusInfinity => "-infinity"
  | .notANumber => "not_a_number"

/-- The static field that holds a float without digits in the Java runtime. -/
def SpecialFloat.field : SpecialFloat → String
  | .infinity => "PLUS_INFINITY"
  | .minusInfinity => "MINUS_INFINITY"
  | .notANumber => "NOT_A_NUMBER"

/-- What the token of a literal says. -/
inductive Literal where
  | boolean (value : Bool)
  | omit
  | verdict (value : Verdict)
  | integer (value : Int)
  /-- A float with digits keeps its spelling. -/
  | real (text : String)
  | specialFloat (value : SpecialFloat)
  | charString (text : String)
  | bitString (digits : String)
  | hexString (digits : String)
  | octetString (digits : String)
deriving DecidableEq, Repr

/-- Whether a literal is a keyword. Keywords can also be written where a name is expected. -/
def Literal.isKeyword : Literal → Bool
  | .boolean _ => true
  | .omit => true
  | .verdict _ => true
  | .specialFloat _ => true
  | _ => false

end TtcnTemplates
