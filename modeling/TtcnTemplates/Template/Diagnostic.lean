/-! # Diagnostics

A fault drops the template in which it is found. A remark leaves the template as it is, with a placeholder or
without what the remark is about.
-/

namespace TtcnTemplates

/-- Why a template is dropped. -/
inductive Fault where
  /-- The modified template is not there. -/
  | unknownBase (name : String)
  | unknownType (name : String)
  | unknownField (type field : String)
  | unknownAlternative (type alternative : String)
  /-- Two alternatives of a union are given. -/
  | severalAlternatives (type first second : String)
  /-- No alternative of a union is given. -/
  | noAlternative (type : String)
  | missingType
  | missingName
  | malformedLiteral (text : String)
  | unresolvedReference (name : String)
  /-- A scope yields what its parent has no use for. -/
  | unexpected (what : String)
deriving DecidableEq, Repr

/-- The wording of a fault. -/
def Fault.message : Fault → String
  | .unknownBase name => "unknown base template " ++ name
  | .unknownType name => "unknown type " ++ name
  | .unknownField type field => "type " ++ type ++ " has no field " ++ field
  | .unknownAlternative type alternative => "union " ++ type ++ " has no alternative " ++ alternative
  | .severalAlternatives type first second => "union " ++ type ++ " template selects both " ++ first ++ " and " ++ second
  | .noAlternative type => "union " ++ type ++ " template selects no alternative"
  | .missingType => "missing type"
  | .missingName => "missing template name"
  | .malformedLiteral text => "malformed literal " ++ text
  | .unresolvedReference name => "unresolved reference " ++ name
  | .unexpected what => "unexpected " ++ what

/-- What is remarked on a template that is kept. -/
inductive Remark where
  /-- A construct has no Java form. -/
  | unsupported (description type : String)
  /-- A specific value has neither a literal nor a reference. -/
  | noLiteral (type : String)
  /-- A field template has no field name. -/
  | unnamedField (type : String)
  /-- A field is given again. -/
  | repeatedField (field type : String)
  /-- A list has more elements than its type has fields. -/
  | surplusElement (index count : Nat) (type : String)
  /-- A remark in free words. -/
  | note (text : String)
deriving DecidableEq, Repr

/-- The wording of a remark. -/
def Remark.message : Remark → String
  | .unsupported description type => "unsupported template " ++ description ++ " for type " ++ type
  | .noLiteral type => "specific value of type " ++ type ++ " has no literal"
  | .unnamedField type => "field template of " ++ type ++ " without a field name"
  | .repeatedField field type => "field " ++ field ++ " of " ++ type ++ " is given more than once"
  | .surplusElement index count type => "element " ++ index.repr ++ " exceeds the " ++ count.repr ++ " fields of " ++ type
  | .note text => text

/-- What a diagnostic is about. -/
inductive Problem where
  | fault (fault : Fault)
  | remark (remark : Remark)
deriving DecidableEq, Repr

/-- A problem with the name of the template in which it is found, where that is known. -/
structure Diagnostic where
  template : Option String
  problem : Problem
deriving DecidableEq, Repr

namespace Diagnostic

/-- Whether a diagnostic reports a fault. -/
def isError (diagnostic : Diagnostic) : Bool :=
  match diagnostic.problem with
  | .fault _ => true
  | .remark _ => false

/-- The severity and the wording of a problem. -/
def wording : Problem → String × String
  | .fault fault => ("error", fault.message)
  | .remark remark => ("warning", remark.message)

/-- The text of a diagnostic. -/
def text (diagnostic : Diagnostic) : String :=
  let (severity, message) := wording diagnostic.problem
  match diagnostic.template with
  | some template => severity ++ " in template " ++ template ++ ": " ++ message
  | none => severity ++ ": " ++ message

end Diagnostic

end TtcnTemplates
