import TtcnTemplates.Template.Basic
import TtcnTemplates.Tree.Basic
import TtcnTemplates.Types.Symbols

/-! # Scopes

Each construct of a definition is read by a scope of its own: it keeps what it has gathered, opens a scope for what
is nested in it, and yields its result when its own node is left. Scopes stand on a stack, the innermost on top.
-/

namespace TtcnTemplates

/-- What a scope hands to the scope below it. -/
inductive Yield where
  | value (value : Expr)
  | parameters (parameters : List Parameter)
  | overrides (overrides : List Override)
  | template (template : Template)
deriving Repr

/-- The name of what a scope yields, in messages. -/
def Yield.text : Yield → String
  | .value _ => "value"
  | .parameters _ => "formal parameter list"
  | .overrides _ => "modification list"
  | .template _ => "template definition"

/-- A field of a record or set with the value that it is given. -/
structure Slot where
  field : Field TypeId
  value : Option Expr := none
deriving Repr

/-- An open construct. -/
inductive Scope where
  /-- A template definition, of which the draft has been gathered so far. -/
  | definition (draft : Draft) (type : Option TypeId) (modifying : Bool)
  /-- A list of formal parameters, with the class of the next one where its type has been read. -/
  | parameterList (pending : Option String) (parameters : List Parameter)
  /-- A literal or a reference. -/
  | specific (type : TypeId) (value : Option Expr)
  /-- A record or set in assignment notation, with the index of the field that was named last. -/
  | named (type : String) (slots : List Slot) (pending : Option Nat)
  /-- A union, with the alternative that was named. -/
  | union (type : String) (alternatives : List (Field TypeId)) (chosen : Option String) (value : Option Expr)
  /-- A record of or set of. `listed` says whether its element list has been reached. -/
  | sequence (type : String) (element : TypeId) (elements : List Expr) (listed : Bool)
  /-- A record or set in list notation, with the number of elements so far and the slot that is being filled. -/
  | positional (type : String) (slots : List Slot) (next : Nat) (current : Option Nat) (listed : Bool)
  /-- The overrides of the part at `path`, in assignment notation, with the field that was named last. -/
  | overrideList (type : String) (path : FieldPath) (fields : List (Field TypeId)) (pending : Option String)
      (overrides : List Override)
  /-- A construct that has no Java form. `level` counts the bodies that are open inside it. -/
  | unsupported (type description : String) (level : Nat)
  /-- A construct that is passed over. `level` counts the nodes of the same tag that are open inside it. -/
  | skip (tag : Tag) (level : Nat)
  /-- A construct whose result is known and kept until the next end of a node with the given tag, which takes it. -/
  | await (tag : Tag) (result : Option Yield)
deriving Repr

/-- The name of a scope in the log. -/
def Scope.label : Scope → String
  | .definition .. => "TemplateParser"
  | .parameterList .. => "FormalParameterParser"
  | .specific .. => "SpecificValueParser"
  | .named .. => "NamedTemplateListParser"
  | .union .. => "UnionValueParser"
  | .sequence .. => "RecordOfValueParser"
  | .positional .. => "TemplateListParser"
  | .overrideList .. => "ModificationListParser"
  | .unsupported .. => "UnknownValueParser"
  | .skip .. => "Skip"
  | .await .. => "WaitFor"

/-- The field of a name. -/
def Field.find? (fields : List (Field TypeId)) (name : String) : Option (Field TypeId) :=
  fields.find? fun field => field.name == name

/-- Empty slots for the fields of a record or set. -/
def Slot.ofFields (fields : List (Field TypeId)) : List Slot := fields.map fun field => { field }

end TtcnTemplates
