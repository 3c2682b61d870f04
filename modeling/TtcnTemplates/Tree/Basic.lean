/-! # The tree of a module

A front end hands a module over as a tree in which every node has a form: what construct it is, with the name or
text that belongs to the construct. Equality of trees is decidable.
-/

namespace TtcnTemplates

/-- A type as the source names it. -/
inductive TypeUse where
  /-- A built-in type, such as `integer` or `universal charstring`. -/
  | builtin (name : String)
  /-- A type that the module declares. -/
  | declared (name : String)
deriving DecidableEq, Repr

/-- The name by which a type is used. -/
def TypeUse.name : TypeUse → String
  | .builtin name => name
  | .declared name => name

/-- The construct that a node stands for, with its name or text. -/
inductive Form where
  /-- A module. -/
  | module (name : String)
  /-- A template definition: type, name, formal parameters, base and body. -/
  | definition
  /-- The use of a type. -/
  | type (use : TypeUse)
  /-- A name: of a template, a formal parameter, a field or an alternative. -/
  | identifier (name : String)
  /-- The list of the formal parameters of a definition. -/
  | parameterList
  /-- One formal parameter. -/
  | parameter
  /-- The clause that names the template which a definition modifies. -/
  | base (name : String)
  /-- A template body. Its first child gives its shape. -/
  | body
  /-- The shape of a literal or of a reference. -/
  | specific
  /-- The token of a literal. -/
  | literal (text : String)
  /-- A reference by name. -/
  | reference (name : String)
  /-- The shape of assignment notation. -/
  | fieldList
  /-- One assignment to a field. -/
  | field
  /-- The shape of list notation. -/
  | elementList
  /-- The shape of `?`. -/
  | any
  /-- The shape of `*`. -/
  | anyOrOmit
  /-- A construct that has no Java form, such as a value range. -/
  | other (description : String)
deriving DecidableEq, Repr

/-- The construct that a node stands for, without its name or text. -/
inductive Tag where
  | module
  | definition
  | type
  | identifier
  | parameterList
  | parameter
  | base
  | body
  | specific
  | literal
  | reference
  | fieldList
  | field
  | elementList
  | any
  | anyOrOmit
  | other
deriving DecidableEq, Repr

/-- The construct of a form. -/
def Form.tag : Form → Tag
  | .module _ => .module
  | .definition => .definition
  | .type _ => .type
  | .identifier _ => .identifier
  | .parameterList => .parameterList
  | .parameter => .parameter
  | .base _ => .base
  | .body => .body
  | .specific => .specific
  | .literal _ => .literal
  | .reference _ => .reference
  | .fieldList => .fieldList
  | .field => .field
  | .elementList => .elementList
  | .any => .any
  | .anyOrOmit => .anyOrOmit
  | .other _ => .other

/-- The name of a construct in messages. -/
def Tag.text : Tag → String
  | .module => "Module"
  | .definition => "TemplateDef"
  | .type => "Type"
  | .identifier => "Identifier"
  | .parameterList => "FormalParameterList"
  | .parameter => "FormalParameter"
  | .base => "DerivedDef"
  | .body => "Template"
  | .specific => "SpecificValue"
  | .literal => "Literal"
  | .reference => "Reference"
  | .fieldList => "NamedTemplateList"
  | .field => "NamedTemplate"
  | .elementList => "ListOfTemplates"
  | .any => "AnyValue"
  | .anyOrOmit => "AnyOrOmit"
  | .other => "Other"

/-- A node with its descendants. -/
structure Tree where
  form : Form
  children : List Tree
deriving Repr

/-- The construct of a tree's root. -/
def Tree.tag (tree : Tree) : Tag := tree.form.tag

/-- Whether a tree's root is of the given construct. -/
def Tree.is (tree : Tree) (tag : Tag) : Bool := tree.tag == tag

theorem Tree.is_iff {tree : Tree} {tag : Tag} : tree.is tag = true ↔ tree.tag = tag := by
  simp [Tree.is]

/-- The shape of a template body: the construct of its first child. -/
def Tree.shape (tree : Tree) : Option Tag := tree.children.head?.map Tree.tag

/-! ### Equality -/

mutual
/-- Decides whether two trees are equal. -/
def Tree.decEq : (left right : Tree) → Decidable (left = right)
  | ⟨form, children⟩, ⟨form', children'⟩ =>
    if sameForm : form = form' then
      match Tree.decEqAll children children' with
      | isTrue same => isTrue (by rw [sameForm, same])
      | isFalse different => isFalse fun equal => different (congrArg Tree.children equal)
    else isFalse fun equal => sameForm (congrArg Tree.form equal)

/-- Decides whether two lists of trees are equal. -/
def Tree.decEqAll : (left right : List Tree) → Decidable (left = right)
  | [], [] => isTrue rfl
  | [], _ :: _ => isFalse nofun
  | _ :: _, [] => isFalse nofun
  | tree :: rest, tree' :: rest' =>
    match Tree.decEq tree tree', Tree.decEqAll rest rest' with
    | isTrue same, isTrue sameRest => isTrue (by rw [same, sameRest])
    | isFalse different, _ => isFalse fun equal => different (List.cons.inj equal).1
    | _, isFalse different => isFalse fun equal => different (List.cons.inj equal).2
end

instance : DecidableEq Tree := Tree.decEq

end TtcnTemplates
