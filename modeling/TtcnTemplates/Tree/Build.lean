import TtcnTemplates.Tree.Basic

/-! # Building trees

One function for each construct of a module: `Tree.ofModule` at the top, `Tree.ofDefinition` below it, and the
template bodies below that.
-/

namespace TtcnTemplates

/-- A node without children. -/
def Tree.leaf (form : Form) : Tree := ⟨form, []⟩

/-- The use of a type. -/
def Tree.ofType (use : TypeUse) : Tree := .leaf (.type use)

/-- A name. -/
def Tree.ofName (name : String) : Tree := .leaf (.identifier name)

/-- A template body of the given shape. -/
def Tree.ofShape (shape : Tree) : Tree := ⟨.body, [shape]⟩

/-- The body that is one literal. -/
def Tree.ofLiteral (text : String) : Tree := .ofShape ⟨.specific, [.leaf (.literal text)]⟩

/-- The body that is one reference. -/
def Tree.ofReference (name : String) : Tree := .ofShape ⟨.specific, [.leaf (.reference name)]⟩

/-- The body `?`. -/
def Tree.ofAny : Tree := .ofShape (.leaf .any)

/-- The body `*`. -/
def Tree.ofAnyOrOmit : Tree := .ofShape (.leaf .anyOrOmit)

/-- A body that has no Java form. -/
def Tree.ofOther (description : String) : Tree := .ofShape (.leaf (.other description))

/-- One assignment of assignment notation. -/
def Tree.ofField (field : String × Tree) : Tree := ⟨.field, [.ofName field.1, field.2]⟩

/-- A body in assignment notation. -/
def Tree.ofFields (fields : List (String × Tree)) : Tree := .ofShape ⟨.fieldList, fields.map Tree.ofField⟩

/-- A body in list notation. -/
def Tree.ofElements (elements : List Tree) : Tree := .ofShape ⟨.elementList, elements⟩

/-- One formal parameter. -/
def Tree.ofParameter (parameter : TypeUse × String) : Tree :=
  ⟨.parameter, [.ofType parameter.1, .ofName parameter.2]⟩

/-- The formal parameter list of a definition, which is left out where there are no parameters. -/
def Tree.ofParameters (parameters : List (TypeUse × String)) : List Tree :=
  if parameters.isEmpty then [] else [⟨.parameterList, parameters.map Tree.ofParameter⟩]

/-- A template definition. -/
def Tree.ofDefinition (type : TypeUse) (name : String) (parameters : List (TypeUse × String))
    (base : Option String) (body : Tree) : Tree :=
  ⟨.definition, [.ofType type, .ofName name] ++ Tree.ofParameters parameters ++
    (base.map fun name => Tree.leaf (.base name)).toList ++ [body]⟩

/-- A module. -/
def Tree.ofModule (name : String) (definitions : List Tree) : Tree := ⟨.module name, definitions⟩

end TtcnTemplates
