import TtcnTemplates.Compiler.Body
import TtcnTemplates.Tree.Build

/-! # What templates mean

The meaning of a module that is put together from constructs: its definitions are translated from left to right, and
the body of each by recursion over its structure, at the type that it is given for. Nothing but the result is passed
from one construct to the next. A translation can fail, and what it has remarked before it fails stays (`Reading`).
-/

namespace TtcnTemplates

/-! ### Constructs -/

/-- A template body. -/
inductive Body where
  | literal (text : String)
  | reference (name : String)
  /-- The body `?`. -/
  | any
  /-- The body `*`. -/
  | anyOrOmit
  /-- A construct that has no Java form. -/
  | other (description : String)
  /-- Assignment notation. -/
  | fields (assignments : List (String × Body))
  /-- List notation. -/
  | elements (bodies : List Body)

mutual
/-- The tree of a body. -/
def Body.tree : Body → Tree
  | .literal text => .ofLiteral text
  | .reference name => .ofReference name
  | .any => .ofAny
  | .anyOrOmit => .ofAnyOrOmit
  | .other description => .ofOther description
  | .fields assignments => .ofFields (Body.assignmentTrees assignments)
  | .elements bodies => .ofElements (Body.trees bodies)

/-- The trees of the bodies that are assigned, with the names of their fields. -/
def Body.assignmentTrees : List (String × Body) → List (String × Tree)
  | [] => []
  | (name, body) :: rest => (name, body.tree) :: Body.assignmentTrees rest

/-- The trees of bodies. -/
def Body.trees : List Body → List Tree
  | [] => []
  | body :: rest => body.tree :: Body.trees rest
end

/-- A template definition. -/
structure Definition where
  type : TypeUse
  name : String
  parameters : List (TypeUse × String)
  base : Option String
  body : Body

/-- The tree of a definition. -/
def Definition.tree (definition : Definition) : Tree :=
  .ofDefinition definition.type definition.name definition.parameters definition.base definition.body.tree

/-! ### Translations that can fail -/

/-- The outcome of a translation, with what is remarked on the way. -/
structure Reading (α : Type) where
  remarks : List Remark
  result : Except Fault α

namespace Reading

/-- A translation that fails. -/
def fail {α : Type} (fault : Fault) : Reading α := ⟨[], .error fault⟩

/-- Makes remarks. -/
def remark (remarks : List Remark) : Reading Unit := ⟨remarks, .ok ()⟩

/-- A translation without remarks. -/
def ofExcept {α : Type} (result : Except Fault α) : Reading α := ⟨[], result⟩

instance : Monad Reading where
  pure value := ⟨[], .ok value⟩
  bind reading next :=
    match reading.result with
    | .ok value => ⟨reading.remarks ++ (next value).remarks, (next value).result⟩
    | .error fault => ⟨reading.remarks, .error fault⟩

end Reading

/-! ### Bodies -/

/-- A body that has no Java form at its type. -/
def unsupportedValue (type description : String) : Reading Expr := do
  Reading.remark [.unsupported description type]
  return .atom type (.unsupported description)

/-- The remarks on the elements of a list for which there are no fields left, from the given index on. -/
def surplusRemarks (type : String) (count index : Nat) : List Body → List Remark
  | [] => []
  | _ :: rest => .surplusElement index count type :: surplusRemarks type count (index + 1) rest

mutual
/-- The value of a body at a type. -/
def Body.value (symbols : Symbols) (parameters : List Parameter) (type : TypeId) : Body → Reading Expr
  | .literal text => .ofExcept (State.specific { symbols, parameters } type (.literal text))
  | .reference name => .ofExcept (State.specific { symbols, parameters } type (.reference name))
  | .any => return .atom (symbols.javaName type) .any
  | .anyOrOmit => return .atom (symbols.javaName type) .anyOrOmit
  | .other description => unsupportedValue (symbols.javaName type) description
  | .fields assignments =>
    if symbols.isUnion type then
      Body.alternative symbols parameters (symbols.javaName type) (symbols.fields type) assignments
    else if symbols.isStructured type then do
      let fields := symbols.fields type
      let given ← Body.assigned symbols parameters (symbols.javaName type) fields [] assignments
      return .named (symbols.javaName type) (fields.map fun field => (field.name, given.lookup field.name))
    else unsupportedValue (symbols.javaName type) Tag.fieldList.text
  | .elements bodies =>
    match symbols.element? type with
    | some element => do
      let values ← Body.values symbols parameters element bodies
      return .sequence (symbols.javaName type) values
    | none =>
      if symbols.isStructured type then do
        let fields := symbols.fields type
        let values ← Body.listed symbols parameters (symbols.javaName type) fields.length fields 0 bodies
        return .positional (symbols.javaName type) values
      else unsupportedValue (symbols.javaName type) Tag.elementList.text

/-- The value of the single alternative that is given for a union. -/
def Body.alternative (symbols : Symbols) (parameters : List Parameter) (type : String)
    (alternatives : List (Field TypeId)) : List (String × Body) → Reading Expr
  | [] => .fail (.noAlternative type)
  | (name, body) :: rest =>
    match Field.find? alternatives name with
    | none => .fail (.unknownAlternative type name)
    | some alternative => do
      let value ← body.value symbols parameters alternative.type
      match rest with
      | [] => return .union type name value
      | (second, _) :: _ => .fail (.severalAlternatives type name second)

/-- The values that are assigned to fields, the latest first, after the values `given`. -/
def Body.assigned (symbols : Symbols) (parameters : List Parameter) (type : String) (fields : List (Field TypeId))
    (given : List (String × Expr)) : List (String × Body) → Reading (List (String × Expr))
  | [] => return given
  | (name, body) :: rest =>
    match Field.find? fields name with
    | none => .fail (.unknownField type name)
    | some field => do
      let value ← body.value symbols parameters field.type
      Reading.remark (if (given.lookup name).isSome then [.repeatedField name type] else [])
      Body.assigned symbols parameters type fields ((name, value) :: given) rest

/-- The values of bodies at one type. -/
def Body.values (symbols : Symbols) (parameters : List Parameter) (type : TypeId) : List Body → Reading (List Expr)
  | [] => return []
  | body :: rest => do
    let value ← body.value symbols parameters type
    let values ← Body.values symbols parameters type rest
    return value :: values

/-- The values of list notation for the given fields, of which the first is the one with the given index. Fields that
    are not reached have none, and elements for which there is no field are not translated. -/
def Body.listed (symbols : Symbols) (parameters : List Parameter) (type : String) (count : Nat)
    (fields : List (Field TypeId)) (index : Nat) : List Body → Reading (List (Option Expr))
  | [] => return fields.map fun _ => none
  | body :: rest =>
    match fields with
    | [] => do
      Reading.remark (surplusRemarks type count index (body :: rest))
      return []
    | field :: fields => do
      let value ← body.value symbols parameters field.type
      let values ← Body.listed symbols parameters type count fields (index + 1) rest
      return some value :: values
end

mutual
/-- The overrides of the part at `path`, which is of the given type. Assignment notation for a record or set overrides
    field by field; anything else overrides the part as a whole. -/
def Body.overrides (symbols : Symbols) (parameters : List Parameter) (path : FieldPath) (type : TypeId) :
    Body → Reading (List Override)
  | .fields assignments =>
    if symbols.isStructured type then
      Body.fieldOverrides symbols parameters (symbols.javaName type) path (symbols.fields type) assignments
    else do
      let value ← (Body.fields assignments).value symbols parameters type
      return [⟨path, value⟩]
  | body => do
    let value ← body.value symbols parameters type
    return [⟨path, value⟩]

/-- The overrides of the fields that are assigned. -/
def Body.fieldOverrides (symbols : Symbols) (parameters : List Parameter) (type : String) (path : FieldPath)
    (fields : List (Field TypeId)) : List (String × Body) → Reading (List Override)
  | [] => return []
  | (name, body) :: rest =>
    match Field.find? fields name with
    | none => .fail (.unknownField type name)
    | some field => do
      let overrides ← body.overrides symbols parameters (path.child name) field.type
      let more ← Body.fieldOverrides symbols parameters type path fields rest
      return overrides ++ more
end

/-! ### Definitions -/

/-- The formal parameters of a definition. -/
def readParameters (symbols : Symbols) : List (TypeUse × String) → Reading (List Parameter)
  | [] => return []
  | (use, name) :: rest =>
    match symbols.lookup use with
    | none => .fail (.unknownType use.name)
    | some type => do
      let parameters ← readParameters symbols rest
      return ⟨symbols.javaName type, name⟩ :: parameters

/-- The template of a definition of the given type with the given formal parameters, after the templates that are
    already there. -/
def Definition.content (definition : Definition) (symbols : Symbols) (templates : List Template) (type : TypeId)
    (parameters : List Parameter) : Reading Template :=
  match definition.base with
  | none => do
    let value ← definition.body.value symbols parameters type
    return ⟨definition.name, symbols.javaName type, some value, parameters, []⟩
  | some base =>
    if templates.any fun template => template.name == base then do
      let overrides ← definition.body.overrides symbols parameters .root type
      let call := Expr.atom (symbols.javaName type) (.baseCall base)
      return ⟨definition.name, symbols.javaName type, some call, parameters, overrides⟩
    else .fail (.unknownBase base)

/-- The template of a definition of the given type. -/
def Definition.template (definition : Definition) (symbols : Symbols) (templates : List Template) (type : TypeId) :
    Reading Template := do
  let parameters ← readParameters symbols definition.parameters
  definition.content symbols templates type parameters

/-- Reports remarks on the template of the given name. -/
def Registry.remarkAll (registry : Registry) (name : String) (remarks : List Remark) : Registry :=
  { registry with diagnostics := registry.diagnostics ++ remarks.map fun remark => ⟨some name, .remark remark⟩ }

/-- The registry after a definition. A type that is not known is reported before the definition has its name. -/
def Definition.translate (symbols : Symbols) (registry : Registry) (definition : Definition) : Registry :=
  match symbols.lookup definition.type with
  | none => registry.report ⟨none, .fault (.unknownType definition.type.name)⟩
  | some type =>
    let reading := definition.template symbols registry.templates type
    let registry := registry.remarkAll definition.name reading.remarks
    match reading.result with
    | .ok template => registry.add template
    | .error fault => registry.report ⟨definition.name, .fault fault⟩

/-- The registry of a module. -/
def translate (symbols : Symbols) (name : String) (definitions : List Definition) : Registry :=
  definitions.foldl (Definition.translate symbols) { name := some name }

end TtcnTemplates
