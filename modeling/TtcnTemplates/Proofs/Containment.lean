import TtcnTemplates.Proofs.Grammar
import TtcnTemplates.Proofs.Registration
import TtcnTemplates.Proofs.Resolution
import TtcnTemplates.Proofs.SourceTokens

/-! # Texts stay in their tokens

The names in the source of a module come from its declarations and from the names that its tree gives. If these are
identifiers, then whatever the literals, the references and the descriptions in the tree are, no character of theirs is
read as anything but the content of a string literal or of a comment.
-/

namespace TtcnTemplates

open Java (Alphabet)

/-! ### Literals -/

namespace Literal

/-- The characters of numbers and of strings of digits. -/
def isNumeral (c : Char) : Bool := isHex c || c == '+' || c == '-' || c == '.'

/-- A literal whose text is kept as it is has such characters only. -/
def Numeral : Literal → Prop
  | .real text => text.toList.all isNumeral = true
  | .bitString digits => digits.toList.all isNumeral = true
  | .hexString digits => digits.toList.all isNumeral = true
  | .octetString digits => digits.toList.all isNumeral = true
  | _ => True

theorem IsDigits.numeral {digits : List Char} (isDigits : IsDigits digits) : digits.all isNumeral = true := by
  rw [List.all_eq_true]
  intro c member
  simp [isNumeral, isHex, isDigit_iff.mpr (isDigits.2 c member)]

theorem IsExponent.numeral {exponent : List Char} (isExponent : IsExponent exponent) :
    exponent.all isNumeral = true := by
  obtain ⟨isLetter, isSign, isDigits⟩ := isExponent
  rw [List.all_cons, List.all_append, isDigits.numeral]
  rcases isLetter with rfl | rfl <;> rcases isSign with rfl | rfl | rfl <;> decide

theorem IsTail.numeral {tail : List Char} (isTail : IsTail tail) : tail.all isNumeral = true := by
  have point : isNumeral '.' = true := by decide
  cases isTail with
  | point isDigits => simp only [List.all_cons, point, isDigits.numeral, Bool.and_self]
  | pointExponent isDigits isExponent =>
    simp only [List.all_cons, List.all_append, point, isDigits.numeral, isExponent.numeral, Bool.and_self]
  | exponent isExponent => exact isExponent.numeral

theorem numeral_of_hex {digits : List Char} (hex : ∀ c ∈ digits, c ∈ hexDigits) : digits.all isNumeral = true := by
  rw [List.all_eq_true]
  intro c member
  simp [isNumeral, isHex_iff.mpr (hex c member)]

theorem Denotes.numeral {token : List Char} {literal : Literal} (denotes : Denotes token literal) :
    literal.Numeral := by
  cases denotes with
  | @keyword word _ member =>
    have keeps : ∀ pair ∈ keywords, pair.2.Numeral := by simp [keywords, Numeral]
    exact keeps (word, literal) member
  | integer | negative | charString => trivial
  | real isSign isDigits isTail =>
    rw [Numeral, String.toList_ofList, List.all_append, List.all_append, isDigits.numeral, isTail.numeral]
    rcases isSign with rfl | rfl <;> decide
  | bitString bits =>
    refine numeral_of_hex fun c member => ?_
    rcases bits c member with rfl | rfl <;> decide
  | hexString hex => exact numeral_of_hex hex
  | octetString hex pairs => exact numeral_of_hex hex

/-- Nothing in a number ends a string literal or begins an escape in it. -/
theorem inString_of_numeral {text : List Char} (numeral : text.all isNumeral = true) : Java.InString text := by
  have none : ['"', '\\', '\n', '\r'].all (fun c => !isNumeral c) = true := by decide
  refine .of_forall fun c member special => ?_
  have other := List.all_eq_true.mp none c special
  rw [List.all_eq_true.mp numeral c member] at other
  cases other

theorem repr_numeral (value : Int) : value.repr.toList.all isNumeral = true := by
  have natural (n : Nat) : n.repr.toList.all isNumeral = true := by
    rw [Nat.toList_repr]
    exact (isDigits_toDigits n).numeral
  cases value with
  | ofNat n => exact natural n
  | negSucc n =>
    rw [Int.repr, String.toList_append, List.all_append, natural]
    decide

/-- The literal of a token is fit for a string literal, or it is the name of a field. -/
theorem atom_written {alphabet : Alphabet} {token : String} {literal : Literal} (read : ofText? token = some literal) :
    literal.atom.Written alphabet := by
  match literal, (ofToken?_iff.mp read).numeral with
  | .boolean _, _ => trivial
  | .omit, _ => trivial
  | .verdict value, _ => exact alphabet.isIdentifier_of_latin (by cases value <;> decide)
  | .specialFloat value, _ => exact alphabet.isIdentifier_of_latin (by cases value <;> decide)
  | .integer value, _ => exact inString_of_numeral (repr_numeral value)
  | .charString text, _ => exact .escapeString text
  | .real _, numeral => exact inString_of_numeral numeral
  | .bitString _, numeral => exact inString_of_numeral numeral
  | .hexString _, numeral => exact inString_of_numeral numeral
  | .octetString _, numeral => exact inString_of_numeral numeral

end Literal

/-! ### Names -/

/-- The names that a table puts into the source are identifiers. -/
structure Symbols.Named (alphabet : Alphabet) (symbols : Symbols) : Prop where
  type {type : TypeId} (known : symbols.Has type) : alphabet.isIdentifier (symbols.javaName type) = true
  field {type : TypeId} {field : Field TypeId} (member : field ∈ symbols.fields type) :
    alphabet.isIdentifier field.name = true
  value {type : TypeId} {name : String} (isValue : symbols.hasValue type name = true) :
    alphabet.isIdentifier name = true
  constant {name : String} (isConstant : symbols.isConstant name = true) : alphabet.isIdentifier name = true

/-- The names in declarations: of types, of their fields, alternatives and values, and of constants. -/
def Declarations.labels (declarations : Declarations) : List String :=
  declarations.names ++ declarations.types.flatMap fun type => type.shape.labels

variable {alphabet : Alphabet} {symbols : Symbols}

theorem TypeShape.name_mem_labels {shape : TypeShape TypeId} {field : Field TypeId} (member : field ∈ shape.fields) :
    field.name ∈ shape.labels := by
  cases shape with
  | record fields => exact List.mem_map_of_mem member
  | set fields => exact List.mem_map_of_mem member
  | union alternatives => exact List.mem_map_of_mem member
  | _ => cases member

theorem Declarations.resolveIn_named {order : List Builtin} {declarations : Declarations}
    (resolved : declarations.resolveIn order = .ok symbols)
    (names : ∀ name ∈ declarations.labels, alphabet.isIdentifier name = true) : symbols.Named alphabet := by
  have inside {type : TypeId} {shape : TypeShape TypeId} {name : String} (found : symbols.shape? type = some shape)
      (member : name ∈ shape.labels) : alphabet.isIdentifier name = true := by
    obtain ⟨declaration, among, read⟩ := exists_of_shape? resolved found
    rw [TypeShape.resolve_labels read] at member
    exact names name (List.mem_append_right _ (List.mem_flatMap.mpr ⟨declaration, among, member⟩))
  refine ⟨?type, ?field, ?value, ?constant⟩
  case type =>
    intro type known
    have entry := List.getElem?_eq_getElem known
    rw [Symbols.javaName, Symbols.entry?, entry, Option.elim_some]
    have origin := mem_entries resolved (List.mem_of_getElem? entry)
    rcases origin with ⟨builtin, isEntry⟩ | ⟨declaration, among, shape, -, isEntry⟩
    · rw [isEntry]
      exact alphabet.isIdentifier_of_latin (by cases builtin <;> decide)
    · rw [isEntry]
      exact names _ (List.mem_append_left _ (List.mem_append_left _ (List.mem_map_of_mem among)))
  case field =>
    intro type field member
    rw [Symbols.fields_eq] at member
    cases found : symbols.shape? type with
    | none => simp [found] at member
    | some shape =>
      rw [found] at member
      exact inside found (TypeShape.name_mem_labels member)
  case value =>
    intro type name isValue
    rw [Symbols.hasValue] at isValue
    split at isValue
    · rename_i values found
      exact inside found (List.contains_iff_mem.mp isValue)
    · cases isValue
  case constant =>
    intro name isConstant
    obtain ⟨entries, -, same⟩ := exists_of_bind_eq_ok resolved
    cases same
    exact names name (List.mem_append_left _ (List.mem_append_right _ (List.contains_iff_mem.mp isConstant)))

/-! ### Compiled modules -/

theorem Atom.Arises.written {type : TypeId} {leaf : Atom} (named : symbols.Named alphabet)
    (arises : leaf.Arises symbols (fun name => alphabet.isIdentifier name = true) type) : leaf.Written alphabet := by
  match leaf, arises with
  | .parameter _, given => exact given
  | .baseCall _, given => exact given
  | .constant _, isConstant => exact named.constant isConstant
  | .enumerated _, isValue => exact named.value isValue
  | .literal _, ⟨_, _, read, same⟩ => exact same ▸ Literal.atom_written read
  | .keyword _, ⟨_, _, read, same⟩ => exact same ▸ Literal.atom_written read
  | .any, _ => trivial
  | .anyOrOmit, _ => trivial
  | .omitted, _ => trivial
  | .boolean _, _ => trivial
  | .unsupported _, _ => trivial

theorem Expr.Forms.written (named : symbols.Named alphabet) {type : TypeId} {value : Expr}
    (forms : value.Forms symbols (fun name => alphabet.isIdentifier name = true) type) : value.Written alphabet := by
  have field {type : TypeId} {slots : List Slot} (fields : slots.map Slot.field = symbols.fields type) {slot : Slot}
      (member : slot ∈ slots) : alphabet.isIdentifier slot.field.name = true :=
    named.field (fields ▸ List.mem_map_of_mem member)
  induction forms with
  | atom known arises => exact .atom (named.type known) (arises.written named)
  | named structured fields values ih =>
    refine .named (named.type (Symbols.has_of_isStructured structured)) ?_ ?_
    · exact List.forall_mem_map.mpr fun slot member => field fields member
    · exact List.forall_mem_map.mpr ih
  | positional structured fields values ih =>
    exact .positional (named.type (Symbols.has_of_isStructured structured)) (List.forall_mem_map.mpr ih)
  | sequence found values ih => exact .sequence (named.type (Symbols.has_of_element? found)) ih
  | union isUnion member inner ih =>
    exact .union (named.type (Symbols.has_of_isUnion isUnion)) (named.field member) ih

theorem Symbols.Leads.named (named : symbols.Named alphabet) {root type : TypeId} {path : List String}
    (leads : symbols.Leads root path type) : ∀ field ∈ path, alphabet.isIdentifier field = true := by
  induction leads with
  | root => exact nofun
  | field rest structured member ih =>
    rw [List.forall_mem_append, List.forall_mem_singleton]
    exact ⟨ih, named.field member⟩

theorem Template.Forms.written (named : symbols.Named alphabet) {roots : List TypeId} {template : Template}
    (forms : template.Forms symbols (fun name => alphabet.isIdentifier name = true) roots) :
    template.Written alphabet := by
  refine ⟨forms.name, ?type, ?value, ?parameters, ?paths, ?overrides⟩
  case type =>
    obtain ⟨type, last, isType⟩ := forms.type
    rw [isType]
    exact named.type (forms.known type (List.mem_of_getLast? last))
  case value =>
    intro value isValue
    obtain ⟨type, -, made⟩ := forms.value value isValue
    exact made.written named
  case parameters =>
    intro parameter member
    obtain ⟨given, type, known, isType⟩ := forms.parameters parameter member
    exact ⟨isType ▸ named.type known, given⟩
  case paths =>
    intro override member
    obtain ⟨root, -, type, leads, -⟩ := forms.overrides override member
    exact leads.named named
  case overrides =>
    intro override member
    obtain ⟨root, -, type, -, made⟩ := forms.overrides override member
    exact made.written named

/-- The names that a node gives: of templates, parameters, fields, alternatives and bases. -/
def Form.names : Form → List String
  | .identifier name => [name]
  | .base name => [name]
  | _ => []

mutual
/-- The names that the nodes of a tree give. -/
def Tree.names : Tree → List String
  | ⟨form, children⟩ => form.names ++ Tree.allNames children

/-- The names that the nodes of trees give. -/
def Tree.allNames : List Tree → List String
  | [] => []
  | tree :: rest => tree.names ++ Tree.allNames rest
end

theorem Form.gives_of_names {given : String → Prop} {form : Form} (names : ∀ name ∈ form.names, given name) :
    form.Gives given := by
  cases form with
  | identifier name => exact names name (List.mem_singleton_self name)
  | base name => exact names name (List.mem_singleton_self name)
  | _ => trivial

mutual
/-- Every event of a walk is about a node of the tree. -/
theorem Tree.gives_of_names {given : String → Prop} (tree : Tree) (names : ∀ name ∈ tree.names, given name) :
    ∀ event ∈ tree.events, event.tree.form.Gives given := by
  match tree with
  | ⟨form, children⟩ =>
    rw [Tree.names, List.forall_mem_append] at names
    have here := Form.gives_of_names names.1
    simp only [Tree.events, List.forall_mem_cons, List.forall_mem_append]
    exact ⟨⟨here, Tree.allGives_of_names children names.2⟩, here, nofun⟩

theorem Tree.allGives_of_names {given : String → Prop} (trees : List Tree)
    (names : ∀ name ∈ Tree.allNames trees, given name) :
    ∀ event ∈ Tree.allEvents trees, event.tree.form.Gives given := by
  match trees with
  | [] => exact nofun
  | tree :: rest =>
    rw [Tree.allNames, List.forall_mem_append] at names
    rw [Tree.allEvents, List.forall_mem_append]
    exact ⟨tree.gives_of_names names.1, Tree.allGives_of_names rest names.2⟩
end

theorem Compiler.finish_registry (compiler : Compiler) : compiler.finish.registry = compiler.state.registry := by
  rw [finish]
  split <;> rfl

theorem compile_written {order : List Builtin} {declarations : Declarations}
    (resolved : declarations.resolveIn order = .ok symbols)
    (declared : ∀ name ∈ declarations.labels, alphabet.isIdentifier name = true) {tree : Tree}
    (given : ∀ name ∈ tree.names, alphabet.isIdentifier name = true) :
    ∀ template ∈ (compile symbols tree).registry.templates, template.Written alphabet := by
  have forms := (Compiler.new_forms symbols fun name => alphabet.isIdentifier name = true).run
    (Declarations.resolveIn_closed resolved) (tree.gives_of_names given)
  rw [compile, Compiler.finish_registry, Compiler.walk_eq_run]
  intro template member
  obtain ⟨index, there⟩ := List.mem_iff_getElem?.mp member
  obtain ⟨roots, -, formed⟩ := forms.exists_reads there
  exact formed.written (Declarations.resolveIn_named resolved declared)

/-- If the names in the declarations and the names that the tree gives are identifiers, the source of the compiled
    module is read without error, whatever texts the tree has elsewhere. Apart from the contents of its string literals,
    its tokens are those of the same module with empty literals, descriptions and fault texts. -/
theorem lex_compiled_source (alphabet : Alphabet) (order : List Builtin) (declarations : Declarations)
    (symbols : Symbols) (resolved : declarations.resolveIn order = .ok symbols)
    (declared : ∀ name ∈ declarations.labels, alphabet.isIdentifier name = true) (tree : Tree)
    (given : ∀ name ∈ tree.names, alphabet.isIdentifier name = true) (indent : Nat) :
    let registry := (compile symbols tree).registry
    ∃ tokens, Java.lex alphabet (registry.source indent).toList = some tokens ∧
      Java.lex alphabet (registry.blank.sourceWith (fun _ => "") indent).toList =
        some (tokens.map Java.Token.blank) ∧
      Java.Balanced tokens := by
  intro registry
  have written : ∀ template ∈ registry.templates, template.Written alphabet := compile_written resolved declared given
  have blanked : ∀ template ∈ registry.blank.templates, template.Written alphabet :=
    List.forall_mem_map.mpr fun template member => (written template member).blank
  refine ⟨registry.templates.flatMap Template.tokens, ?_, ?_, ?_⟩
  · rw [Registry.source_eq_sourceWith]
    exact Registry.lex_sourceWith written Diagnostic.text indent
  · rw [Registry.lex_sourceWith blanked]
    simp [Registry.blank, List.flatMap_map, List.map_flatMap, Template.tokens_blank]
  · exact balanced_flatMap fun template _ => template.balanced

/-- A literal, a description and an unresolved reference that try to end the string literal or the comment in which they
    stand, directly and by Unicode escapes. -/
theorem lex_compiled_source_hostile :
    let declarations : Declarations :=
      { types := [⟨"R", .record [⟨"a", .builtin "charstring"⟩, ⟨"b", .declared "R"⟩]⟩] }
    let symbols : Symbols :=
      { entries := [Builtin.charstring.entry, ⟨"R", "R", some (.record [⟨"a", ⟨0⟩⟩, ⟨"b", ⟨1⟩⟩])⟩]
        builtins := [("charstring", ⟨0⟩)]
        declared := [("R", ⟨1⟩)]
        constants := [] }
    let kept := Tree.ofDefinition (.declared "R") "t1" [] none
      (.ofFields [("a", .ofLiteral "\"x\"\"); \x7d */ \\u0022\""), ("b", .ofOther "*/ \x7d \\u002a/\n\x7d")])
    let dropped := Tree.ofDefinition (.declared "R") "t2" [] none (.ofReference "y\n\x7d /* \"")
    let tree := Tree.ofModule "M" [kept, dropped]
    let registry := (compile symbols tree).registry
    declarations.resolveIn [.charstring] = .ok symbols ∧
      registry.source 0 = "// error in template t2: unresolved reference y\\n\x7d /* \"\n" ++
        "public static R t1() \x7b\n\tR value = new R(\n\t\tnew CHARSTRING(\"x\\\"); \x7d */ \\\\u0022\"),\n" ++
        "\t\tnull /* unsupported template: * / \x7d \\\\u002a/\\n\x7d */\n\t);\n\treturn value;\n\x7d\n" ∧
      ∃ tokens, Java.lex .unicode (registry.source 0).toList = some tokens ∧
        Java.lex .unicode (registry.blank.sourceWith (fun _ => "") 0).toList = some (tokens.map Java.Token.blank) ∧
        Java.Balanced tokens := by
  intro declarations symbols kept dropped tree registry
  have resolved : declarations.resolveIn [.charstring] = .ok symbols := by rfl
  have lexed := lex_compiled_source .unicode [.charstring] declarations symbols resolved (by decide +kernel) tree
    (by decide +kernel) 0
  exact ⟨resolved, by decide +kernel, lexed⟩

end TtcnTemplates
