import Mathlib.Data.List.Nodup
import TtcnTemplates.Proofs.Renaming
import TtcnTemplates.Proofs.Resolution
import TtcnTemplates.Template.Source

/-! # The order of declarations

Types are numbered in the order in which they come: first the built-in ones, in an order that is not fixed, then the
declared ones. In another order the same declarations give the same table under other numbers
(`Declarations.resolveIn_renames`), and so the same source (`compile_declaration_order`).
-/

namespace TtcnTemplates

/-! ### Adding declarations -/

/-- One declaration of a module. -/
inductive Declaration where
  | type (type : TypeDeclaration)
  | constant (name : String)
deriving DecidableEq, Repr

namespace Declaration

/-- The declared name. -/
def name : Declaration → String
  | .type declared => declared.name
  | .constant declared => declared

/-- The type that is declared. -/
def type? : Declaration → Option TypeDeclaration
  | .type declared => some declared
  | .constant _ => none

/-- The constant that is declared. -/
def constant? : Declaration → Option String
  | .type _ => none
  | .constant declared => some declared

/-- The names of the declared types are among the declared names. -/
theorem names_sublist (declarations : List Declaration) :
    ((declarations.filterMap type?).map TypeDeclaration.name).Sublist (declarations.map name) := by
  induction declarations with
  | nil => exact .slnil
  | cons declaration rest ih =>
    cases declaration with
    | type type => exact ih.cons_cons _
    | constant name => exact ih.cons _

end Declaration

namespace Declarations

/-- Adds a declaration, unless its name is taken. -/
def add (declarations : Declarations) : Declaration → Option Declarations
  | .type type => declarations.addType type
  | .constant name => declarations.addConstant name

/-- Adds declarations in order, unless a name is taken. -/
def addAll (declarations : Declarations) (more : List Declaration) : Option Declarations := more.foldlM add declarations

theorem add_of_fresh {declarations : Declarations} {declaration : Declaration}
    (fresh : declaration.name ∉ declarations.names) :
    declarations.add declaration = some
      ⟨declarations.types ++ declaration.type?.toList, declarations.constants ++ declaration.constant?.toList⟩ := by
  cases declaration with
  | type type => simp [add, addType, show type.name ∉ declarations.names from fresh, Declaration.type?,
      Declaration.constant?]
  | constant name => simp [add, addConstant, show name ∉ declarations.names from fresh, Declaration.type?,
      Declaration.constant?]

/-- A declaration takes no name but its own. -/
theorem mem_names_of_add {declarations : Declarations} {declaration : Declaration} {name : String}
    (taken : name ∈ names
      ⟨declarations.types ++ declaration.type?.toList, declarations.constants ++ declaration.constant?.toList⟩) :
    name ∈ declarations.names ∨ name = declaration.name := by
  cases declaration with
  | type declared =>
    simp only [names, Declaration.type?, Declaration.constant?, Option.toList, List.map_append, List.map_cons,
      List.map_nil,
      List.append_nil, List.mem_append, List.mem_singleton] at taken ⊢
    rcases taken with (type | own) | constant
    · exact .inl (.inl type)
    · exact .inr own
    · exact .inl (.inr constant)
  | constant declared =>
    simp only [names, Declaration.type?, Declaration.constant?, Option.toList, List.append_nil, List.mem_append,
      List.mem_singleton] at taken ⊢
    rcases taken with type | constant | own
    · exact .inl (.inl type)
    · exact .inl (.inr constant)
    · exact .inr own

/-- Declarations with different names can all be added. -/
theorem addAll_of_nodup {declarations : Declarations} {more : List Declaration}
    (fresh : ∀ declaration ∈ more, declaration.name ∉ declarations.names)
    (distinct : (more.map Declaration.name).Nodup) :
    declarations.addAll more = some
      ⟨declarations.types ++ more.filterMap Declaration.type?,
        declarations.constants ++ more.filterMap Declaration.constant?⟩ := by
  induction more generalizing declarations with
  | nil => simp [addAll]
  | cons declaration rest ih =>
    obtain ⟨here, later⟩ := List.forall_mem_cons.mp fresh
    obtain ⟨unused, distinct⟩ := List.nodup_cons.mp distinct
    rw [addAll, List.foldlM_cons, add_of_fresh here]
    change addAll _ rest = _
    rw [ih ?_ distinct]
    · simp only [List.append_assoc, List.filterMap_cons]
      cases declaration <;> rfl
    · intro other member taken
      rcases mem_names_of_add taken with earlier | same
      · exact later other member earlier
      · exact unused (same ▸ List.mem_map_of_mem member)

/-- Declarations, with the types apart from the constants. -/
def ofList (list : List Declaration) : Declarations where
  types := list.filterMap Declaration.type?
  constants := list.filterMap Declaration.constant?

theorem addAll_empty {list : List Declaration} (distinct : (list.map Declaration.name).Nodup) :
    addAll {} list = some (ofList list) := by
  have fresh : ∀ declaration ∈ list, declaration.name ∉ names {} := fun _ _ => List.not_mem_nil
  rw [addAll_of_nodup fresh distinct, List.nil_append, List.nil_append, ofList]

end Declarations

/-! ### Where the types of a table come from -/

/-- What a type of a table comes from. -/
inductive TypeOrigin where
  | builtin (type : Builtin)
  | declared (type : TypeDeclaration)

namespace TypeOrigin

/-- How a type is used. -/
def use : TypeOrigin → TypeUse
  | .builtin type => .builtin type.name
  | .declared type => .declared type.name

/-- The entry of a type. -/
def resolve (lookup : TypeUse → Option TypeId) : TypeOrigin → Except TypeFault TypeEntry
  | .builtin type => .ok type.entry
  | .declared type => type.resolve lookup

end TypeOrigin

/-- What the types of a table come from, by number. -/
def Declarations.origins (order : List Builtin) (declarations : Declarations) : List TypeOrigin :=
  order.map .builtin ++ declarations.types.map .declared

/-- If all names are different, a name gives the number under which it stands. -/
theorem numbered_lookup_iff {first : Nat} {names : List String} (distinct : names.Nodup) {name : String} {id : TypeId} :
    (numbered first names).lookup name = some id ↔ ∃ index, names[index]? = some name ∧ id = ⟨first + index⟩ := by
  refine ⟨numbered_lookup, ?_⟩
  rintro ⟨index, there, rfl⟩
  cases found : (numbered first names).lookup name with
  | none =>
    have member : (name, (⟨first + index⟩ : TypeId)) ∈ numbered first names := by
      refine List.mem_map.mpr ⟨(name, first + index), ?_, rfl⟩
      rw [List.mem_iff_getElem?]
      exact ⟨index, by simp [List.getElem?_zipIdx, there]⟩
    have absent := List.lookup_eq_none_iff.mp found _ member
    simp at absent
  | some id =>
    obtain ⟨index', there', rfl⟩ := numbered_lookup found
    have bound := (List.getElem?_eq_some_iff.mp there).1
    rw [(List.getElem?_inj bound distinct).mp (there.trans there'.symm)]

namespace Declarations

variable {order order' : List Builtin} {declarations declarations' : Declarations}

theorem map_use_origins (order : List Builtin) (declarations : Declarations) :
    (declarations.origins order).map TypeOrigin.use =
      (order.map Builtin.name).map .builtin ++ (declarations.types.map TypeDeclaration.name).map .declared := by
  simp [origins, Function.comp_def, TypeOrigin.use]

theorem getElem?_use_builtin {builtins declared : List String} {index : Nat} {name : String} :
    (builtins.map TypeUse.builtin ++ declared.map .declared)[index]? = some (.builtin name) ↔
      builtins[index]? = some name := by
  by_cases bound : index < builtins.length
  · rw [List.getElem?_append_left (by simpa using bound)]
    simp
  · rw [List.getElem?_append_right (by simpa using bound), List.getElem?_eq_none (Nat.le_of_not_lt bound)]
    simp

theorem getElem?_use_declared {builtins declared : List String} {index : Nat} {name : String} :
    (builtins.map TypeUse.builtin ++ declared.map .declared)[index]? = some (.declared name) ↔
      ∃ later, declared[later]? = some name ∧ index = builtins.length + later := by
  constructor
  · intro there
    by_cases bound : index < builtins.length
    · rw [List.getElem?_append_left (by simpa using bound)] at there
      simp at there
    · rw [List.getElem?_append_right (by simpa using bound)] at there
      exact ⟨index - builtins.length, by simpa using there, by omega⟩
  · rintro ⟨later, there, rfl⟩
    rw [List.getElem?_append_right (by simp)]
    simpa using there

/-- A type is used by what stands under its number. -/
theorem outline_lookup_iff (distinct : ((declarations.origins order).map TypeOrigin.use).Nodup) {use : TypeUse}
    {id : TypeId} :
    (declarations.outline order).lookup use = some id ↔
      ((declarations.origins order).map TypeOrigin.use)[id.index]? = some use := by
  rw [map_use_origins, List.nodup_append] at distinct
  rw [map_use_origins]
  obtain ⟨index⟩ := id
  cases use with
  | builtin name =>
    refine (numbered_lookup_iff (List.Nodup.of_map _ distinct.1)).trans ?_
    rw [getElem?_use_builtin]
    simp
  | declared name =>
    refine (numbered_lookup_iff (List.Nodup.of_map _ distinct.2.1)).trans ?_
    rw [getElem?_use_declared]
    simp

/-- A resolved table: its look-ups, its constants, and its entries by what they come from. -/
theorem of_resolveIn {symbols : Symbols} (resolved : declarations.resolveIn order = .ok symbols) :
    symbols.lookup = (declarations.outline order).lookup ∧ symbols.constants = declarations.constants ∧
      List.Forall₂ (fun origin entry => origin.resolve (declarations.outline order).lookup = .ok entry)
        (declarations.origins order) symbols.entries := by
  obtain ⟨entries, found, resolved⟩ := exists_of_bind_eq_ok resolved
  cases resolved
  refine ⟨rfl, rfl, List.rel_append ?_ ?_⟩
  · rw [List.forall₂_map_left_iff, List.forall₂_map_right_iff, List.forall₂_same]
    exact fun _ _ => rfl
  · rw [List.forall₂_map_left_iff]
    exact mapM_eq_ok_iff.mp found

/-- Declarations can be resolved if each of them can be. -/
theorem exists_resolveIn (resolves : ∀ type ∈ declarations.types,
      ∃ entry, (TypeOrigin.declared type).resolve (declarations.outline order).lookup = .ok entry) :
    ∃ symbols, declarations.resolveIn order = .ok symbols := by
  obtain ⟨entries, found⟩ := exists_mapM resolves
  simp only [TypeOrigin.resolve] at found
  exact ⟨_, by rw [resolveIn, found]; rfl⟩

end Declarations

/-! ### Resolving with renamed numbers -/

section Renamed

variable {f : TypeId → TypeId} {lookup lookup' : TypeUse → Option TypeId}
  (renamed : ∀ use, lookup' use = (lookup use).map f)

include renamed

theorem TypeUse.resolve_map (use : TypeUse) : use.resolve lookup' = (use.resolve lookup).map f := by
  rw [TypeUse.resolve, TypeUse.resolve, renamed]
  cases lookup use <;> rfl

theorem resolveFields_map (type : String) (seen : List String) (fields : List (Field TypeUse)) :
    resolveFields lookup' type seen fields =
      (resolveFields lookup type seen fields).map (List.map (Field.map f)) := by
  induction fields generalizing seen with
  | nil => rfl
  | cons field rest ih =>
    rw [resolveFields, resolveFields]
    split
    · rfl
    · rw [TypeUse.resolve_map renamed, ih]
      cases field.type.resolve lookup with
      | error fault => rfl
      | ok id => cases resolveFields lookup type (field.name :: seen) rest <;> rfl

theorem TypeShape.resolve_map (type : String) (shape : TypeShape TypeUse) :
    shape.resolve lookup' type = (shape.resolve lookup type).map (TypeShape.map f) := by
  have fields {fields : List (Field TypeUse)} {make : List (Field TypeId) → TypeShape TypeId}
      (natural : ∀ fields, make (fields.map (Field.map f)) = (make fields).map f) :
      (do return make (← resolveFields lookup' type [] fields)) =
        (do return make (← resolveFields lookup type [] fields)).map (TypeShape.map f) := by
    rw [resolveFields_map renamed]
    cases resolveFields lookup type [] fields with
    | error fault => rfl
    | ok resolved => exact congrArg Except.ok (natural resolved)
  have element {element : TypeUse} {make : TypeId → TypeShape TypeId} (natural : ∀ id, make (f id) = (make id).map f) :
      (do return make (← element.resolve lookup')) =
        (do return make (← element.resolve lookup)).map (TypeShape.map f) := by
    rw [TypeUse.resolve_map renamed]
    cases element.resolve lookup with
    | error fault => rfl
    | ok id => exact congrArg Except.ok (natural id)
  cases shape with
  | record list => exact fields fun _ => rfl
  | set list => exact fields fun _ => rfl
  | union alternatives =>
    cases alternatives with
    | nil => rfl
    | cons first rest => exact fields fun _ => rfl
  | recordOf use => exact element fun _ => rfl
  | setOf use => exact element fun _ => rfl
  | enumerated values =>
    rw [TypeShape.resolve, TypeShape.resolve]
    cases checkValues type [] values <;> rfl

/-- Renamed look-ups give a renamed entry, or the same fault. -/
theorem TypeOrigin.resolve_map (origin : TypeOrigin) :
    origin.resolve lookup' = (origin.resolve lookup).map (TypeEntry.map f) := by
  cases origin with
  | builtin type => rfl
  | declared type =>
    simp only [TypeOrigin.resolve, TypeDeclaration.resolve, TypeShape.resolve_map renamed]
    cases type.shape.resolve lookup type.name <;> rfl

end Renamed

/-! ### Tables of the same declarations -/

/-- What stands at a position of a list stands somewhere in every reordered list. -/
theorem exists_index_of_perm {α : Type} {first second : List α} (perm : first.Perm second) :
    ∃ move : Nat → Nat, ∀ index, second[move index]? = first[index]? := by
  induction perm with
  | nil => exact ⟨id, fun _ => rfl⟩
  | cons value _ ih =>
    obtain ⟨move, same⟩ := ih
    refine ⟨fun index => if index = 0 then 0 else move (index - 1) + 1, ?_⟩
    intro index
    cases index with
    | zero => rfl
    | succ index => simpa using same index
  | swap first second rest =>
    refine ⟨fun index => if index = 0 then 1 else if index = 1 then 0 else index, ?_⟩
    intro index
    obtain _ | _ | index := index
    · rfl
    · rfl
    · rfl
  | trans _ _ left right =>
    obtain ⟨move, same⟩ := left
    obtain ⟨move', same'⟩ := right
    exact ⟨move' ∘ move, fun index => (same' (move index)).trans (same index)⟩

theorem rel_getElem? {α β : Type} {related : α → β → Prop} {first : List α} {second : List β}
    (all : List.Forall₂ related first second) (index : Nat) : Option.Rel related first[index]? second[index]? := by
  induction all generalizing index with
  | nil => exact .none
  | cons here _ ih =>
    cases index with
    | zero => exact .some here
    | succ index => exact ih index

namespace Declarations

variable {order order' : List Builtin} {declarations declarations' : Declarations}

/-- If the types of two tables come from the same, one table has the numbers of the other one renamed. -/
theorem outline_lookup_perm (distinct : ((declarations.origins order).map TypeOrigin.use).Nodup)
    (perm : (declarations.origins order).Perm (declarations'.origins order')) {move : Nat → Nat}
    (moved : ∀ index, (declarations'.origins order')[move index]? = (declarations.origins order)[index]?)
    (use : TypeUse) :
    (declarations'.outline order').lookup use =
      ((declarations.outline order).lookup use).map fun id => ⟨move id.index⟩ := by
  have perm := perm.map TypeOrigin.use
  have distinct' := perm.nodup_iff.mp distinct
  cases found : (declarations.outline order).lookup use with
  | some id =>
    rw [outline_lookup_iff distinct, List.getElem?_map, ← moved, ← List.getElem?_map] at found
    exact (outline_lookup_iff distinct').mpr found
  | none =>
    cases found' : (declarations'.outline order').lookup use with
    | none => rfl
    | some id =>
      -- What the second table knows stands somewhere in the first.
      have member := perm.mem_iff.mpr (List.mem_of_getElem? ((outline_lookup_iff distinct').mp found'))
      obtain ⟨index, there⟩ := List.mem_iff_getElem?.mp member
      have known : (declarations.outline order).lookup use = some ⟨index⟩ := (outline_lookup_iff distinct).mpr there
      rw [found] at known
      cases known

/-- Declarations that are in another order are resolved as well, into a table with the numbers renamed. -/
theorem resolveIn_renames (distinct : ((declarations.origins order).map TypeOrigin.use).Nodup)
    (builtins : order.Perm order') (types : declarations.types.Perm declarations'.types)
    (constants : declarations.constants.Perm declarations'.constants) {symbols : Symbols}
    (resolved : declarations.resolveIn order = .ok symbols) :
    ∃ symbols' f, declarations'.resolveIn order' = .ok symbols' ∧ symbols.Renames f symbols' := by
  have perm : (declarations.origins order).Perm (declarations'.origins order') := (builtins.map _).append (types.map _)
  obtain ⟨move, moved⟩ := exists_index_of_perm perm
  have renamed := outline_lookup_perm distinct perm moved
  obtain ⟨lookup, sameConstants, entries⟩ := of_resolveIn resolved
  obtain ⟨symbols', resolved'⟩ : ∃ symbols', declarations'.resolveIn order' = .ok symbols' := by
    refine exists_resolveIn fun type member => ?_
    have known : TypeOrigin.declared type ∈ declarations.origins order :=
      List.mem_append_right _ (List.mem_map_of_mem (types.mem_iff.mpr member))
    obtain ⟨index, there⟩ := List.mem_iff_getElem?.mp known
    have made := rel_getElem? entries index
    rw [there] at made
    generalize symbols.entries[index]? = entry at made
    cases made with
    | some made => exact ⟨_, by rw [TypeOrigin.resolve_map renamed, made]; rfl⟩
  obtain ⟨lookup', sameConstants', entries'⟩ := of_resolveIn resolved'
  refine ⟨symbols', fun id => ⟨move id.index⟩, resolved', ?_, ?_, ?_⟩
  · intro use
    rw [lookup, lookup']
    exact renamed use
  · intro id
    have here := rel_getElem? entries id.index
    have there := rel_getElem? entries' (move id.index)
    rw [moved] at there
    rw [Symbols.entry?, Symbols.entry?]
    generalize symbols.entries[id.index]? = entry at here
    generalize symbols'.entries[move id.index]? = entry' at there
    generalize (declarations.origins order)[id.index]? = origin at here there
    -- Both entries come from what stands under the number in the first table.
    cases here with
    | none =>
      cases there
      rfl
    | some made =>
      cases there with
      | some made' =>
        rw [TypeOrigin.resolve_map renamed, made] at made'
        cases made'
        rfl
  · intro name
    rw [Symbols.isConstant, Symbols.isConstant, sameConstants, sameConstants', Bool.eq_iff_iff]
    simpa using constants.mem_iff.symm

/-- Every type of a table is used in its own way. -/
theorem nodup_origins (all : order.Perm Builtin.all) (distinct : (declarations.types.map TypeDeclaration.name).Nodup) :
    ((declarations.origins order).map TypeOrigin.use).Nodup := by
  have builtins : (order.map Builtin.name).Nodup := (all.map _).nodup_iff.mpr (by decide)
  rw [map_use_origins, List.nodup_append]
  refine ⟨builtins.map ?_, distinct.map ?_, ?_⟩
  · intro first second same
    cases same
    rfl
  · intro first second same
    cases same
    rfl
  · intro first isBuiltin second isDeclared same
    obtain ⟨name, -, rfl⟩ := List.mem_map.mp isBuiltin
    obtain ⟨name', -, rfl⟩ := List.mem_map.mp isDeclared
    cases same

/-- Reordered declarations are resolved both or neither, and if they are, the tables differ only in their numbers. -/
theorem resolveIn_perm (distinct : ((declarations.origins order).map TypeOrigin.use).Nodup)
    (builtins : order.Perm order') (types : declarations.types.Perm declarations'.types)
    (constants : declarations.constants.Perm declarations'.constants) :
    (∃ fault fault', declarations.resolveIn order = .error fault ∧ declarations'.resolveIn order' = .error fault') ∨
      ∃ symbols symbols' f, declarations.resolveIn order = .ok symbols ∧ declarations'.resolveIn order' = .ok symbols' ∧
        symbols.Renames f symbols' := by
  cases resolved : declarations.resolveIn order with
  | ok symbols =>
    obtain ⟨symbols', f, resolved', renames⟩ := resolveIn_renames distinct builtins types constants resolved
    exact .inr ⟨symbols, symbols', f, rfl, resolved', renames⟩
  | error fault =>
    cases resolved' : declarations'.resolveIn order' with
    | error fault' => exact .inl ⟨fault, fault', rfl, rfl⟩
    | ok symbols' =>
      have perm : (declarations.origins order).Perm (declarations'.origins order') :=
        (builtins.map _).append (types.map _)
      have distinct' := (perm.map TypeOrigin.use).nodup_iff.mp distinct
      obtain ⟨symbols, -, found, -⟩ := resolveIn_renames distinct' builtins.symm types.symm constants.symm resolved'
      rw [resolved] at found
      cases found

end Declarations

/-- The built-in types come in some order, and so do declarations with different names. In any two orders, either
    neither table can be resolved, or both can, and then every module gets the same name, templates, diagnostics and
    source from both. -/
theorem compile_declaration_order (order order' : List Builtin) (all : order.Perm Builtin.all)
    (all' : order'.Perm Builtin.all) (list list' : List Declaration) (distinct : (list.map Declaration.name).Nodup)
    (reordered : list.Perm list') :
    ∃ declarations declarations', Declarations.addAll {} list = some declarations ∧
      Declarations.addAll {} list' = some declarations' ∧
      ((∃ fault fault', declarations.resolveIn order = .error fault ∧ declarations'.resolveIn order' = .error fault') ∨
        ∃ symbols symbols', declarations.resolveIn order = .ok symbols ∧ declarations'.resolveIn order' = .ok symbols' ∧
          ∀ tree : Tree,
            let registry := (compile symbols tree).registry
            let registry' := (compile symbols' tree).registry
            registry'.name = registry.name ∧ registry'.templates = registry.templates ∧
              registry'.diagnostics = registry.diagnostics ∧
              ∀ indent, registry'.source indent = registry.source indent) := by
  have distinct' : (list'.map Declaration.name).Nodup := (reordered.map _).nodup_iff.mp distinct
  refine ⟨_, _, Declarations.addAll_empty distinct, Declarations.addAll_empty distinct', ?_⟩
  have uses : (((Declarations.ofList list).origins order).map TypeOrigin.use).Nodup :=
    Declarations.nodup_origins all ((Declaration.names_sublist list).nodup distinct)
  have types : (Declarations.ofList list).types.Perm (Declarations.ofList list').types := reordered.filterMap _
  have constants : (Declarations.ofList list).constants.Perm (Declarations.ofList list').constants :=
    reordered.filterMap _
  rcases Declarations.resolveIn_perm uses (all.trans all'.symm) types constants with
    neither | ⟨symbols, symbols', f, resolved, resolved', renames⟩
  · exact .inl neither
  · refine .inr ⟨symbols, symbols', resolved, resolved', fun tree => ?_⟩
    have same : (compile symbols' tree).registry = (compile symbols tree).registry := by
      rw [compile_renames renames]
      rfl
    rw [same]
    exact ⟨rfl, rfl, rfl, fun _ => rfl⟩

/-- A record and an enumeration that it uses, with a constant between them, in both orders: the record has different
    numbers in the two tables. -/
theorem compile_declaration_order_reversed :
    let record := Declaration.type ⟨"R", .record [⟨"a", .builtin "integer"⟩, ⟨"e", .declared "E"⟩]⟩
    let enumeration := Declaration.type ⟨"E", .enumerated ["on", "off"]⟩
    let list := [record, .constant "c", enumeration]
    ∃ declarations declarations' symbols symbols', Declarations.addAll {} list = some declarations ∧
      Declarations.addAll {} list.reverse = some declarations' ∧
      declarations.resolveIn Builtin.all = .ok symbols ∧
      declarations'.resolveIn Builtin.all.reverse = .ok symbols' ∧
      symbols.lookup (.declared "R") = some ⟨9⟩ ∧ symbols'.lookup (.declared "R") = some ⟨10⟩ ∧
      ∀ tree : Tree, (compile symbols' tree).registry.templates = (compile symbols tree).registry.templates ∧
        (compile symbols' tree).registry.source 0 = (compile symbols tree).registry.source 0 := by
  intro record enumeration list
  obtain ⟨declarations, declarations', added, added', outcome⟩ :=
    compile_declaration_order Builtin.all Builtin.all.reverse (.refl _) (List.reverse_perm _) list list.reverse
      (by decide) (List.reverse_perm list).symm
  have first : declarations = .ofList list :=
    Option.some.inj (added.symm.trans (Declarations.addAll_empty (by decide)))
  have second : declarations' = .ofList list.reverse :=
    Option.some.inj (added'.symm.trans (Declarations.addAll_empty (by decide)))
  rcases outcome with ⟨fault, -, failed, -⟩ | ⟨symbols, symbols', resolved, resolved', same⟩
  · have succeeds : (declarations.resolveIn Builtin.all).isOk = true := by
      rw [first]
      decide +kernel
    rw [failed] at succeeds
    cases succeeds
  · refine ⟨declarations, declarations', symbols, symbols', added, added', resolved, resolved', ?_, ?_, fun tree => ?_⟩
    · rw [(Declarations.of_resolveIn resolved).1, first]
      decide +kernel
    · rw [(Declarations.of_resolveIn resolved').1, second]
      decide +kernel
    · obtain ⟨-, templates, -, source⟩ := same tree
      exact ⟨templates, source 0⟩

end TtcnTemplates
