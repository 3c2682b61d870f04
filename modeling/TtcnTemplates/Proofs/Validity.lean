import Mathlib.Data.List.Induction
import Mathlib.Tactic.MkIffOfInductiveProp
import TtcnTemplates.Proofs.DeclarationOrder

/-! # Valid declarations

A list that is checked from left to right has a first fault or none (`firstFault_of_steps`). Fields, values and
whole declarations are all checked so; what is reported is the first fault of the declarations that were added, and
there is one unless all of them are valid. The table of valid declarations says of every type what its declaration
says (`Symbols.Tabulates`).
-/

namespace TtcnTemplates

/-! ### Declarations that are left out -/

namespace Declarations

/-- The declarations with one more, unless its name is taken. -/
def offer (declarations : Declarations) (declaration : Declaration) : Declarations :=
  (declarations.add declaration).getD declarations

/-- What there is after some declarations, of which those are left out whose names are taken. -/
def offerAll (list : List Declaration) : Declarations := list.foldl offer {}

/-- The declarations of a list that are added. -/
def accepted (declarations : Declarations) : List Declaration → List Declaration
  | [] => []
  | declaration :: rest =>
    if (declarations.add declaration).isSome then declaration :: accepted (declarations.offer declaration) rest
    else accepted (declarations.offer declaration) rest

variable {declarations : Declarations} {declaration : Declaration} {list : List Declaration}

theorem add_eq_none_iff : declarations.add declaration = none ↔ declaration.name ∈ declarations.names := by
  cases declaration <;> simp [add, addType, addConstant, Declaration.name]

theorem foldl_offer (declarations : Declarations) (list : List Declaration) :
    list.foldl offer declarations =
      ⟨declarations.types ++ (declarations.accepted list).filterMap Declaration.type?,
        declarations.constants ++ (declarations.accepted list).filterMap Declaration.constant?⟩ := by
  induction list generalizing declarations with
  | nil => simp [accepted]
  | cons declaration rest ih =>
    rw [List.foldl_cons, ih, accepted]
    by_cases fresh : declaration.name ∈ declarations.names
    · rw [offer, add_eq_none_iff.mpr fresh]
      rfl
    · rw [offer, add_of_fresh fresh]
      cases declaration <;> simp [Declaration.type?, Declaration.constant?, List.filterMap_cons]

theorem offerAll_eq (list : List Declaration) : offerAll list = ofList (accepted {} list) := by
  rw [offerAll, foldl_offer, ofList, List.nil_append, List.nil_append]

theorem mem_names_ofList {name : String} : name ∈ (ofList list).names ↔ name ∈ list.map Declaration.name := by
  induction list with
  | nil => rfl
  | cons declaration rest ih =>
    rw [List.map_cons, List.mem_cons, ← ih]
    cases declaration <;> simp [ofList, names, Declaration.type?, Declaration.constant?, Declaration.name,
      or_left_comm]

/-- A declaration is left out exactly if one of its name was added. -/
theorem add_offerAll_eq_none_iff :
    (offerAll list).add declaration = none ↔ declaration.name ∈ (accepted {} list).map Declaration.name := by
  rw [add_eq_none_iff, offerAll_eq, mem_names_ofList]

theorem accepted_concat (declarations : Declarations) (list : List Declaration) (declaration : Declaration) :
    declarations.accepted (list ++ [declaration]) =
      declarations.accepted list ++
        if ((list.foldl offer declarations).add declaration).isSome then [declaration] else [] := by
  induction list generalizing declarations with
  | nil => rfl
  | cons first rest ih =>
    rw [List.cons_append, accepted, accepted, ih, List.foldl_cons]
    split <;> rfl

/-- The declarations that are added have different names. -/
theorem nodup_accepted (list : List Declaration) : ((accepted {} list).map Declaration.name).Nodup := by
  -- Whether a declaration is added depends on all before it, so the induction is on the end of the list.
  induction list using List.reverseRecOn with
  | nil => exact List.nodup_nil
  | append_singleton earlier declaration ih =>
    rw [accepted_concat]
    change (List.map _ (_ ++ if ((offerAll earlier).add declaration).isSome then _ else _)).Nodup
    split
    case isTrue added =>
      have fresh : declaration.name ∉ (accepted {} earlier).map Declaration.name := by
        rw [← add_offerAll_eq_none_iff]
        exact Option.isSome_iff_ne_none.mp added
      rw [List.map_append, List.map_singleton]
      exact List.concat_eq_append ▸ ih.concat fresh
    case isFalse => simpa using ih

end Declarations

/-! ### The first fault of a list -/

section FirstFault

variable {α β φ : Type} {faulty : List α → α → φ → Prop} {items : List α}

/-- No item of a list is faulty after the items before it. -/
def Flawless (faulty : List α → α → φ → Prop) (items : List α) : Prop :=
  ∀ before item after, items = before ++ item :: after → ∀ fault, ¬ faulty before item fault

/-- The fault of the first item of a list that is faulty after the items before it. -/
def FirstFault (faulty : List α → α → φ → Prop) (items : List α) (fault : φ) : Prop :=
  ∃ before item after, items = before ++ item :: after ∧ Flawless faulty before ∧ faulty before item fault

theorem flawless_nil : Flawless faulty [] := by
  intro before item after split
  simp at split

/-- An item of a longer list is its last one, or one of the list before it. -/
theorem concat_eq_split {last item : α} {before after : List α} (split : items ++ [last] = before ++ item :: after) :
    items = before ∧ last = item ∨ ∃ middle, items = before ++ item :: middle := by
  rcases after.eq_nil_or_concat' with rfl | ⟨middle, final, rfl⟩
  · obtain ⟨rfl, same⟩ := List.append_inj' split rfl
    exact .inl ⟨rfl, List.head_eq_of_cons_eq same⟩
  · rw [← List.cons_append, ← List.append_assoc] at split
    exact .inr ⟨middle, (List.append_inj' split rfl).1⟩

theorem flawless_concat {last : α} :
    Flawless faulty (items ++ [last]) ↔ Flawless faulty items ∧ ∀ fault, ¬ faulty items last fault := by
  constructor
  · intro flawless
    refine ⟨?_, flawless items last [] rfl⟩
    rintro before item after rfl
    exact flawless before item (after ++ [last]) (by simp)
  · rintro ⟨flawless, good⟩ before item after split
    rcases concat_eq_split split with ⟨rfl, rfl⟩ | ⟨middle, rfl⟩
    · exact good
    · exact flawless before item middle rfl

theorem not_firstFault_nil {fault : φ} : ¬ FirstFault faulty [] fault := by
  rintro ⟨before, item, after, split, -⟩
  simp at split

theorem firstFault_concat {last : α} {fault : φ} :
    FirstFault faulty (items ++ [last]) fault ↔
      FirstFault faulty items fault ∨ Flawless faulty items ∧ faulty items last fault := by
  constructor
  · rintro ⟨before, item, after, split, flawless, here⟩
    rcases concat_eq_split split with ⟨rfl, rfl⟩ | ⟨middle, rfl⟩
    · exact .inr ⟨flawless, here⟩
    · exact .inl ⟨before, item, middle, rfl, flawless, here⟩
  · rintro (⟨before, item, after, rfl, flawless, here⟩ | ⟨flawless, here⟩)
    · exact ⟨before, item, after ++ [last], by simp, flawless, here⟩
    · exact ⟨items, last, [], rfl, flawless, here⟩

/-- What is computed from left to right stops at the first fault, and succeeds if there is none. -/
theorem firstFault_of_steps (run : List α → Except φ β) {next : List α → α → β → Except φ β} {start : β}
    (nil : run [] = .ok start) (concat : ∀ items item, run (items ++ [item]) = run items >>= next items item)
    (fails : ∀ items item result fault, next items item result = .error fault ↔ faulty items item fault)
    (items : List α) :
    (∀ fault, run items = .error fault ↔ FirstFault faulty items fault) ∧
      ((∃ result, run items = .ok result) ↔ Flawless faulty items) := by
  -- The last item is only looked at if none before it is faulty.
  induction items using List.reverseRecOn with
  | nil =>
    rw [nil]
    exact ⟨fun fault => ⟨by simp, fun first => absurd first not_firstFault_nil⟩, ⟨fun _ => flawless_nil, by simp⟩⟩
  | append_singleton items item ih =>
    obtain ⟨errs, succeeds⟩ := ih
    rw [concat]
    simp only [firstFault_concat, flawless_concat, ← errs, ← succeeds]
    cases earlier : run items with
    | error fault => simp [bind, Except.bind]
    | ok result =>
      simp only [bind, Except.bind, ← fails items item result]
      cases next items item result <;> simp

end FirstFault

/-! ### Faults of a declaration -/

/-- A type that can be used: a built-in one, or one of the given names. -/
def TypeUse.Known (declared : List String) : TypeUse → Prop
  | .builtin name => name ∈ Builtin.all.map Builtin.name
  | .declared name => name ∈ declared

/-- What is wrong with a field after the fields before it. The name comes before the type. -/
inductive FieldFault (declared : List String) (type : String) (before : List (Field TypeUse)) (field : Field TypeUse) :
    TypeFault → Prop
  | duplicate (again : field.name ∈ before.map Field.name) :
      FieldFault declared type before field (.duplicateField type field.name)
  | notDefined (fresh : field.name ∉ before.map Field.name) (unknown : ¬ field.type.Known declared) :
      FieldFault declared type before field (.notDefined field.type.name)

/-- What is wrong with a value of an enumeration after the values before it. -/
inductive ValueFault (type : String) (before : List String) (value : String) : TypeFault → Prop
  | duplicate (again : value ∈ before) : ValueFault type before value (.duplicateValue type value)

/-- The first fault of a shape, as that of the type with the given name. -/
inductive ShapeFault (declared : List String) (type : String) : TypeShape TypeUse → TypeFault → Prop
  | record {fields : List (Field TypeUse)} {fault : TypeFault}
      (first : FirstFault (FieldFault declared type) fields fault) : ShapeFault declared type (.record fields) fault
  | set {fields : List (Field TypeUse)} {fault : TypeFault}
      (first : FirstFault (FieldFault declared type) fields fault) : ShapeFault declared type (.set fields) fault
  | union {alternatives : List (Field TypeUse)} {fault : TypeFault}
      (first : FirstFault (FieldFault declared type) alternatives fault) :
      ShapeFault declared type (.union alternatives) fault
  | emptyUnion : ShapeFault declared type (.union []) (.emptyUnion type)
  | recordOf {element : TypeUse} (unknown : ¬ element.Known declared) :
      ShapeFault declared type (.recordOf element) (.notDefined element.name)
  | setOf {element : TypeUse} (unknown : ¬ element.Known declared) :
      ShapeFault declared type (.setOf element) (.notDefined element.name)
  | enumerated {values : List String} {fault : TypeFault} (first : FirstFault (ValueFault type) values fault) :
      ShapeFault declared type (.enumerated values) fault

/-- The types that a shape uses. -/
def TypeShape.uses : TypeShape TypeUse → List TypeUse
  | .record fields => fields.map Field.type
  | .set fields => fields.map Field.type
  | .union alternatives => alternatives.map Field.type
  | .recordOf element => [element]
  | .setOf element => [element]
  | .enumerated _ => []

/-- A declaration without faults, if types with the given names are declared. -/
@[mk_iff]
structure TypeDeclaration.Valid (declared : List String) (type : TypeDeclaration) : Prop where
  labels : type.shape.labels.Nodup
  uses : ∀ use ∈ type.shape.uses, use.Known declared
  alternatives : type.shape ≠ .union []

theorem flawless_fields_iff {declared : List String} {type : String} {fields : List (Field TypeUse)} :
    Flawless (FieldFault declared type) fields ↔
      (fields.map Field.name).Nodup ∧ ∀ use ∈ fields.map Field.type, use.Known declared := by
  induction fields using List.reverseRecOn with
  | nil => simp [flawless_nil]
  | append_singleton fields field ih =>
    have here : (∀ fault, ¬ FieldFault declared type fields field fault) ↔
        field.name ∉ fields.map Field.name ∧ field.type.Known declared := by
      constructor
      · intro good
        have fresh : field.name ∉ fields.map Field.name := fun again => good _ (.duplicate again)
        exact ⟨fresh, Classical.byContradiction fun unknown => good _ (.notDefined fresh unknown)⟩
      · rintro ⟨fresh, known⟩ fault (again | ⟨-, unknown⟩)
        · exact fresh again
        · exact unknown known
    rw [flawless_concat, ih, here, List.map_append, List.map_singleton, ← List.concat_eq_append,
      List.nodup_concat, List.map_append, List.map_singleton, List.forall_mem_append, List.forall_mem_singleton]
    tauto

theorem flawless_values_iff {type : String} {values : List String} :
    Flawless (ValueFault type) values ↔ values.Nodup := by
  induction values using List.reverseRecOn with
  | nil => simp [flawless_nil]
  | append_singleton values value ih =>
    have here : (∀ fault, ¬ ValueFault type values value fault) ↔ value ∉ values := by
      constructor
      · exact fun good again => good _ (.duplicate again)
      · rintro fresh fault ⟨again⟩
        exact fresh again
    rw [flawless_concat, ih, here, ← List.concat_eq_append, List.nodup_concat, and_comm]

/-! ### Resolving one declaration -/

section Resolve

theorem map_eq_error_iff {ε α β : Type} {make : α → β} {result : Except ε α} {fault : ε} :
    (do return make (← result)) = Except.error fault ↔ result = .error fault := by
  cases result <;> simp [bind, Except.bind, pure, Except.pure]

theorem exists_map_eq_ok_iff {ε α β : Type} {make : α → β} {result : Except ε α} :
    (∃ value, (do return make (← result)) = Except.ok value) ↔ ∃ value, result = .ok value := by
  cases result <;> simp [bind, Except.bind, pure, Except.pure]

theorem resolveFields_concat (lookup : TypeUse → Option TypeId) (type : String) (seen : List String)
    (fields : List (Field TypeUse)) (field : Field TypeUse) :
    resolveFields lookup type seen (fields ++ [field]) = resolveFields lookup type seen fields >>= fun resolved =>
      if field.name ∈ seen ∨ field.name ∈ fields.map Field.name then .error (.duplicateField type field.name)
      else do
        let id ← field.type.resolve lookup
        return resolved ++ [⟨field.name, id⟩] := by
  induction fields generalizing seen with
  | nil =>
    simp only [List.nil_append, resolveFields, List.contains_eq_mem, decide_eq_true_eq, List.map_nil, List.not_mem_nil,
      or_false]
    rfl
  | cons first rest ih =>
    rw [List.cons_append, resolveFields, resolveFields]
    split
    · rfl
    · rw [ih]
      -- On both sides the first field is among those that the last one is compared with.
      simp only [List.map_cons, List.mem_cons, or_assoc, or_left_comm, bind_assoc, pure_bind]
      refine bind_congr fun id => bind_congr fun resolved => ?_
      split
      · rfl
      · simp

theorem checkValues_concat (type : String) (seen : List String) (values : List String) (value : String) :
    checkValues type seen (values ++ [value]) = checkValues type seen values >>= fun _ =>
      if value ∈ seen ∨ value ∈ values then .error (.duplicateValue type value) else .ok () := by
  induction values generalizing seen with
  | nil =>
    simp only [List.nil_append, checkValues, List.contains_eq_mem, decide_eq_true_eq, List.not_mem_nil, or_false]
    rfl
  | cons first rest ih =>
    rw [List.cons_append, checkValues, checkValues]
    split
    · rfl
    · rw [ih]
      simp only [List.mem_cons, or_assoc, or_left_comm]

/-- Values are checked from left to right. -/
theorem checkValues_faults (type : String) (values : List String) :
    (∀ fault, checkValues type [] values = .error fault ↔ FirstFault (ValueFault type) values fault) ∧
      ((∃ checked, checkValues type [] values = .ok checked) ↔ Flawless (ValueFault type) values) := by
  refine firstFault_of_steps (checkValues type []) rfl (checkValues_concat type []) ?_ values
  intro values value _ fault
  simp only [List.not_mem_nil, false_or]
  constructor
  · intro fails
    split at fails
    case isTrue again =>
      cases fails
      exact .duplicate again
    case isFalse => cases fails
  · rintro ⟨again⟩
    rw [if_pos again]

variable {lookup : TypeUse → Option TypeId} {declared : List String}
  (known : ∀ use, (∃ id, lookup use = some id) ↔ use.Known declared)

include known

theorem TypeUse.resolve_eq_error_iff {use : TypeUse} {fault : TypeFault} :
    use.resolve lookup = .error fault ↔ ¬ use.Known declared ∧ fault = .notDefined use.name := by
  rw [TypeUse.resolve, ← known]
  cases lookup use <;> simp [eq_comm]

theorem TypeUse.exists_resolve_iff {use : TypeUse} :
    (∃ id, use.resolve lookup = .ok id) ↔ use.Known declared := by
  rw [TypeUse.resolve, ← known]
  cases lookup use <;> simp

/-- Fields are checked from left to right. -/
theorem resolveFields_faults (type : String) (fields : List (Field TypeUse)) :
    (∀ fault, resolveFields lookup type [] fields = .error fault ↔
        FirstFault (FieldFault declared type) fields fault) ∧
      ((∃ resolved, resolveFields lookup type [] fields = .ok resolved) ↔
        Flawless (FieldFault declared type) fields) := by
  refine firstFault_of_steps (resolveFields lookup type []) rfl (resolveFields_concat lookup type []) ?_ fields
  intro fields field resolved fault
  simp only [List.not_mem_nil, false_or]
  by_cases again : field.name ∈ fields.map Field.name
  · rw [if_pos again]
    constructor
    · intro fails
      cases fails
      exact .duplicate again
    · rintro (_ | ⟨fresh, -⟩)
      · rfl
      · exact absurd again fresh
  · rw [if_neg again, map_eq_error_iff, TypeUse.resolve_eq_error_iff known]
    constructor
    · rintro ⟨unknown, rfl⟩
      exact .notDefined again unknown
    · rintro (again' | ⟨-, unknown⟩)
      · exact absurd again' again
      · exact ⟨unknown, rfl⟩

/-- Resolving a shape fails with its first fault. -/
theorem TypeShape.resolve_eq_error_iff {type : String} {shape : TypeShape TypeUse} {fault : TypeFault} :
    shape.resolve lookup type = .error fault ↔ ShapeFault declared type shape fault := by
  have fields {list : List (Field TypeUse)} {make : List (Field TypeId) → TypeShape TypeId} :
      (do return make (← resolveFields lookup type [] list)) = Except.error fault ↔
        FirstFault (FieldFault declared type) list fault :=
    map_eq_error_iff.trans ((resolveFields_faults known type list).1 fault)
  have element {use : TypeUse} {make : TypeId → TypeShape TypeId} :
      (do return make (← use.resolve lookup)) = Except.error fault ↔
        ¬ use.Known declared ∧ fault = .notDefined use.name :=
    map_eq_error_iff.trans (TypeUse.resolve_eq_error_iff known)
  constructor
  · intro fails
    cases shape with
    | record list => exact .record (fields.mp fails)
    | set list => exact .set (fields.mp fails)
    | union alternatives =>
      cases alternatives with
      | nil =>
        cases fails
        exact .emptyUnion
      | cons alternative rest => exact .union (fields.mp fails)
    | recordOf use =>
      obtain ⟨unknown, rfl⟩ := element.mp fails
      exact .recordOf unknown
    | setOf use =>
      obtain ⟨unknown, rfl⟩ := element.mp fails
      exact .setOf unknown
    | enumerated values => exact .enumerated (((checkValues_faults type values).1 fault).mp (map_eq_error_iff.mp fails))
  · intro faulty
    cases faulty with
    | record first => exact fields.mpr first
    | set first => exact fields.mpr first
    | @union alternatives _ first =>
      cases alternatives with
      | nil => exact absurd first not_firstFault_nil
      | cons alternative rest => exact fields.mpr first
    | emptyUnion => rfl
    | recordOf unknown => exact element.mpr ⟨unknown, rfl⟩
    | setOf unknown => exact element.mpr ⟨unknown, rfl⟩
    | @enumerated values _ first => exact map_eq_error_iff.mpr (((checkValues_faults type values).1 fault).mpr first)

theorem TypeShape.exists_resolve_iff {type : String} {shape : TypeShape TypeUse} :
    (∃ resolved, shape.resolve lookup type = .ok resolved) ↔ TypeDeclaration.Valid declared ⟨type, shape⟩ := by
  have fields {list : List (Field TypeUse)} {make : List (Field TypeId) → TypeShape TypeId} :
      (∃ resolved, (do return make (← resolveFields lookup type [] list)) = Except.ok resolved) ↔
        (list.map Field.name).Nodup ∧ ∀ use ∈ list.map Field.type, use.Known declared :=
    exists_map_eq_ok_iff.trans ((resolveFields_faults known type list).2.trans flawless_fields_iff)
  have element {use : TypeUse} {make : TypeId → TypeShape TypeId} :
      (∃ resolved, (do return make (← use.resolve lookup)) = Except.ok resolved) ↔ use.Known declared :=
    exists_map_eq_ok_iff.trans (TypeUse.exists_resolve_iff known)
  rw [TypeDeclaration.valid_iff]
  cases shape with
  | record list => exact fields.trans (by simp [labels, uses])
  | set list => exact fields.trans (by simp [labels, uses])
  | union alternatives =>
    cases alternatives with
    | nil => simp [resolve]
    | cons alternative rest => exact fields.trans (by simp [labels, uses])
  | recordOf use => exact element.trans (by simp [labels, uses])
  | setOf use => exact element.trans (by simp [labels, uses])
  | enumerated values =>
    have checked := (checkValues_faults type values).2.trans flawless_values_iff
    exact (exists_map_eq_ok_iff.trans checked).trans (by simp [labels, uses])

end Resolve

/-! ### Resolving all declarations -/

theorem mapM_concat {ε α β : Type} (next : α → Except ε β) (items : List α) (item : α) :
    (items ++ [item]).mapM next = items.mapM next >>= fun results => do return results ++ [← next item] := by
  simp [List.mapM_append]

namespace Declarations

variable {order : List Builtin} {declarations : Declarations}

/-- The names of the declared types. -/
def typeNames (declarations : Declarations) : List String := declarations.types.map TypeDeclaration.name

/-- The first fault of all declarations. -/
def HasFault (declarations : Declarations) : TypeFault → Prop :=
  FirstFault (fun _ type => ShapeFault declarations.typeNames type.name type.shape) declarations.types

section Distinct

variable (distinct : ((declarations.origins order).map TypeOrigin.use).Nodup)

include distinct

theorem exists_lookup_iff (use : TypeUse) :
    (∃ id, (declarations.outline order).lookup use = some id) ↔
      use ∈ (declarations.origins order).map TypeOrigin.use := by
  rw [List.mem_iff_getElem?]
  constructor
  · rintro ⟨id, found⟩
    exact ⟨id.index, (outline_lookup_iff distinct).mp found⟩
  · rintro ⟨index, there⟩
    exact ⟨⟨index⟩, (outline_lookup_iff distinct).mpr there⟩

/-- What a type comes from is found under its use, with the entry that it resolves to. -/
theorem exists_entry {symbols : Symbols} (resolved : declarations.resolveIn order = .ok symbols) {origin : TypeOrigin}
    (member : origin ∈ declarations.origins order) :
    ∃ id entry, symbols.lookup origin.use = some id ∧ symbols.entry? id = some entry ∧
      origin.resolve symbols.lookup = .ok entry := by
  obtain ⟨lookup, -, entries⟩ := of_resolveIn resolved
  obtain ⟨index, there⟩ := List.mem_iff_getElem?.mp member
  have made := rel_getElem? entries index
  rw [there] at made
  generalize standing : symbols.entries[index]? = entry at made
  cases made with
  | some made =>
    rw [lookup]
    exact ⟨⟨index⟩, _, (outline_lookup_iff distinct).mpr (by simp [there]), standing, made⟩

variable (all : order.Perm Builtin.all)

include all

theorem outline_known (use : TypeUse) :
    (∃ id, (declarations.outline order).lookup use = some id) ↔ use.Known declarations.typeNames := by
  rw [exists_lookup_iff distinct, map_use_origins]
  cases use with
  | builtin name => simp [TypeUse.Known, all.mem_iff]
  | declared name => simp [TypeUse.Known, typeNames]

theorem resolveIn_eq_error_iff {fault : TypeFault} :
    declarations.resolveIn order = .error fault ↔ declarations.HasFault fault := by
  have known := outline_known distinct all
  refine map_eq_error_iff.trans ?_
  refine (firstFault_of_steps (List.mapM (TypeDeclaration.resolve (declarations.outline order).lookup)) rfl
    (mapM_concat _) ?_ declarations.types).1 fault
  intro types type entries fault
  exact map_eq_error_iff.trans (map_eq_error_iff.trans (TypeShape.resolve_eq_error_iff known))

theorem exists_resolveIn_iff :
    (∃ symbols, declarations.resolveIn order = .ok symbols) ↔
      ∀ type ∈ declarations.types, type.Valid declarations.typeNames := by
  have valid (type : TypeDeclaration) : (∃ entry, type.resolve (declarations.outline order).lookup = .ok entry) ↔
      type.Valid declarations.typeNames :=
    exists_map_eq_ok_iff.trans (TypeShape.exists_resolve_iff (outline_known distinct all))
  constructor
  · rintro ⟨symbols, resolved⟩ type member
    obtain ⟨-, entry, -, -, made⟩ := exists_entry distinct resolved
      (List.mem_append_right _ (List.mem_map_of_mem member))
    rw [(of_resolveIn resolved).1] at made
    exact (valid type).mp ⟨entry, made⟩
  · intro good
    exact exists_resolveIn fun type member => (valid type).mpr (good type member)

end Distinct

end Declarations

/-! ### The table of valid declarations -/

/-- Every number that stands in a table. -/
def Symbols.ids (symbols : Symbols) : List TypeId :=
  symbols.builtins.map Prod.snd ++ symbols.declared.map Prod.snd ++
    symbols.entries.flatMap fun entry => entry.shape.elim [] TypeShape.parts

/-- A table says what the declarations say. -/
structure Symbols.Tabulates (symbols : Symbols) (declarations : Declarations) : Prop where
  inRange : ∀ id ∈ symbols.ids, symbols.Has id
  known (use : TypeUse) : (∃ id, symbols.lookup use = some id) ↔ use.Known declarations.typeNames
  apart {use other : TypeUse} {id : TypeId} (first : symbols.lookup use = some id)
    (second : symbols.lookup other = some id) : use = other
  builtin (type : Builtin) :
    ∃ id, symbols.lookup (.builtin type.name) = some id ∧ symbols.entry? id = some type.entry
  declared : ∀ type ∈ declarations.types, ∃ id shape, symbols.lookup (.declared type.name) = some id ∧
    symbols.entry? id = some ⟨type.name, type.name, some shape⟩ ∧ type.shape.map symbols.lookup = shape.map some
  names : symbols.types.map (fun type => type.2.name) = declarations.typeNames
  types : ∀ type ∈ symbols.types,
    symbols.lookup (.declared type.2.name) = some type.1 ∧ symbols.entry? type.1 = some type.2
  constants (name : String) : symbols.isConstant name = true ↔ name ∈ declarations.constants

namespace Declarations

variable {order : List Builtin} {declarations : Declarations} {symbols : Symbols}

theorem lt_of_mem_numbered {first : Nat} {names : List String} {id : TypeId}
    (member : id ∈ (numbered first names).map Prod.snd) : first ≤ id.index ∧ id.index < first + names.length := by
  simp only [numbered, List.map_map, List.mem_map] at member
  obtain ⟨⟨name, index⟩, inside, rfl⟩ := member
  obtain ⟨lower, upper, -⟩ := List.mem_zipIdx inside
  exact ⟨lower, upper⟩

theorem resolveIn_inRange (resolved : declarations.resolveIn order = .ok symbols) :
    ∀ id ∈ symbols.ids, symbols.Has id := by
  intro id member
  rcases List.mem_append.mp member with looked | inside
  · obtain ⟨entries, found, same⟩ := exists_of_bind_eq_ok resolved
    cases same
    have length := (mapM_eq_ok_iff.mp found).length_eq
    simp only [Symbols.Has, List.length_append, List.length_map, ← length]
    rcases List.mem_append.mp looked with builtin | declared
    · have range := lt_of_mem_numbered builtin
      simp only [List.length_map] at range
      omega
    · have range := lt_of_mem_numbered declared
      simp only [List.length_map] at range
      omega
  · obtain ⟨entry, among, part⟩ := List.mem_flatMap.mp inside
    rcases mem_entries resolved among with ⟨builtin, rfl⟩ | ⟨declaration, -, shape, read, rfl⟩
    · simp [Builtin.entry] at part
    · obtain ⟨use, found⟩ := TypeShape.resolve_lookup read id part
      rw [← (of_resolveIn resolved).1] at found
      exact (resolveIn_closed resolved).lookup found

/-- The declared types are those after the built-in ones, even if they have names of built-in ones. -/
theorem names_types (distinct : declarations.typeNames.Nodup) (resolved : declarations.resolveIn order = .ok symbols) :
    symbols.types.map (fun type => type.2.name) = declarations.typeNames := by
  obtain ⟨lookup, -, -⟩ := of_resolveIn resolved
  obtain ⟨entries, found, same⟩ := exists_of_bind_eq_ok resolved
  have made := mapM_eq_ok_iff.mp found
  have names : entries.map TypeEntry.name = declarations.typeNames := by
    rw [typeNames, ← List.forall₂_eq_eq_eq, List.forall₂_map_left_iff, List.forall₂_map_right_iff]
    refine made.flip.imp fun entry type made => ?_
    obtain ⟨shape, -, same⟩ := exists_of_bind_eq_ok made
    cases same
    rfl
  have table : symbols.entries = order.map Builtin.entry ++ entries := by
    cases same
    rfl
  rw [Symbols.types, table, lookup, List.zipIdx_append, List.map_append, List.filter_append,
    List.filter_eq_nil_iff.mpr (List.forall_mem_map.mpr ?builtin),
    List.filter_eq_self.mpr (List.forall_mem_map.mpr ?declared), List.nil_append, List.map_map]
  · change (entries.zipIdx _).map (TypeEntry.name ∘ Prod.fst) = _
    rw [← List.map_map, List.zipIdx_map_fst, names]
  case builtin =>
    -- The name of a built-in type may be that of a declared one too, but then it leads past the built-in types.
    rintro ⟨entry, index⟩ member own
    obtain ⟨-, upper, -⟩ := List.mem_zipIdx member
    obtain ⟨later, -, same⟩ := numbered_lookup (beq_iff_eq.mp own)
    have beyond : index = order.length + later := congrArg TypeId.index same
    rw [List.length_map] at upper
    omega
  case declared =>
    rintro ⟨entry, index⟩ member
    obtain ⟨lower, upper, there⟩ := List.mem_zipIdx member
    simp only [List.length_map, Nat.zero_add] at lower upper there
    refine beq_iff_eq.mpr ((numbered_lookup_iff distinct).mpr ⟨index - order.length, ?_, ?_⟩)
    · rw [← names, List.getElem?_map, List.getElem?_eq_getElem (by omega), ← there]
      rfl
    · rw [Nat.add_sub_cancel' lower]

theorem resolveIn_tabulates (distinct : declarations.typeNames.Nodup) (all : order.Perm Builtin.all)
    (resolved : declarations.resolveIn order = .ok symbols) : symbols.Tabulates declarations := by
  have uses := nodup_origins all distinct
  obtain ⟨lookup, constants, -⟩ := of_resolveIn resolved
  refine ⟨resolveIn_inRange resolved, ?_, ?_, ?_, ?_, names_types distinct resolved, ?_, ?_⟩
  · rw [lookup]
    exact outline_known uses all
  · intro use other id first second
    rw [lookup] at first second
    have same := ((outline_lookup_iff uses).mp first).symm.trans ((outline_lookup_iff uses).mp second)
    exact Option.some.inj same
  · intro type
    have member : TypeOrigin.builtin type ∈ declarations.origins order :=
      List.mem_append_left _ (List.mem_map_of_mem (all.mem_iff.mpr (by cases type <;> decide)))
    obtain ⟨id, entry, found, there, made⟩ := exists_entry uses resolved member
    cases made
    exact ⟨id, found, there⟩
  · intro type member
    obtain ⟨id, entry, found, there, made⟩ := exists_entry uses resolved
      (List.mem_append_right _ (List.mem_map_of_mem member))
    obtain ⟨shape, read, made⟩ := exists_of_bind_eq_ok made
    cases made
    exact ⟨id, shape, found, there, TypeShape.resolve_mirrors read⟩
  · intro type member
    obtain ⟨among, found⟩ := List.mem_filter.mp member
    obtain ⟨⟨entry, index⟩, inside, rfl⟩ := List.mem_map.mp among
    exact ⟨beq_iff_eq.mp found, List.mem_zipIdx_iff_getElem?.mp inside⟩
  · intro name
    rw [Symbols.isConstant, constants, List.contains_iff_mem]

end Declarations

/-- Of declarations that are offered one after the other, exactly those are left out whose names were added before.
    The others can be resolved exactly if they are all valid; if not, the first fault is reported, and if so, the
    table says what they say. -/
theorem offered_declarations_resolve (order : List Builtin) (all : order.Perm Builtin.all) (list : List Declaration) :
    let declarations := Declarations.offerAll list
    let added := Declarations.accepted {} list
    (∀ declaration, declarations.add declaration = none ↔ declaration.name ∈ added.map Declaration.name) ∧
      (∀ declaration, declarations.add declaration = none →
        Declarations.offerAll (list ++ [declaration]) = declarations) ∧
      declarations = .ofList added ∧
      ((∃ symbols, declarations.resolveIn order = .ok symbols) ↔
        ∀ type ∈ declarations.types, type.Valid declarations.typeNames) ∧
      (∀ fault, declarations.resolveIn order = .error fault ↔ declarations.HasFault fault) ∧
      ∀ symbols, declarations.resolveIn order = .ok symbols → symbols.Tabulates declarations := by
  intro declarations added
  have distinct : declarations.typeNames.Nodup := by
    simp only [declarations, Declarations.offerAll_eq]
    exact (Declaration.names_sublist added).nodup (Declarations.nodup_accepted list)
  have uses := Declarations.nodup_origins all distinct
  refine ⟨fun _ => Declarations.add_offerAll_eq_none_iff, ?_, Declarations.offerAll_eq list,
    Declarations.exists_resolveIn_iff uses all, fun _ => Declarations.resolveIn_eq_error_iff uses all,
    fun _ => Declarations.resolveIn_tabulates distinct all⟩
  intro declaration left
  rw [Declarations.offerAll, List.foldl_append, List.foldl_cons, List.foldl_nil]
  change declarations.offer declaration = declarations
  rw [Declarations.offer, left, Option.getD_none]

/-- A record that uses a type declared after it and one with the name of a built-in type, and a constant that is left
    out because it has the name of the record; then a union without alternatives, before a field of a type that is
    not declared. -/
theorem offered_declarations_resolve_shadowing :
    let record := Declaration.type ⟨"R", .record [⟨"a", .declared "integer"⟩, ⟨"b", .builtin "integer"⟩,
      ⟨"l", .declared "L"⟩]⟩
    let list := [record, .constant "R", .type ⟨"integer", .enumerated ["one"]⟩,
      .type ⟨"L", .recordOf (.declared "R")⟩]
    let faulty := [.type ⟨"U", .union []⟩, .type ⟨"V", .record [⟨"a", .declared "X"⟩]⟩]
    (Declarations.offerAll [record]).add (.constant "R") = none ∧
      (∃ symbols, (Declarations.offerAll list).resolveIn Builtin.all.reverse = .ok symbols ∧
        symbols.Tabulates (.offerAll list)) ∧
      (Declarations.offerAll faulty).HasFault (.emptyUnion "U") := by
  intro record list faulty
  have all : Builtin.all.reverse.Perm Builtin.all := List.reverse_perm _
  refine ⟨?_, ?_, ?_⟩
  · exact ((offered_declarations_resolve _ all [record]).1 (.constant "R")).mpr (by decide)
  · have succeeds : ((Declarations.offerAll list).resolveIn Builtin.all.reverse).isOk = true := by decide +kernel
    cases resolved : (Declarations.offerAll list).resolveIn Builtin.all.reverse with
    | error fault =>
      rw [resolved] at succeeds
      cases succeeds
    | ok symbols => exact ⟨symbols, rfl, (offered_declarations_resolve _ all list).2.2.2.2.2 symbols resolved⟩
  · exact ((offered_declarations_resolve _ all faulty).2.2.2.2.1 _).mp (by decide +kernel)

end TtcnTemplates
