import Mathlib.Data.List.Forall2
import TtcnTemplates.Proofs.Formation
import TtcnTemplates.Proofs.Modules
import TtcnTemplates.Proofs.Renaming

/-! # Resolving declarations

What the look-ups in a table give, and what resolving a declaration leaves in its entry. Every type that a resolved
table mentions is one of its own (`Declarations.resolveIn_closed`).
-/

namespace TtcnTemplates

theorem mapM_eq_ok_iff {ε α β : Type} {next : α → Except ε β} {values : List α} {results : List β} :
    values.mapM next = .ok results ↔ List.Forall₂ (fun value result => next value = .ok result) values results := by
  induction values generalizing results with
  | nil =>
    constructor
    · intro succeeds
      cases succeeds
      exact .nil
    · intro related
      cases related
      rfl
  | cons value rest ih =>
    rw [List.mapM_cons]
    constructor
    · intro succeeds
      obtain ⟨first, here, succeeds⟩ := exists_of_bind_eq_ok succeeds
      obtain ⟨more, later, succeeds⟩ := exists_of_bind_eq_ok succeeds
      cases succeeds
      exact .cons here (ih.mp later)
    · intro related
      cases related with
      | cons here later =>
        rw [here, ih.mpr later]
        rfl

theorem exists_mapM {ε α β : Type} {next : α → Except ε β} {values : List α}
    (succeeds : ∀ value ∈ values, ∃ result, next value = .ok result) : ∃ results, values.mapM next = .ok results := by
  induction values with
  | nil => exact ⟨[], rfl⟩
  | cons value rest ih =>
    obtain ⟨⟨first, here⟩, later⟩ := List.forall_mem_cons.mp succeeds
    obtain ⟨more, found⟩ := ih later
    exact ⟨first :: more, mapM_eq_ok_iff.mpr (.cons here (mapM_eq_ok_iff.mp found))⟩

/-- The numbers of names go up from the first. -/
theorem numbered_lookup {first : Nat} {names : List String} {name : String} {id : TypeId}
    (found : (numbered first names).lookup name = some id) :
    ∃ index, names[index]? = some name ∧ id = ⟨first + index⟩ := by
  obtain ⟨earlier, later, split, -⟩ := List.lookup_eq_some_iff.mp found
  have member : (name, id) ∈ numbered first names := by simp [split]
  obtain ⟨⟨name', position⟩, inside, equal⟩ := List.mem_map.mp member
  cases equal
  obtain ⟨lower, upper, there⟩ := List.mem_zipIdx inside
  refine ⟨position - first, ?_, ?_⟩
  · rw [there]
    exact List.getElem?_eq_getElem _
  · congr
    omega

theorem TypeUse.lookup_of_resolve {lookup : TypeUse → Option TypeId} {use : TypeUse} {id : TypeId}
    (succeeds : use.resolve lookup = .ok id) : lookup use = some id := by
  rw [TypeUse.resolve] at succeeds
  split at succeeds
  · cases succeeds
    assumption
  · cases succeeds

/-- Resolved fields are the declared ones with every type looked up. -/
theorem resolveFields_mirrors {lookup : TypeUse → Option TypeId} {type : String} {seen : List String}
    {fields : List (Field TypeUse)} {resolved : List (Field TypeId)}
    (succeeds : resolveFields lookup type seen fields = .ok resolved) :
    fields.map (Field.map lookup) = resolved.map (Field.map some) := by
  induction fields generalizing seen resolved with
  | nil =>
    cases succeeds
    rfl
  | cons field rest ih =>
    rw [resolveFields] at succeeds
    split at succeeds
    · cases succeeds
    · obtain ⟨id, found, succeeds⟩ := exists_of_bind_eq_ok succeeds
      obtain ⟨more, others, succeeds⟩ := exists_of_bind_eq_ok succeeds
      cases succeeds
      simp [Field.map, TypeUse.lookup_of_resolve found, ih others]

/-- A resolved shape is the declared one with every type looked up. -/
theorem TypeShape.resolve_mirrors {lookup : TypeUse → Option TypeId} {type : String} {shape : TypeShape TypeUse}
    {resolved : TypeShape TypeId} (succeeds : shape.resolve lookup type = .ok resolved) :
    shape.map lookup = resolved.map some := by
  cases shape with
  | record fields =>
    obtain ⟨found, read, succeeds⟩ := exists_of_bind_eq_ok succeeds
    cases succeeds
    exact congrArg _ (resolveFields_mirrors read)
  | set fields =>
    obtain ⟨found, read, succeeds⟩ := exists_of_bind_eq_ok succeeds
    cases succeeds
    exact congrArg _ (resolveFields_mirrors read)
  | union alternatives =>
    cases alternatives with
    | nil => cases succeeds
    | cons first rest =>
      obtain ⟨found, read, succeeds⟩ := exists_of_bind_eq_ok succeeds
      cases succeeds
      exact congrArg _ (resolveFields_mirrors read)
  | recordOf use =>
    obtain ⟨id, found, succeeds⟩ := exists_of_bind_eq_ok succeeds
    cases succeeds
    exact congrArg _ (TypeUse.lookup_of_resolve found)
  | setOf use =>
    obtain ⟨id, found, succeeds⟩ := exists_of_bind_eq_ok succeeds
    cases succeeds
    exact congrArg _ (TypeUse.lookup_of_resolve found)
  | enumerated values =>
    obtain ⟨-, -, succeeds⟩ := exists_of_bind_eq_ok succeeds
    cases succeeds
    rfl

/-- The types of resolved fields are looked up. -/
theorem resolveFields_lookup {lookup : TypeUse → Option TypeId} {type : String} {seen : List String}
    {fields : List (Field TypeUse)} {resolved : List (Field TypeId)}
    (succeeds : resolveFields lookup type seen fields = .ok resolved) :
    ∀ field ∈ resolved, ∃ use, lookup use = some field.type := by
  intro field member
  have mirrored := List.mem_map_of_mem (f := Field.map some) member
  rw [← resolveFields_mirrors succeeds] at mirrored
  obtain ⟨declared, -, same⟩ := List.mem_map.mp mirrored
  exact ⟨declared.type, congrArg Field.type same⟩

/-- The type of the elements of a record of or set of. -/
def TypeShape.element? : TypeShape TypeId → Option TypeId
  | .recordOf element => some element
  | .setOf element => some element
  | _ => none

theorem Symbols.element?_eq (symbols : Symbols) (type : TypeId) :
    symbols.element? type = (symbols.shape? type).bind TypeShape.element? := by
  rw [Symbols.element?]
  cases symbols.shape? type with
  | none => rfl
  | some shape => cases shape <;> rfl

/-- The types inside a resolved type. -/
def TypeShape.parts (shape : TypeShape TypeId) : List TypeId := shape.fields.map Field.type ++ shape.element?.toList

/-- The types inside a resolved type are looked up. -/
theorem TypeShape.resolve_lookup {lookup : TypeUse → Option TypeId} {type : String} {shape : TypeShape TypeUse}
    {resolved : TypeShape TypeId} (succeeds : shape.resolve lookup type = .ok resolved) :
    ∀ part ∈ resolved.parts, ∃ use, lookup use = some part := by
  have fields {fields : List (Field TypeUse)} {make : List (Field TypeId) → TypeShape TypeId}
      (same : ∀ fields, (make fields).parts = fields.map Field.type)
      (succeeds : (do return make (← resolveFields lookup type [] fields)) = Except.ok resolved) :
      ∀ part ∈ resolved.parts, ∃ use, lookup use = some part := by
    obtain ⟨found, read, succeeds⟩ := exists_of_bind_eq_ok succeeds
    cases succeeds
    intro part member
    rw [same] at member
    obtain ⟨field, inside, rfl⟩ := List.mem_map.mp member
    exact resolveFields_lookup read field inside
  have element {element : TypeUse} {make : TypeId → TypeShape TypeId} (same : ∀ id, (make id).parts = [id])
      (succeeds : (do return make (← element.resolve lookup)) = Except.ok resolved) :
      ∀ part ∈ resolved.parts, ∃ use, lookup use = some part := by
    obtain ⟨id, found, succeeds⟩ := exists_of_bind_eq_ok succeeds
    cases succeeds
    intro part member
    rw [same, List.mem_singleton] at member
    exact ⟨element, member ▸ TypeUse.lookup_of_resolve found⟩
  cases shape with
  | record list => exact fields (fun _ => by simp [parts, TypeShape.fields, element?]) succeeds
  | set list => exact fields (fun _ => by simp [parts, TypeShape.fields, element?]) succeeds
  | union alternatives =>
    cases alternatives with
    | nil => cases succeeds
    | cons first rest => exact fields (fun _ => by simp [parts, TypeShape.fields, element?]) succeeds
  | recordOf use => exact element (fun _ => rfl) succeeds
  | setOf use => exact element (fun _ => rfl) succeeds
  | enumerated values =>
    obtain ⟨id, -, succeeds⟩ := exists_of_bind_eq_ok succeeds
    cases succeeds
    exact nofun

/-- The names of the fields, alternatives or values of a type. -/
def TypeShape.labels {ρ : Type} : TypeShape ρ → List String
  | .record fields => fields.map Field.name
  | .set fields => fields.map Field.name
  | .union alternatives => alternatives.map Field.name
  | .enumerated values => values
  | _ => []

theorem TypeShape.labels_map {ρ σ : Type} (f : ρ → σ) (shape : TypeShape ρ) : (shape.map f).labels = shape.labels := by
  cases shape <;> simp [TypeShape.map, labels, Field.map]

/-- A resolved type keeps the names inside it. -/
theorem TypeShape.resolve_labels {lookup : TypeUse → Option TypeId} {type : String} {shape : TypeShape TypeUse}
    {resolved : TypeShape TypeId} (succeeds : shape.resolve lookup type = .ok resolved) :
    resolved.labels = shape.labels := by
  rw [← labels_map some resolved, ← resolve_mirrors succeeds, labels_map]

/-- An entry of a resolved table is that of a built-in type, or a declaration resolved. -/
theorem Declarations.mem_entries {order : List Builtin} {declarations : Declarations} {symbols : Symbols}
    (resolved : declarations.resolveIn order = .ok symbols) {entry : TypeEntry} (member : entry ∈ symbols.entries) :
    (∃ builtin, entry = Builtin.entry builtin) ∨
      ∃ declaration ∈ declarations.types, ∃ shape,
        declaration.shape.resolve (declarations.outline order).lookup declaration.name = .ok shape ∧
          entry = ⟨declaration.name, declaration.name, some shape⟩ := by
  obtain ⟨entries, found, resolved⟩ := exists_of_bind_eq_ok resolved
  cases resolved
  rcases List.mem_append.mp member with builtin | declared
  · obtain ⟨type, -, rfl⟩ := List.mem_map.mp builtin
    exact .inl ⟨type, rfl⟩
  · obtain ⟨declaration, among, made⟩ := exists_of_mem_mapM found entry declared
    obtain ⟨shape, read, succeeds⟩ := exists_of_bind_eq_ok made
    cases succeeds
    exact .inr ⟨declaration, among, shape, read, rfl⟩

/-- A type of a resolved table has the shape that it is declared with. -/
theorem Declarations.exists_of_shape? {order : List Builtin} {declarations : Declarations} {symbols : Symbols}
    (resolved : declarations.resolveIn order = .ok symbols) {type : TypeId} {shape : TypeShape TypeId}
    (found : symbols.shape? type = some shape) :
    ∃ declaration ∈ declarations.types,
      declaration.shape.resolve (declarations.outline order).lookup declaration.name = .ok shape := by
  obtain ⟨entry, there, given⟩ := Option.bind_eq_some_iff.mp found
  rcases mem_entries resolved (List.mem_of_getElem? there) with ⟨builtin, rfl⟩ | ⟨declaration, among, shape', read, rfl⟩
  · cases given
  · cases given
    exact ⟨declaration, among, read⟩

/-- Every number in a resolved table is that of a type of the table. -/
theorem Declarations.resolveIn_closed {order : List Builtin} {declarations : Declarations} {symbols : Symbols}
    (resolved : declarations.resolveIn order = .ok symbols) : symbols.Closed := by
  have looked {use : TypeUse} {type : TypeId} (looked : (declarations.outline order).lookup use = some type) :
      symbols.Has type := by
    obtain ⟨entries, found, resolved⟩ := exists_of_bind_eq_ok resolved
    cases resolved
    have length := (mapM_eq_ok_iff.mp found).length_eq
    simp only [Symbols.Has, List.length_append, List.length_map, ← length]
    cases use with
    | builtin name =>
      obtain ⟨index, there, rfl⟩ := numbered_lookup looked
      have bound := (List.getElem?_eq_some_iff.mp there).1
      simp only [List.length_map] at bound
      simp only [Nat.zero_add]
      omega
    | declared name =>
      obtain ⟨index, there, rfl⟩ := numbered_lookup looked
      have bound := (List.getElem?_eq_some_iff.mp there).1
      simp only [List.length_map] at bound
      simp only
      omega
  -- What stands inside an entry of the table was looked up when its declaration was resolved.
  have part {type : TypeId} {shape : TypeShape TypeId} {id : TypeId} (isShape : symbols.shape? type = some shape)
      (member : id ∈ shape.parts) : symbols.Has id := by
    obtain ⟨declaration, -, read⟩ := exists_of_shape? resolved isShape
    obtain ⟨use, found⟩ := TypeShape.resolve_lookup read id member
    exact looked found
  refine ⟨?_, ?_, ?_⟩
  · intro use type found
    obtain ⟨entries, -, same⟩ := exists_of_bind_eq_ok resolved
    cases same
    exact @looked use type found
  · intro type field member
    rw [Symbols.fields_eq] at member
    cases isShape : symbols.shape? type with
    | none => simp [isShape] at member
    | some shape =>
      rw [isShape] at member
      exact part isShape (List.mem_append_left _ (List.mem_map_of_mem member))
  · intro type element isElement
    rw [Symbols.element?_eq] at isElement
    obtain ⟨shape, isShape, isElement⟩ := Option.bind_eq_some_iff.mp isElement
    exact part isShape (List.mem_append_right _ (Option.mem_toList.mpr isElement))

end TtcnTemplates
