import TtcnTemplates.Proofs.Independence
import TtcnTemplates.Proofs.Modules

/-! # Overrides rebuild the value

A body that modifies a base becomes overrides, and the same body without a base becomes a value. Replayed on a value
without any field, the overrides give that value (`Body.agrees`). Assignments to parts that do not contain each other
commute (`Expr.assign_comm`), so the overrides can be replayed in any order.
-/

namespace TtcnTemplates

/-! ### Assigning to a part of a value -/

/-- Slots with a value for the given field. -/
def setSlot (slots : List (String × Option Expr)) (name : String) (value : Expr) : List (String × Option Expr) :=
  slots.map fun slot => if slot.1 = name then (name, some value) else slot

section Slots

variable {slots : List (String × Option Expr)} {name other : String}

theorem lookup_setSlot_self {slot : Option Expr} (there : slots.lookup name = some slot) (value : Expr) :
    (setSlot slots name value).lookup name = some (some value) := by
  induction slots with
  | nil => simp at there
  | cons first rest ih =>
    obtain ⟨key, content⟩ := first
    by_cases same : key = name
    · simp [setSlot, same]
    · have apart : (name == key) = false := by simpa using Ne.symm same
      rw [List.lookup_cons, apart] at there
      have later := ih there
      simp only [setSlot, List.map_cons, if_neg same, List.lookup_cons, apart] at later ⊢
      exact later

theorem lookup_setSlot_of_ne (ne : other ≠ name) (value : Expr) :
    (setSlot slots name value).lookup other = slots.lookup other := by
  induction slots with
  | nil => rfl
  | cons first rest ih =>
    obtain ⟨key, content⟩ := first
    by_cases same : key = name
    · have apart : (other == name) = false := by simpa using ne
      simpa [setSlot, same, List.lookup_cons, apart] using ih
    · simp only [setSlot, List.map_cons, if_neg same, List.lookup_cons] at ih ⊢
      rw [ih]

theorem setSlot_setSlot (slots : List (String × Option Expr)) (name : String) (first second : Expr) :
    setSlot (setSlot slots name first) name second = setSlot slots name second := by
  rw [setSlot, setSlot, setSlot, List.map_map]
  refine List.map_congr_left fun slot _ => ?_
  by_cases same : slot.1 = name <;> simp [same]

theorem setSlot_comm (slots : List (String × Option Expr)) (ne : name ≠ other) (first second : Expr) :
    setSlot (setSlot slots name first) other second = setSlot (setSlot slots other second) name first := by
  simp only [setSlot, List.map_map]
  refine List.map_congr_left fun slot _ => ?_
  by_cases here : slot.1 = name
  · simp [here, ne]
  · by_cases there : slot.1 = other <;> simp [here, there, ne.symm]

end Slots

/-- A value of a record or set without any field. -/
def Symbols.unbound (symbols : Symbols) (type : TypeId) : Expr :=
  .named (symbols.javaName type) ((symbols.fields type).map fun field => (field.name, none))

/-- The type and the value of a field. A field without a value is taken to have one without any field. -/
def Symbols.part? (symbols : Symbols) (type : TypeId) (slots : List (String × Option Expr)) (name : String) :
    Option (TypeId × Expr) := do
  let field ← Field.find? (symbols.fields type) name
  let slot ← slots.lookup name
  return (field.type, slot.getD (symbols.unbound field.type))

/-- A value of the given type after the part at a path is given the value `new`. -/
def Expr.assign (symbols : Symbols) (new : Expr) : List String → TypeId → Expr → Option Expr
  | [], _, _ => some new
  | name :: rest, type, .named record slots => do
    let (type, part) ← symbols.part? type slots name
    let part ← Expr.assign symbols new rest type part
    return .named record (setSlot slots name part)
  | _ :: _, _, _ => none

/-- A value of the given type after an override. -/
def Override.apply (symbols : Symbols) (type : TypeId) (value : Expr) (override : Override) : Option Expr :=
  Expr.assign symbols override.value override.path.fields type value

/-- A value of the given type after overrides in order. -/
def replay (symbols : Symbols) (type : TypeId) (overrides : List Override) (value : Expr) : Option Expr :=
  overrides.foldlM (Override.apply symbols type) value

/-- Overrides of parts of which neither contains the other. -/
def Override.Apart (first second : Override) : Prop :=
  ¬ first.path.fields <+: second.path.fields ∧ ¬ second.path.fields <+: first.path.fields

section Assign

variable {symbols : Symbols} {type : TypeId} {slots : List (String × Option Expr)} {name other : String}

theorem Symbols.part?_setSlot_self {inner : TypeId} {part : Expr}
    (there : symbols.part? type slots name = some (inner, part)) (value : Expr) :
    symbols.part? type (setSlot slots name value) name = some (inner, value) := by
  simp only [part?, Option.bind_eq_bind, Option.bind_eq_some_iff] at there
  obtain ⟨field, found, slot, content, same⟩ := there
  cases same
  simp [part?, found, lookup_setSlot_self content]

theorem Symbols.part?_setSlot_of_ne (ne : other ≠ name) (value : Expr) :
    symbols.part? type (setSlot slots name value) other = symbols.part? type slots other := by
  rw [part?, lookup_setSlot_of_ne ne, part?]

theorem Expr.assign_named (new : Expr) (name : String) (rest : List String) (type : TypeId) (record : String)
    (slots : List (String × Option Expr)) :
    Expr.assign symbols new (name :: rest) type (.named record slots) =
      ((symbols.part? type slots name).bind fun part => Expr.assign symbols new rest part.1 part.2).map fun part =>
        .named record (setSlot slots name part) := by
  rw [assign]
  cases symbols.part? type slots name with
  | none => rfl
  | some part => exact (Option.map_eq_bind ..).symm

/-- Two assignments inside one field. -/
theorem Expr.assign_bind_same {inner : TypeId} {part : Expr} (new new' : Expr) {rest rest' : List String}
    {record : String} (there : symbols.part? type slots name = some (inner, part)) :
    (Expr.assign symbols new (name :: rest) type (.named record slots)).bind
        (Expr.assign symbols new' (name :: rest') type) =
      ((Expr.assign symbols new rest inner part).bind (Expr.assign symbols new' rest' inner)).map fun part =>
        .named record (setSlot slots name part) := by
  rw [assign_named, there, Option.bind_some, Option.bind_map, Option.map_bind]
  refine Option.bind_congr fun part _ => ?_
  simp only [Function.comp_apply, assign_named, Symbols.part?_setSlot_self there, Option.bind_some, setSlot_setSlot]

/-- Two assignments inside different fields. -/
theorem Expr.assign_bind_of_ne (ne : other ≠ name) (new new' : Expr) (rest rest' : List String) (record : String) :
    (Expr.assign symbols new (name :: rest) type (.named record slots)).bind
        (Expr.assign symbols new' (other :: rest') type) =
      ((symbols.part? type slots name).bind fun part => Expr.assign symbols new rest part.1 part.2).bind fun first =>
        ((symbols.part? type slots other).bind fun part => Expr.assign symbols new' rest' part.1 part.2).map
          fun second => .named record (setSlot (setSlot slots name first) other second) := by
  rw [assign_named, Option.bind_map]
  refine Option.bind_congr fun part _ => ?_
  simp only [Function.comp_apply, assign_named, Symbols.part?_setSlot_of_ne ne]

/-- Assignments to parts of which neither contains the other commute. -/
theorem Expr.assign_comm {first second : List String} (new new' : Expr) (apart : ¬ first <+: second)
    (apart' : ¬ second <+: first) (type : TypeId) (value : Expr) :
    (Expr.assign symbols new first type value).bind (Expr.assign symbols new' second type) =
      (Expr.assign symbols new' second type value).bind (Expr.assign symbols new first type) := by
  induction first generalizing second type value with
  | nil => exact absurd List.nil_prefix apart
  | cons name rest ih =>
    cases second with
    | nil => exact absurd List.nil_prefix apart'
    | cons other rest' =>
      cases value with
      | named record slots =>
        -- The paths part here, or further inside the same field.
        by_cases same : other = name
        · subst same
          cases there : symbols.part? type slots other with
          | none => simp [assign_named, there]
          | some here =>
            obtain ⟨inner, part⟩ := here
            have apart : ¬ rest <+: rest' := fun inside => apart (List.cons_prefix_cons.mpr ⟨rfl, inside⟩)
            have apart' : ¬ rest' <+: rest := fun inside => apart' (List.cons_prefix_cons.mpr ⟨rfl, inside⟩)
            rw [assign_bind_same new new' there, assign_bind_same new' new there, ih apart apart']
        · rw [assign_bind_of_ne same, assign_bind_of_ne (Ne.symm same)]
          simp only [setSlot_comm slots same]
          generalize (symbols.part? type slots name).bind _ = first
          generalize (symbols.part? type slots other).bind _ = second
          cases first <;> cases second <;> rfl
      | _ => rfl

/-! ### Replaying overrides -/

theorem Override.Apart.symm {first second : Override} (apart : first.Apart second) : second.Apart first :=
  ⟨apart.2, apart.1⟩

/-- Overrides of parts that do not contain each other can be replayed in any order. -/
theorem replay_perm {overrides reordered : List Override} (perm : overrides.Perm reordered)
    (apart : overrides.Pairwise Override.Apart) (value : Expr) :
    replay symbols type overrides value = replay symbols type reordered value := by
  induction perm generalizing value with
  | nil => rfl
  | cons override _ ih =>
    simp only [replay, List.foldlM_cons]
    exact bind_congr fun next => ih (List.pairwise_cons.mp apart).2 next
  | swap first second rest =>
    have apart := (List.pairwise_cons.mp apart).1 first List.mem_cons_self
    simp only [replay, List.foldlM_cons, ← bind_assoc]
    exact congrArg (· >>= _) (Expr.assign_comm _ _ apart.1 apart.2 type value)
  | trans perm _ ih ih' =>
    have apart' := (perm.pairwise_iff fun apart => apart.symm).mp apart
    exact (ih apart value).trans (ih' apart' value)

theorem replay_append (overrides more : List Override) (value : Expr) :
    replay symbols type (overrides ++ more) value =
      (replay symbols type overrides value).bind (replay symbols type more) := List.foldlM_append

/-- An override of a part of the given field. -/
def Override.under (name : String) (override : Override) : Override :=
  ⟨⟨name :: override.path.fields⟩, override.value⟩

theorem Override.apply_under {inner : TypeId} {part : Expr} {record : String} (override : Override)
    (there : symbols.part? type slots name = some (inner, part)) :
    (override.under name).apply symbols type (.named record slots) =
      (override.apply symbols inner part).map fun part => .named record (setSlot slots name part) := by
  rw [apply, under, Expr.assign_named, there]
  rfl

/-- Overrides of parts of a field that has a value. -/
theorem replay_under_bound {inner : TypeId} {part : Expr} {record : String}
    (there : symbols.part? type slots name = some (inner, part)) (overrides : List Override) (value : Expr) :
    replay symbols type (overrides.map (Override.under name)) (.named record (setSlot slots name value)) =
      (replay symbols inner overrides value).map fun part => .named record (setSlot slots name part) := by
  induction overrides generalizing value with
  | nil => rfl
  | cons override rest ih =>
    simp only [replay, List.map_cons, List.foldlM_cons,
      Override.apply_under override (Symbols.part?_setSlot_self there value), setSlot_setSlot]
    simp only [Option.bind_eq_bind, Option.bind_map, Option.map_bind]
    exact Option.bind_congr fun next _ => ih next

/-- Overrides of parts of one field. -/
theorem replay_under {inner : TypeId} {part : Expr} {overrides : List Override} {record : String}
    (there : symbols.part? type slots name = some (inner, part)) (given : overrides ≠ []) :
    replay symbols type (overrides.map (Override.under name)) (.named record slots) =
      (replay symbols inner overrides part).map fun part => .named record (setSlot slots name part) := by
  cases overrides with
  | nil => exact absurd rfl given
  | cons override rest =>
    -- The first override leaves the field with a value.
    simp only [replay, List.map_cons, List.foldlM_cons, Override.apply_under override there]
    simp only [Option.bind_eq_bind, Option.bind_map, Option.map_bind]
    exact Option.bind_congr fun next _ => replay_under_bound there rest next

end Assign

/-! ### Translations that agree -/

/-- Two translations that make the same remarks, and that either fail with the same fault or give related results. -/
inductive Reading.Agree {α β : Type} (related : α → β → Prop) : Reading α → Reading β → Prop
  | ok {remarks : List Remark} {first : α} {second : β} (results : related first second) :
      Agree related ⟨remarks, .ok first⟩ ⟨remarks, .ok second⟩
  | error (remarks : List Remark) (fault : Fault) : Agree related ⟨remarks, .error fault⟩ ⟨remarks, .error fault⟩

namespace Reading.Agree

variable {α β γ δ : Type} {related : α → β → Prop} {related' : γ → δ → Prop} {first : Reading α} {second : Reading β}

theorem refl (reading : Reading α) : reading.Agree Eq reading := by
  obtain ⟨remarks, result⟩ := reading
  cases result with
  | ok value => exact .ok rfl
  | error fault => exact .error remarks fault

theorem bind (agree : first.Agree related second) {next : α → Reading γ} {next' : β → Reading δ}
    (later : ∀ value value', related value value' → (next value).Agree related' (next' value')) :
    (first >>= next).Agree related' (second >>= next') := by
  cases agree with
  | error remarks fault => exact .error remarks fault
  | @ok remarks value value' results =>
    have later := later value value' results
    change Agree _ ⟨remarks ++ (next value).remarks, _⟩ ⟨remarks ++ (next' value').remarks, _⟩
    generalize next value = left at later
    generalize next' value' = right at later
    cases later with
    | ok results => exact .ok results
    | error => exact .error _ _

theorem map_left {related' : γ → β → Prop} {make : α → γ} (agree : first.Agree related second)
    (results : ∀ value value', related value value' → related' (make value) value') :
    (do return make (← first)).Agree related' second := by
  cases agree with
  | error remarks fault => exact .error remarks fault
  | @ok remarks value value' here =>
    change Agree _ ⟨remarks ++ [], _⟩ _
    rw [List.append_nil]
    exact .ok (results value value' here)

theorem map_right {related' : α → γ → Prop} {make : β → γ} (agree : first.Agree related second)
    (results : ∀ value value', related value value' → related' value (make value')) :
    first.Agree related' (do return make (← second)) := by
  cases agree with
  | error remarks fault => exact .error remarks fault
  | @ok remarks value value' here =>
    change Agree _ _ ⟨remarks ++ [], _⟩
    rw [List.append_nil]
    exact .ok (results value value' here)

end Reading.Agree

/-! ### Bodies -/

mutual
/-- The assignments that a body overrides field by field name different fields, and none of those inside is empty. -/
def Body.Regular (symbols : Symbols) (type : TypeId) : Body → Prop
  | .fields assignments =>
    symbols.isStructured type = true →
      (assignments.map Prod.fst).Nodup ∧ Body.RegularParts symbols (symbols.fields type) assignments
  | _ => True

/-- The bodies that are assigned to the given fields are regular, and none of them is empty. -/
def Body.RegularParts (symbols : Symbols) (fields : List (Field TypeId)) : List (String × Body) → Prop
  | [] => True
  | (name, body) :: rest =>
    (∀ field, Field.find? fields name = some field →
        (symbols.isStructured field.type = true → body ≠ .fields []) ∧ body.Regular symbols field.type) ∧
      Body.RegularParts symbols fields rest
end

/-- Overrides of the part at a path, given from that part on. -/
def located (path : FieldPath) (overrides : List Override) : List Override :=
  overrides.map fun override => ⟨⟨path.fields ++ override.path.fields⟩, override.value⟩

/-- Overrides of the part at a path, which is of the given type, that give it the value of a body. There are some unless
    the body is empty. -/
structure Body.Rebuilds (body : Body) (symbols : Symbols) (path : FieldPath) (type : TypeId) (value : Expr)
    (overrides : List Override) : Prop where
  replayed : ∃ inside, overrides = located path inside ∧ inside.Pairwise Override.Apart ∧
    replay symbols type inside (symbols.unbound type) = some value
  filled : (symbols.isStructured type = true → body ≠ .fields []) → overrides ≠ []

/-- The slots of a record or set with the values that are given for its fields. -/
def boundSlots (fields : List (Field TypeId)) (given : List (String × Expr)) : List (String × Option Expr) :=
  fields.map fun field => (field.name, given.lookup field.name)

theorem lookup_boundSlots {fields : List (Field TypeId)} {name : String} {field : Field TypeId}
    (found : Field.find? fields name = some field) (given : List (String × Expr)) :
    (boundSlots fields given).lookup name = some (given.lookup name) := by
  induction fields with
  | nil => cases found
  | cons first rest ih =>
    by_cases same : first.name = name
    · simp [boundSlots, same]
    · have apart : (name == first.name) = false := by simpa using Ne.symm same
      rw [boundSlots, List.map_cons, List.lookup_cons, apart]
      exact ih (by simpa [Field.find?, same] using found)

theorem setSlot_boundSlots (fields : List (Field TypeId)) (given : List (String × Expr)) (name : String)
    (value : Expr) : setSlot (boundSlots fields given) name value = boundSlots fields ((name, value) :: given) := by
  simp only [setSlot, boundSlots, List.map_map]
  refine List.map_congr_left fun field _ => ?_
  by_cases same : field.name = name
  · simp [same]
  · simp [same, List.lookup_cons, beq_false_of_ne same]

theorem located_child (path : FieldPath) (name : String) (overrides : List Override) :
    located (path.child name) overrides = located path (overrides.map (Override.under name)) := by
  simp [located, FieldPath.child, Override.under]

theorem located_append (path : FieldPath) (overrides more : List Override) :
    located path (overrides ++ more) = located path overrides ++ located path more := List.map_append

section Bodies

variable {symbols : Symbols} {parameters : List Parameter}

variable (symbols parameters) in
/-- With the same remarks and faults, the overrides of a body rebuild its value. -/
def Body.Agrees (body : Body) : Prop :=
  ∀ (type : TypeId) (path : FieldPath), body.Regular symbols type →
    (body.value symbols parameters type).Agree (body.Rebuilds symbols path type)
      (body.overrides symbols parameters path type)

/-- A body that overrides its part as a whole. -/
theorem Body.agrees_whole {body : Body} {type : TypeId} {path : FieldPath}
    (whole : body.overrides symbols parameters path type = do
      let value ← body.value symbols parameters type
      return [⟨path, value⟩]) :
    (body.value symbols parameters type).Agree (body.Rebuilds symbols path type)
      (body.overrides symbols parameters path type) := by
  rw [whole]
  refine (Reading.Agree.refl _).map_right ?_
  rintro value _ rfl
  refine ⟨⟨[⟨.root, value⟩], ?_, List.pairwise_singleton .., rfl⟩, fun _ => List.cons_ne_nil _ _⟩
  simp [located, FieldPath.root]

/-- Overrides of fields with the given names, which add to the values `given` of a record or set the others of
    `given'`. -/
structure RebuildsFields (symbols : Symbols) (type : TypeId) (record : String) (names : List String)
    (given given' : List (String × Expr)) (inside : List Override) : Prop where
  apart : inside.Pairwise Override.Apart
  named : ∀ override ∈ inside, ∃ name ∈ names, ∃ rest, override.path.fields = name :: rest
  replayed : replay symbols type inside (.named record (boundSlots (symbols.fields type) given)) =
    some (.named record (boundSlots (symbols.fields type) given'))
  filled : names ≠ [] → inside ≠ []

theorem RebuildsFields.nil (symbols : Symbols) (type : TypeId) (record : String) (given : List (String × Expr)) :
    RebuildsFields symbols type record [] given given [] :=
  ⟨.nil, by simp, rfl, fun names => absurd rfl names⟩

theorem Override.Apart.under {first second : Override} (apart : first.Apart second) (name : String) :
    (first.under name).Apart (second.under name) :=
  ⟨fun inside => apart.1 (List.cons_prefix_cons.mp inside).2, fun inside => apart.2 (List.cons_prefix_cons.mp inside).2⟩

theorem Override.apart_of_ne {first second : Override} {name other : String} {rest rest' : List String}
    (ne : name ≠ other) (here : first.path.fields = name :: rest) (there : second.path.fields = other :: rest') :
    first.Apart second := by
  rw [Apart, here, there, List.cons_prefix_cons, List.cons_prefix_cons]
  exact ⟨fun inside => ne inside.1, fun inside => ne inside.1.symm⟩

/-- The overrides of one more field come before those of the others. -/
theorem RebuildsFields.cons {type : TypeId} {record name : String} {names : List String} {field : Field TypeId}
    {given given' : List (String × Expr)} {value : Expr} {inside more : List Override}
    (found : Field.find? (symbols.fields type) name = some field) (unbound : given.lookup name = none)
    (fresh : name ∉ names) (filled : inside ≠ []) (apart : inside.Pairwise Override.Apart)
    (replayed : replay symbols field.type inside (symbols.unbound field.type) = some value)
    (others : RebuildsFields symbols type record names ((name, value) :: given) given' more) :
    RebuildsFields symbols type record (name :: names) given given' (inside.map (Override.under name) ++ more) := by
  have part : symbols.part? type (boundSlots (symbols.fields type) given) name =
      some (field.type, symbols.unbound field.type) := by
    simp [Symbols.part?, found, lookup_boundSlots found, unbound]
  refine ⟨?_, ?_, ?_, ?_⟩
  -- Overrides of one field are apart already, and those of two fields are apart by the names of these.
  · rw [List.pairwise_append, List.pairwise_map]
    refine ⟨apart.imp fun apart => apart.under name, others.apart, ?_⟩
    intro first member second member'
    obtain ⟨override, -, rfl⟩ := List.mem_map.mp member
    obtain ⟨other, named, rest, there⟩ := others.named second member'
    have ne : name ≠ other := fun same => fresh (same ▸ named)
    exact Override.apart_of_ne ne rfl there
  · intro override member
    rcases List.mem_append.mp member with here | later
    · obtain ⟨override, -, rfl⟩ := List.mem_map.mp here
      exact ⟨name, List.mem_cons_self, override.path.fields, rfl⟩
    · obtain ⟨other, named, there⟩ := others.named override later
      exact ⟨other, List.mem_cons_of_mem _ named, there⟩
  · rw [replay_append, replay_under part filled, replayed, Option.map_some, Option.bind_some, setSlot_boundSlots]
    exact others.replayed
  · intro _
    simp [filled]

/-- The overrides of assignments rebuild the values that are assigned. -/
theorem Body.assignments_agree {assignments : List (String × Body)}
    (agree : ∀ assignment ∈ assignments, assignment.2.Agrees symbols parameters) (type : TypeId) (path : FieldPath)
    (record : String) (distinct : (assignments.map Prod.fst).Nodup)
    (regular : Body.RegularParts symbols (symbols.fields type) assignments) (given : List (String × Expr))
    (unbound : ∀ name ∈ assignments.map Prod.fst, given.lookup name = none) :
    (Body.assigned symbols parameters record (symbols.fields type) given assignments).Agree
      (fun given' overrides => ∃ inside, overrides = located path inside ∧
        RebuildsFields symbols type record (assignments.map Prod.fst) given given' inside)
      (Body.fieldOverrides symbols parameters record path (symbols.fields type) assignments) := by
  induction assignments generalizing given with
  | nil => exact .ok ⟨[], rfl, .nil symbols type record given⟩
  | cons assignment rest ih =>
    obtain ⟨name, body⟩ := assignment
    obtain ⟨agrees, agree⟩ := List.forall_mem_cons.mp agree
    obtain ⟨fresh, distinct⟩ := List.nodup_cons.mp distinct
    obtain ⟨here, regular⟩ := regular
    obtain ⟨free, unbound⟩ := List.forall_mem_cons.mp unbound
    rw [Body.assigned, Body.fieldOverrides]
    cases found : Field.find? (symbols.fields type) name with
    | none => exact .error [] _
    | some field =>
      obtain ⟨filled, inner⟩ := here field found
      refine (agrees field.type (path.child name) inner).bind ?_
      rintro value _ ⟨⟨inside, rfl, apart, replayed⟩, overridden⟩
      -- A field that is assigned nothing would stay without a value.
      have filled : inside ≠ [] := fun none => overridden filled (by simp [none, located])
      -- Overrides are never remarked on, and the value is not because the field was not assigned before.
      have remarked : (given.lookup name).isSome = false := by rw [free, Option.isSome_none]
      rw [remarked]
      refine (ih agree distinct regular ((name, value) :: given) ?_).map_right ?_
      · intro other named
        have ne : other ≠ name := fun same => fresh (same ▸ named)
        rw [List.lookup_cons, beq_false_of_ne ne]
        exact unbound other named
      · rintro given' _ ⟨more, rfl, others⟩
        refine ⟨inside.map (Override.under name) ++ more, ?_, .cons found free fresh filled apart replayed others⟩
        rw [located_append, located_child]

theorem Symbols.not_isUnion_of_isStructured {type : TypeId} (structured : symbols.isStructured type = true) :
    symbols.isUnion type = false := by
  rw [isStructured] at structured
  rw [isUnion]
  cases found : symbols.shape? type with
  | none => rfl
  | some shape =>
    rw [found] at structured
    cases shape with
    | union alternatives => cases structured
    | _ => rfl

/-- Assignment notation. -/
theorem Body.fields_agree {assignments : List (String × Body)}
    (agree : ∀ assignment ∈ assignments, assignment.2.Agrees symbols parameters) :
    (Body.fields assignments).Agrees symbols parameters := by
  intro type path regular
  by_cases structured : symbols.isStructured type = true
  · obtain ⟨distinct, parts⟩ := regular structured
    rw [Body.value, if_neg (by simp [Symbols.not_isUnion_of_isStructured structured]), if_pos structured,
      Body.overrides, if_pos structured]
    refine (assignments_agree agree type path _ distinct parts [] (by simp)).map_left ?_
    rintro given _ ⟨inside, rfl, rebuilds⟩
    refine ⟨⟨inside, rfl, rebuilds.apart, rebuilds.replayed⟩, fun filled => ?_⟩
    have names : assignments.map Prod.fst ≠ [] := by simpa using filled structured
    simpa [located] using rebuilds.filled names
  · refine agrees_whole ?_
    rw [Body.overrides, if_neg structured]

mutual
/-- The overrides of a body rebuild its value. -/
theorem Body.agrees (body : Body) : body.Agrees symbols parameters := by
  cases body with
  | fields assignments => exact fields_agree (Body.all_agree assignments)
  | _ => exact fun type path _ => agrees_whole rfl

theorem Body.all_agree (assignments : List (String × Body)) :
    ∀ assignment ∈ assignments, assignment.2.Agrees symbols parameters := by
  cases assignments with
  | nil => simp
  | cons assignment rest =>
    obtain ⟨name, body⟩ := assignment
    exact List.forall_mem_cons.mpr ⟨body.agrees, Body.all_agree rest⟩
end

end Bodies

/-! ### Definitions -/

theorem located_root (overrides : List Override) : located .root overrides = overrides := by
  simp [located, FieldPath.root]

/-- With a base that is there, a definition fails as it does without one, or its overrides rebuild the value. -/
theorem Definition.template_agrees (definition : Definition) (symbols : Symbols) {templates : List Template}
    {type : TypeId} {base : String} (known : (templates.any fun template => template.name == base) = true)
    (regular : definition.body.Regular symbols type) :
    (Definition.template { definition with base := none } symbols templates type).Agree
      (fun plain derived => ∃ parameters value overrides,
        plain = ⟨definition.name, symbols.javaName type, some value, parameters, []⟩ ∧
        derived = ⟨definition.name, symbols.javaName type, some (.atom (symbols.javaName type) (.baseCall base)),
          parameters, overrides⟩ ∧
        definition.body.Rebuilds symbols .root type value overrides)
      (Definition.template { definition with base := some base } symbols templates type) := by
  refine (Reading.Agree.refl (readParameters symbols definition.parameters)).bind ?_
  rintro parameters _ rfl
  simp only [content, if_pos known]
  refine (definition.body.agrees type .root regular).bind ?_
  intro value overrides rebuilds
  exact .ok ⟨parameters, value, overrides, rfl, rfl, rebuilds⟩

/-- One more definition after definitions of any kind. -/
theorem registry_concat {symbols : Symbols} (distinct : symbols.Distinct) (name : String) {earlier : List Tree}
    (definitions : ∀ tree ∈ earlier, tree.IsDefinition) (definition : Definition) :
    (compile symbols (Tree.ofModule name (earlier ++ [definition.tree]))).registry =
      definition.translate symbols (compile symbols (Tree.ofModule name earlier)).registry := by
  have idle := (Compiler.idle_start symbols name).walkAll definitions
  have kept : ((Compiler.start symbols name).walkAll earlier).state.symbols = symbols := by
    rw [Compiler.walkAll_eq_run, Compiler.run_symbols]
    rfl
  have walked : (Compiler.start symbols name).walkAll (earlier ++ [definition.tree]) =
      ((Compiler.start symbols name).walkAll earlier).walk definition.tree := Compiler.walkAll_append ..
  rw [compile_ofModule idle.stack]
  generalize (Compiler.start symbols name).walkAll earlier = before at idle kept walked
  obtain ⟨state, stack⟩ := before
  cases idle.stack
  subst kept
  obtain ⟨stack, -, registry⟩ := Compiler.walk_translates definition state distinct idle.indexed
  rw [compile_ofModule (by rw [walked]; exact stack), walked]
  exact registry

theorem Registry.remarkAll_nil (registry : Registry) (name : String) : registry.remarkAll name [] = registry := by
  simp [remarkAll]

/-- A definition that modifies a registered template and the same definition without the base have the same
    diagnostics, and both are dropped or neither. If they are registered, the overrides of the first, replayed in any
    order on a value without any field, give the value of the second, and no override is inside the part of another. -/
theorem modification_agrees_with_value (order : List Builtin) (declarations : Declarations) (symbols : Symbols)
    (resolved : declarations.resolveIn order = .ok symbols) (module : String) (earlier : List Tree)
    (definitions : ∀ tree ∈ earlier, tree.IsDefinition) (base : String)
    (registered : ∃ template ∈ (compile symbols (Tree.ofModule module earlier)).registry.templates,
      template.name = base)
    (use : TypeUse) (name : String) (parameters : List (TypeUse × String)) (body : Body)
    (regular : ∀ type, symbols.lookup use = some type → body.Regular symbols type) :
    let before := (compile symbols (Tree.ofModule module earlier)).registry
    let after (base : Option String) := (compile symbols (Tree.ofModule module
      (earlier ++ [Tree.ofDefinition use name parameters base body.tree]))).registry
    let plain := after none
    let derived := after (some base)
    derived.diagnostics = plain.diagnostics ∧
      ((∃ remarks context fault, plain = (before.remarkAll name remarks).report ⟨context, .fault fault⟩ ∧
          derived = plain) ∨
        ∃ remarks type parameters value overrides, symbols.lookup use = some type ∧
          plain = (before.remarkAll name remarks).add ⟨name, symbols.javaName type, some value, parameters, []⟩ ∧
          derived = (before.remarkAll name remarks).add
            ⟨name, symbols.javaName type, some (.atom (symbols.javaName type) (.baseCall base)), parameters,
              overrides⟩ ∧
          overrides.Pairwise Override.Apart ∧
          ∀ reordered, reordered.Perm overrides →
            replay symbols type reordered (symbols.unbound type) = some value) := by
  intro before after plain derived
  have distinct := Declarations.resolveIn_distinct resolved
  let definition : Definition := ⟨use, name, parameters, none, body⟩
  have plainly : plain = definition.translate symbols before := registry_concat distinct module definitions definition
  have derivedly : derived = Definition.translate symbols before { definition with base := some base } :=
    registry_concat distinct module definitions { definition with base := some base }
  cases found : symbols.lookup use with
  | none =>
    simp only [Definition.translate, definition, found] at plainly derivedly
    refine ⟨by rw [plainly, derivedly], .inl ⟨[], none, .unknownType use.name, ?_, derivedly.trans plainly.symm⟩⟩
    rw [Registry.remarkAll_nil]
    exact plainly
  | some type =>
    have known : (before.templates.any fun template => template.name == base) = true := by simpa using registered
    have agree := definition.template_agrees symbols known (regular type found)
    simp only [Definition.translate, definition, found] at plainly derivedly agree
    generalize Definition.template ⟨use, name, parameters, none, body⟩ symbols before.templates type = reading
      at plainly agree
    generalize Definition.template ⟨use, name, parameters, some base, body⟩ symbols before.templates type = reading'
      at derivedly agree
    cases agree with
    | error remarks fault =>
      exact ⟨by rw [plainly, derivedly], .inl ⟨remarks, some name, fault, plainly, derivedly.trans plainly.symm⟩⟩
    | @ok remarks _ _ results =>
      obtain ⟨parameters, value, overrides, rfl, rfl, rebuilds⟩ := results
      obtain ⟨inside, rfl, apart, replayed⟩ := rebuilds.replayed
      rw [located_root] at derivedly
      refine ⟨by rw [plainly, derivedly]; rfl, .inr ⟨remarks, type, parameters, value, inside, rfl, plainly, derivedly,
        apart, fun reordered perm => ?_⟩⟩
      rw [← replay_perm perm.symm apart, replayed]

/-- A record inside a record, of which one field is modified before a field of the outer one: two overrides, which are
    replayed backwards here. -/
theorem modification_agrees_with_value_nested :
    let declarations : Declarations :=
      { types := [⟨"R", .record [⟨"a", .builtin "integer"⟩, ⟨"s", .declared "S"⟩]⟩,
          ⟨"S", .set [⟨"x", .builtin "integer"⟩, ⟨"y", .builtin "integer"⟩]⟩] }
    let symbols : Symbols :=
      { entries := [Builtin.integer.entry, ⟨"R", "R", some (.record [⟨"a", ⟨0⟩⟩, ⟨"s", ⟨2⟩⟩])⟩,
          ⟨"S", "S", some (.set [⟨"x", ⟨0⟩⟩, ⟨"y", ⟨0⟩⟩])⟩]
        builtins := [("integer", ⟨0⟩)]
        declared := [("R", ⟨1⟩), ("S", ⟨2⟩)]
        constants := [] }
    let earlier := [Tree.ofDefinition (.declared "R") "base" [] none .ofAny]
    let body : Body := .fields [("s", .fields [("y", .any)]), ("a", .any)]
    let after (base : Option String) := (compile symbols (Tree.ofModule "M"
      (earlier ++ [Tree.ofDefinition (.declared "R") "t" [] base body.tree]))).registry
    declarations.resolveIn [.integer] = .ok symbols ∧ body.Regular symbols ⟨1⟩ ∧
      ∃ value overrides, (after none).templates.getLast?.bind Template.value = some value ∧
        (after (some "base")).templates.getLast?.map Template.overrides = some overrides ∧
        overrides.map (·.path.fields) = [["s", "y"], ["a"]] ∧
        replay symbols ⟨1⟩ overrides.reverse (symbols.unbound ⟨1⟩) = some value := by
  intro declarations symbols earlier body after
  have resolved : declarations.resolveIn [.integer] = .ok symbols := by rfl
  have regular : body.Regular symbols ⟨1⟩ := by
    intro _
    refine ⟨by decide, ?_, ?_, trivial⟩
    · intro field found
      have isField : Field.find? (symbols.fields ⟨1⟩) "s" = some ⟨"s", ⟨2⟩⟩ := by decide
      cases found.symm.trans isField
      refine ⟨fun _ => by simp, fun _ => ⟨by decide, ?_, trivial⟩⟩
      exact fun field _ => ⟨fun _ => by simp, trivial⟩
    · exact fun field _ => ⟨fun _ => by simp, trivial⟩
  have isType : symbols.lookup (.declared "R") = some ⟨1⟩ := by decide
  have registered : ((compile symbols (Tree.ofModule "M" earlier)).registry.templates.any fun template =>
      template.name == "base") = true := by decide +kernel
  have kept : (after none).templates.length = 2 := by decide +kernel
  obtain ⟨-, ⟨remarks, context, fault, dropped, -⟩ |
      ⟨remarks, type, parameters, value, overrides, found, plain, derived, -, replayed⟩⟩ :=
    modification_agrees_with_value [.integer] declarations symbols resolved "M" earlier (by decide) "base"
      (by simpa using registered) (.declared "R") "t" [] body fun type found => by
        cases found.symm.trans isType
        exact regular
  · have before : (compile symbols (Tree.ofModule "M" earlier)).registry.templates.length = 1 := by decide +kernel
    have same : (after none).templates.length = 1 := (congrArg (·.templates.length) dropped).trans before
    rw [kept] at same
    cases same
  · cases found.symm.trans isType
    have lastPlain := (congrArg (fun registry => registry.templates.getLast?) plain).trans List.getLast?_concat
    have lastDerived := (congrArg (fun registry => registry.templates.getLast?) derived).trans List.getLast?_concat
    have paths : (after (some "base")).templates.getLast?.map
        (fun template => template.overrides.map (·.path.fields)) = some [["s", "y"], ["a"]] := by decide +kernel
    refine ⟨resolved, regular, value, overrides, congrArg (·.bind Template.value) lastPlain,
      congrArg (·.map Template.overrides) lastDerived, ?_, replayed _ (List.reverse_perm _)⟩
    exact Option.some.inj ((congrArg (·.map fun template => template.overrides.map (·.path.fields))
      lastDerived).symm.trans paths)

end TtcnTemplates
