import TtcnTemplates.Proofs.Replay

/-! # Which field a body belongs to

In assignment notation a body belongs to the field that was named last. An entry that has a name and a body gives its
own field a value. But an entry may lack one of the two: the name of an entry without a body is kept for the entries
after it, and the next body without a name is taken for that field. Only where no name is kept, a body without a name
is passed over with a remark.

Values and overrides differ in what is done with a body, and not in the field that it is taken for. Both are therefore
read by one argument, of which the scope and the reading of a single body are parameters (`FieldEntry.Mode`).
-/

namespace TtcnTemplates

/-- An entry of assignment notation, of which the name or the body may be missing. -/
structure FieldEntry where
  name : Option String
  body : Option Body

namespace FieldEntry

/-- The tree of an entry. -/
def tree (entry : FieldEntry) : Tree :=
  ⟨.field, entry.name.toList.map Tree.ofName ++ entry.body.toList.map Body.tree⟩

/-- The body of an entry with the field that it is taken for, where `kept` is the name that was kept. -/
def taken (kept : Option String) (entry : FieldEntry) : List (Option String × Body) :=
  entry.body.toList.map fun body => (entry.name.or kept, body)

/-- The name that is kept after an entry. -/
def keep (kept : Option String) (entry : FieldEntry) : Option String :=
  if entry.body.isSome then none else entry.name.or kept

/-- The bodies of entries with the fields that they are taken for. -/
def attributed (kept : Option String) : List FieldEntry → List (Option String × Body)
  | [] => []
  | entry :: rest => entry.taken kept ++ attributed (entry.keep kept) rest

/-- The bodies of entries with the fields that their own entries name. -/
def owned (entries : List FieldEntry) : List (Option String × Body) := entries.flatMap (taken none)

/-- The name that is kept after entries. -/
def keptAfter (entries : List FieldEntry) : Option String := entries.foldl keep none

end FieldEntry

/-- A body in assignment notation whose entries may lack their names or their bodies. -/
def Tree.ofEntries (entries : List FieldEntry) : Tree := .ofShape ⟨.fieldList, entries.map FieldEntry.tree⟩

namespace FieldEntry

/-! ### Names that are kept -/

@[simp] theorem taken_mk_none (kept name : Option String) : taken kept ⟨name, none⟩ = [] := rfl

@[simp] theorem taken_mk_some (kept name : Option String) (body : Body) :
    taken kept ⟨name, some body⟩ = [(name.or kept, body)] := rfl

@[simp] theorem keep_mk_none (kept name : Option String) : keep kept ⟨name, none⟩ = name.or kept := rfl

@[simp] theorem keep_mk_some (kept name : Option String) (body : Body) : keep kept ⟨name, some body⟩ = none := rfl

/-- A list is cut at its first item or after it. -/
theorem exists_cut_cons {α : Type} {first : α} {rest : List α} {holds : List α → α → List α → Prop} :
    (∃ before item after, first :: rest = before ++ item :: after ∧ holds before item after) ↔
      holds [] first rest ∨
        ∃ before item after, rest = before ++ item :: after ∧ holds (first :: before) item after := by
  constructor
  · rintro ⟨before, item, after, cut, here⟩
    cases before with
    | nil =>
      cases cut
      exact .inl here
    | cons _ before =>
      cases cut
      exact .inr ⟨before, item, after, rfl, here⟩
  · rintro (here | ⟨before, item, after, rfl, here⟩)
    · exact ⟨[], first, rest, rfl, here⟩
    · exact ⟨first :: before, item, after, rfl, here⟩

/-- Where the field of a body comes from. -/
theorem mem_attributed_iff {kept name : Option String} {body : Body} {entries : List FieldEntry} :
    (name, body) ∈ attributed kept entries ↔ ∃ before entry after, entries = before ++ entry :: after ∧
      entry.body = some body ∧ name = entry.name.or (before.foldl keep kept) := by
  induction entries generalizing kept with
  | nil => simp [attributed]
  | cons entry rest ih =>
    have here : (name, body) ∈ entry.taken kept ↔ entry.body = some body ∧ name = entry.name.or kept := by
      obtain ⟨own, given⟩ := entry
      cases given <;> simp [and_comm, eq_comm]
    rw [attributed, List.mem_append, ih, exists_cut_cons, here]
    rfl

/-- A name is kept if it is that of an entry without a body, and all entries since then are empty. -/
theorem foldl_keep_eq_some_iff {kept : Option String} {entries : List FieldEntry} {name : String} :
    entries.foldl keep kept = some name ↔ (kept = some name ∧ ∀ entry ∈ entries, entry = ⟨none, none⟩) ∨
      ∃ before entry between, entries = before ++ entry :: between ∧
        entry = ⟨some name, none⟩ ∧ ∀ entry ∈ between, entry = ⟨none, none⟩ := by
  induction entries generalizing kept with
  | nil => simp
  | cons entry rest ih =>
    rw [List.foldl_cons, ih, exists_cut_cons]
    obtain ⟨own, given⟩ := entry
    cases given with
    | some body => simp
    | none => cases own <;> simp

/-- Bodies are taken for the fields that their own entries name, unless a name is kept where a body has none. -/
theorem attributed_ne_owned_iff {kept : Option String} {entries : List FieldEntry} :
    attributed kept entries ≠ owned entries ↔ ∃ before entry after, entries = before ++ entry :: after ∧
      (entry.name = none ∧ entry.body.isSome = true) ∧ (before.foldl keep kept).isSome = true := by
  induction entries generalizing kept with
  | nil => simp [attributed, owned]
  | cons entry rest ih =>
    have here : entry.taken kept ≠ entry.taken none ↔
        (entry.name = none ∧ entry.body.isSome = true) ∧ kept.isSome = true := by
      obtain ⟨own, given⟩ := entry
      cases given <;> cases own <;> cases kept <;> simp
    have split : attributed kept (entry :: rest) = owned (entry :: rest) ↔
        entry.taken kept = entry.taken none ∧ attributed (entry.keep kept) rest = owned rest := by
      refine ⟨fun same => List.append_inj same ?_, fun both => ?_⟩
      · simp [taken]
      · rw [attributed, both.1, both.2]
        rfl
    rw [ne_eq, split, not_and_or, exists_cut_cons]
    exact or_congr here ih

/-- A body is only taken for a field that its own entry does not name if it follows an entry without a body. -/
theorem attributed_none_ne_owned_iff {entries : List FieldEntry} :
    attributed none entries ≠ owned entries ↔ ∃ before field between body after,
      entries = before ++ ⟨some field, none⟩ :: (between ++ ⟨none, some body⟩ :: after) ∧
        ∀ entry ∈ between, entry = ⟨none, none⟩ := by
  rw [attributed_ne_owned_iff]
  constructor
  · rintro ⟨before, ⟨own, given⟩, after, cut, ⟨rfl, some⟩, kept⟩
    obtain ⟨body, rfl⟩ := Option.isSome_iff_exists.mp some
    obtain ⟨field, kept⟩ := Option.isSome_iff_exists.mp kept
    rcases foldl_keep_eq_some_iff.mp kept with ⟨absurd, -⟩ | ⟨before, entry, between, rfl, rfl, empty⟩
    · cases absurd
    · exact ⟨before, field, between, body, after, by simpa using cut, empty⟩
  · rintro ⟨before, field, between, body, after, cut, empty⟩
    have kept : (before ++ ⟨some field, none⟩ :: between).foldl keep none = some field :=
      foldl_keep_eq_some_iff.mpr (.inr ⟨before, _, between, rfl, rfl, empty⟩)
    refine ⟨before ++ ⟨some field, none⟩ :: between, ⟨none, some body⟩, after, by simpa using cut, ⟨rfl, rfl⟩, ?_⟩
    rw [kept]
    rfl

end FieldEntry

/-! ### Reading entries -/

namespace FieldEntry

/-- A name, where there is one, is that of a field. -/
def Declared (fields : List (Field TypeId)) (name : Option String) : Prop :=
  ∀ given ∈ name, (Field.find? fields given).isSome = true

theorem declared_none (fields : List (Field TypeId)) : Declared fields none := by simp [Declared]

theorem Declared.or {fields : List (Field TypeId)} {first second : Option String} (left : Declared fields first)
    (right : Declared fields second) : Declared fields (first.or second) := by
  intro name member
  rcases Option.or_eq_some_iff.mp member with own | ⟨-, before⟩
  · exact left name own
  · exact right name before

theorem Declared.keep {fields : List (Field TypeId)} {kept : Option String} {entry : FieldEntry}
    (left : Declared fields entry.name) (right : Declared fields kept) : Declared fields (entry.keep kept) := by
  rw [FieldEntry.keep]
  split
  · exact declared_none fields
  · exact left.or right

/-- How entries are read: the scope, by what has been read and the name that is kept, and what is read from a body that
    is taken for a field. -/
structure Mode (α : Type) where
  scope : α → Option String → Scope
  take : α → Option String × Body → Reading α

/-- What the scope of a mode does with the names and bodies of fields. -/
structure Mode.Reads {α : Type} (mode : Mode α) (symbols : Symbols) (parameters : List Parameter)
    (fields : List (Field TypeId)) : Prop where
  enterField (state : State) (tree : Tree) (read : α) (kept : Option String) (isField : tree.form = .field) :
    (mode.scope read kept).enter state tree = .ok ⟨state, mode.scope read kept, none⟩
  enterName (state : State) (read : α) (kept : Option String) {name : String}
    (declared : (Field.find? fields name).isSome = true) :
    (mode.scope read kept).enter state (.ofName name) = .ok ⟨state, mode.scope read (some name), none⟩
  leave (state : State) (tree : Tree) (read : α) (kept : Option String) (notBody : tree.is .body = false) :
    (mode.scope read kept).leave state tree = .ok (state, .stay (mode.scope read kept))
  body (state : State) (sameSymbols : state.symbols = symbols) (sameParameters : state.parameters = parameters)
    (read : α) {field : Option String} (declared : Declared fields field) (body : Body) (below : List Scope) :
    (Compiler.walk ⟨state, mode.scope read field :: below⟩ body.tree).Same
      ((mode.take read (field, body)).resume state fun state read => ⟨state, mode.scope read none :: below⟩)

namespace Mode.Reads

variable {α : Type} {mode : Mode α} {symbols : Symbols} {parameters : List Parameter} {fields : List (Field TypeId)}
  (reads : mode.Reads symbols parameters fields)

include reads

omit reads in
/-- One list after another. -/
theorem resume_foldlM_append {β : Type} (take : α → β → Reading α) (first second : List β) (read : α) (state : State)
    (next : State → α → Compiler) :
    ((first ++ second).foldlM take read).resume state next =
      (first.foldlM take read).resume state fun state read => (second.foldlM take read).resume state next := by
  induction first generalizing read state with
  | nil => rfl
  | cons item rest ih => simp only [List.cons_append, List.foldlM_cons, Reading.resume_bind, ih]

/-- One entry. -/
theorem walk_entry (state : State) (sameSymbols : state.symbols = symbols)
    (sameParameters : state.parameters = parameters) (read : α) {kept : Option String}
    (keptDeclared : Declared fields kept) {entry : FieldEntry} (declared : Declared fields entry.name)
    (below : List Scope) :
    (Compiler.walk ⟨state, mode.scope read kept :: below⟩ entry.tree).Same
      (((entry.taken kept).foldlM mode.take read).resume state fun state read =>
        ⟨state, mode.scope read (entry.keep kept) :: below⟩) := by
  have entered (kept : Option String) : Compiler.enter ⟨state, mode.scope read kept :: below⟩ entry.tree =
      ⟨state, mode.scope read kept :: below⟩ := by
    simp only [Compiler.enter, reads.enterField state entry.tree read kept rfl]
  have stays (state : State) (read : α) (kept : Option String) {tree : Tree} (notBody : tree.is .body = false) :
      Compiler.leave ⟨state, mode.scope read kept :: below⟩ tree = ⟨state, mode.scope read kept :: below⟩ := by
    simp only [Compiler.leave, reads.leave state tree read kept notBody]
  have named : Compiler.walkAll ⟨state, mode.scope read kept :: below⟩ (entry.name.toList.map Tree.ofName) =
      ⟨state, mode.scope read (entry.name.or kept) :: below⟩ := by
    cases own : entry.name with
    | none => rfl
    | some name =>
      change Compiler.leave (Compiler.enter ⟨state, mode.scope read kept :: below⟩ (.ofName name)) (.ofName name) = _
      simp only [Compiler.enter, reads.enterName state read kept (declared name own)]
      exact stays state read _ rfl
  have walked : Compiler.walk ⟨state, mode.scope read kept :: below⟩ entry.tree =
      (Compiler.walkAll ⟨state, mode.scope read (entry.name.or kept) :: below⟩
        (entry.body.toList.map Body.tree)).leave entry.tree := by
    change ((Compiler.enter _ entry.tree).walkAll (_ ++ _)).leave entry.tree = _
    rw [entered, Compiler.walkAll_append, named]
  rw [walked]
  obtain ⟨own, given⟩ := entry
  cases given with
  | none => exact .of_eq (stays state read _ rfl)
  | some body =>
    have taken := reads.body state sameSymbols sameParameters read (declared.or keptDeclared) body below
    refine (taken.step (.leave _)).trans ?_
    change Compiler.Same (Compiler.leave _ _) _
    rw [Reading.leave_resume _ _ _ rfl]
    simp only [taken_mk_some, keep_mk_some, List.foldlM_cons, List.foldlM_nil, Reading.resume_bind,
      Reading.resume_pure]
    exact Reading.resume_same _ _ fun remarks read => .of_eq (stays _ read none rfl)

/-- Entries are read one after the other, each body for the field that it is taken for. -/
theorem walkAll_entries {entries : List FieldEntry} (state : State) (sameSymbols : state.symbols = symbols)
    (sameParameters : state.parameters = parameters) (read : α) {kept : Option String}
    (keptDeclared : Declared fields kept) (declared : ∀ entry ∈ entries, Declared fields entry.name)
    (below : List Scope) :
    (Compiler.walkAll ⟨state, mode.scope read kept :: below⟩ (entries.map FieldEntry.tree)).Same
      (((attributed kept entries).foldlM mode.take read).resume state fun state read =>
        ⟨state, mode.scope read (entries.foldl keep kept) :: below⟩) := by
  induction entries generalizing state read kept with
  | nil => exact .rfl
  | cons entry rest ih =>
    obtain ⟨declaredFirst, declaredRest⟩ := List.forall_mem_cons.mp declared
    refine Compiler.Same.trans (.walkAll (reads.walk_entry state sameSymbols sameParameters read keptDeclared
      declaredFirst below) _) ?_
    rw [Reading.walkAll_resume, attributed, resume_foldlM_append]
    refine Reading.resume_same _ _ fun remarks read => ?_
    exact ih (state.warnAll remarks) (by simpa using sameSymbols) (by simpa using sameParameters) read
      (declaredFirst.keep keptDeclared) declaredRest

end Mode.Reads

/-! ### Values and overrides -/

/-- What has been given to the fields of a record or set, after a body that is taken for a field. -/
def takeValue (symbols : Symbols) (parameters : List Parameter) (type : String) (fields : List (Field TypeId))
    (given : List (String × Expr)) : Option String × Body → Reading (List (String × Expr))
  | (none, _) => do
    Reading.remark [.unnamedField type]
    return given
  | (some name, body) => Body.assigned symbols parameters type fields given [(name, body)]

/-- The overrides of the fields of the part at `path`, after a body that is taken for a field. -/
def takeOverrides (symbols : Symbols) (parameters : List Parameter) (type : String) (path : FieldPath)
    (fields : List (Field TypeId)) (overrides : List Override) : Option String × Body → Reading (List Override)
  | (none, _) => do
    Reading.remark [.unnamedField type]
    return overrides
  | (some name, body) => do
    let more ← Body.fieldOverrides symbols parameters type path fields [(name, body)]
    return overrides ++ more

section Modes

variable (symbols : Symbols) (parameters : List Parameter) (type : String) (path : FieldPath)
  (fields : List (Field TypeId))

/-- A record or set as a value. -/
def valueMode : Mode (List (String × Expr)) where
  scope given kept := .named type (Slot.given fields given)
    (kept.bind fun name => fields.findIdx? fun field => field.name == name)
  take := takeValue symbols parameters type fields

/-- A record or set of which fields are overridden. -/
def overrideMode : Mode (List Override) where
  scope overrides kept := .overrideList type path fields kept overrides
  take := takeOverrides symbols parameters type path fields

variable {symbols} (distinct : symbols.Distinct)

include distinct

theorem valueMode_reads (different : (fields.map Field.name).Nodup) :
    (valueMode symbols parameters type fields).Reads symbols parameters fields where
  enterField state tree read kept isField := by
    simp only [valueMode, Scope.enter, Scope.enterNamed, isField]
  enterName state read kept name declared := by
    obtain ⟨absent, -⟩ | ⟨index, field, -, position, -⟩ := Field.find?_cases fields name
    · simp [absent] at declared
    · simp only [valueMode, Scope.enter, Scope.enterNamed, Tree.ofName, Tree.leaf, Slot.findIdx?_given, position,
        Option.bind_some]
  leave state tree read kept notBody := by simp [valueMode, Scope.leave, notBody]
  body state sameSymbols sameParameters read field declared body below := by
    subst sameSymbols sameParameters
    cases field with
    | none =>
      refine Compiler.walk_passed below ?_
      simp only [valueMode, Scope.enter, Scope.enterNamed, Body.form_tree, Option.bind_none, Tree.tag, Form.tag]
      rfl
    | some name =>
      obtain ⟨absent, -⟩ | ⟨index, field, found, position, atIndex, rfl⟩ := Field.find?_cases fields name
      · simp [absent, Declared] at declared
      · simp only [valueMode, Option.bind_some, position]
        exact Compiler.walk_assigned body.reads distinct type different read atIndex found below

theorem overrideMode_reads : (overrideMode symbols parameters type path fields).Reads symbols parameters fields where
  enterField state tree read kept isField := by
    simp only [overrideMode, Scope.enter, Scope.enterOverrides, isField]
  enterName state read kept name declared := by
    obtain ⟨field, found⟩ := Option.isSome_iff_exists.mp declared
    simp only [overrideMode, Scope.enter, Scope.enterOverrides, Tree.ofName, Tree.leaf, found]
  leave state tree read kept notBody := by simp [overrideMode, Scope.leave, notBody]
  body state sameSymbols sameParameters read field declared body below := by
    subst sameSymbols sameParameters
    cases field with
    | none =>
      refine Compiler.walk_passed below ?_
      simp only [overrideMode, Scope.enter, Scope.enterOverrides, Body.form_tree, Option.bind_none, Tree.tag, Form.tag]
      rfl
    | some name =>
      obtain ⟨field, found⟩ := Option.isSome_iff_exists.mp (declared name rfl)
      refine (Compiler.walk_amended body.amends distinct type path read found below).trans (.of_eq ?_)
      simp only [overrideMode, takeOverrides, Body.fieldOverrides, found, Reading.resume_bind, Reading.resume_pure,
        List.append_nil]

end Modes

end FieldEntry

/-! ### What is read, and from where -/

namespace Body

variable {symbols : Symbols} {parameters : List Parameter}

/-- A body that is not taken field by field overrides the part itself. -/
theorem whole_under {body : Body} {path : FieldPath} {type : TypeId} {overrides : List Override}
    (reads : Reading.result (do
      let value ← body.value symbols parameters type
      return [(⟨path, value⟩ : Override)]) = .ok overrides) :
    ∀ override ∈ overrides, path.fields <+: override.path.fields := by
  obtain ⟨value, -, whole⟩ := Reading.exists_of_bind_eq_ok reads
  obtain rfl : [⟨path, value⟩] = overrides := Except.ok.inj whole
  simp

mutual
/-- The overrides of a part are at or below its path. -/
theorem overrides_under (body : Body) {path : FieldPath} {type : TypeId} {overrides : List Override}
    (reads : (body.overrides symbols parameters path type).result = .ok overrides) :
    ∀ override ∈ overrides, path.fields <+: override.path.fields := by
  cases body with
  | fields assignments =>
    rw [Body.overrides] at reads
    split at reads
    · exact fieldOverrides_under assignments reads
    · exact whole_under reads
  | _ => exact whole_under reads

theorem fieldOverrides_under (assignments : List (String × Body)) {record : String} {path : FieldPath}
    {fields : List (Field TypeId)} {overrides : List Override}
    (reads : (fieldOverrides symbols parameters record path fields assignments).result = .ok overrides) :
    ∀ override ∈ overrides, path.fields <+: override.path.fields := by
  cases assignments with
  | nil =>
    obtain rfl : [] = overrides := Except.ok.inj reads
    simp
  | cons assignment rest =>
    obtain ⟨name, body⟩ := assignment
    rw [fieldOverrides] at reads
    split at reads
    · cases reads
    · obtain ⟨first, here, reads⟩ := Reading.exists_of_bind_eq_ok reads
      obtain ⟨more, later, reads⟩ := Reading.exists_of_bind_eq_ok reads
      obtain rfl : first ++ more = overrides := Except.ok.inj reads
      intro override member
      rcases List.mem_append.mp member with member | member
      · exact (List.prefix_append path.fields [name]).trans (overrides_under body here override member)
      · exact fieldOverrides_under rest later override member
end

end Body

namespace FieldEntry

/-- What is read from a list was there before or is given by one of its items. -/
theorem exists_of_mem_foldlM {α β : Type} {take : List β → α → Reading (List β)} {gives : α → β → Prop}
    (step : ∀ read item after, (take read item).result = .ok after → ∀ value ∈ after, value ∈ read ∨ gives item value)
    {items : List α} {read after : List β} (reads : (items.foldlM take read).result = .ok after) :
    ∀ value ∈ after, value ∈ read ∨ ∃ item ∈ items, gives item value := by
  induction items generalizing read with
  | nil =>
    cases reads
    exact fun _ => .inl
  | cons item rest ih =>
    rw [List.foldlM_cons] at reads
    obtain ⟨next, first, others⟩ := Reading.exists_of_bind_eq_ok reads
    intro value member
    rcases ih others value member with before | ⟨later, among, given⟩
    · rcases step read item next first value before with before | given
      · exact .inl before
      · exact .inr ⟨item, List.mem_cons_self, given⟩
    · exact .inr ⟨later, List.mem_cons_of_mem _ among, given⟩

section Sources

variable {symbols : Symbols} {parameters : List Parameter} {type : String} {path : FieldPath}
  {fields : List (Field TypeId)}

/-- The value that a body gives to the field that it is taken for. -/
def GivesValue (symbols : Symbols) (parameters : List Parameter) (fields : List (Field TypeId))
    (source : Option String × Body) (slot : String × Expr) : Prop :=
  source.1 = some slot.1 ∧ ∃ field, Field.find? fields slot.1 = some field ∧
    (source.2.value symbols parameters field.type).result = .ok slot.2

/-- An override that a body gives, which is at or below the path of the field that it is taken for. -/
def GivesOverride (symbols : Symbols) (parameters : List Parameter) (path : FieldPath) (fields : List (Field TypeId))
    (source : Option String × Body) (override : Override) : Prop :=
  ∃ name field overrides, source.1 = some name ∧ Field.find? fields name = some field ∧
    (source.2.overrides symbols parameters (path.child name) field.type).result = .ok overrides ∧
    override ∈ overrides ∧ (path.child name).fields <+: override.path.fields

theorem takeValue_gives (given : List (String × Expr)) (source : Option String × Body) (after : List (String × Expr))
    (reads : (takeValue symbols parameters type fields given source).result = .ok after) :
    ∀ slot ∈ after, slot ∈ given ∨ GivesValue symbols parameters fields source slot := by
  obtain ⟨name, body⟩ := source
  cases name with
  | none =>
    cases reads
    exact fun _ => .inl
  | some name =>
    rw [takeValue, Body.assigned] at reads
    cases found : Field.find? fields name with
    | none =>
      rw [found] at reads
      cases reads
    | some field =>
      rw [found] at reads
      obtain ⟨value, valued, reads⟩ := Reading.exists_of_bind_eq_ok reads
      obtain ⟨-, -, reads⟩ := Reading.exists_of_bind_eq_ok reads
      cases reads
      intro slot member
      rcases List.mem_cons.mp member with rfl | before
      · exact .inr ⟨rfl, field, found, valued⟩
      · exact .inl before

theorem takeOverrides_gives (overrides : List Override) (source : Option String × Body) (after : List Override)
    (reads : (takeOverrides symbols parameters type path fields overrides source).result = .ok after) :
    ∀ override ∈ after, override ∈ overrides ∨ GivesOverride symbols parameters path fields source override := by
  obtain ⟨name, body⟩ := source
  cases name with
  | none =>
    cases reads
    exact fun _ => .inl
  | some name =>
    rw [takeOverrides, Body.fieldOverrides] at reads
    cases found : Field.find? fields name with
    | none =>
      rw [found] at reads
      cases reads
    | some field =>
      rw [found] at reads
      obtain ⟨more, last, all⟩ := Reading.exists_of_bind_eq_ok reads
      obtain ⟨given, amended, last⟩ := Reading.exists_of_bind_eq_ok last
      obtain rfl : given ++ [] = more := Except.ok.inj last
      obtain rfl : overrides ++ (given ++ []) = after := Except.ok.inj all
      intro override member
      rw [List.append_nil] at member
      rcases List.mem_append.mp member with before | member
      · exact .inl before
      · exact .inr ⟨name, field, given, rfl, found, amended, member, body.overrides_under amended override member⟩

end Sources

end FieldEntry

/-! ### The scopes of entries -/

namespace FieldEntry

section Scopes

variable {state : State} (distinct : state.symbols.Distinct) {type : TypeId}
  (structured : state.symbols.isStructured type = true) {entries : List FieldEntry}
  (declared : ∀ entry ∈ entries, Declared (state.symbols.fields type) entry.name)

include distinct structured declared

/-- The scope that is opened for a value yields what the bodies give to the fields that they are taken for. -/
theorem leave_values (below : List Scope) :
    let name := state.symbols.javaName type
    let fields := state.symbols.fields type
    let tree := Tree.ofEntries entries
    let opened := state.valueScope type tree
    ((Compiler.walkAll ⟨opened.1, opened.2 :: below⟩ tree.children).leave tree).Same
      (((attributed none entries).foldlM (takeValue state.symbols state.parameters name fields) []).resume state
        fun state given => Compiler.deliver state tree
          (.value (.named name (fields.map fun field => (field.name, given.lookup field.name)))) below) := by
  intro name fields tree opened
  let mode := valueMode state.symbols state.parameters name fields
  have scope : opened = (state.note (.reading (some .fieldList) name), mode.scope [] none) := by
    simp only [opened, State.valueScope, show tree.shape = some .fieldList from rfl,
      Symbols.not_isUnion_of_isStructured structured, structured, Bool.false_eq_true, if_false, if_true]
    rfl
  have quiet : Compiler.Same ⟨opened.1, opened.2 :: below⟩ ⟨state, mode.scope [] none :: below⟩ := by
    rw [scope]
    exact ⟨rfl, rfl⟩
  refine ((quiet.walkAll tree.children).step (.leave tree)).trans ?_
  have walked := (valueMode_reads state.parameters name fields distinct (distinct type)).walkAll_entries state rfl rfl
    [] (declared_none fields) declared below
  refine (Reading.leave_leave_resume walked rfl rfl).trans ?_
  refine Reading.resume_same _ _ fun remarks given => ?_
  have closes (pending : Option Nat) : Scope.leave (state.warnAll remarks) tree
      (.named name (Slot.given fields given) pending) = .ok (state.warnAll remarks, .close (some (.value
        (.named name (fields.map fun field => (field.name, given.lookup field.name)))))) := by
    simp [Scope.leave, Slot.given, Function.comp_def, show tree.is .body = true from rfl]
  exact Compiler.leave_close below (closes _)

/-- The scope that is opened for overrides yields those of the fields for which the bodies are taken. -/
theorem leave_overrides (path : FieldPath) (below : List Scope) :
    let name := state.symbols.javaName type
    let fields := state.symbols.fields type
    let tree := Tree.ofEntries entries
    let opened := state.overrideScope type path tree
    ((Compiler.walkAll ⟨opened.1, opened.2 :: below⟩ tree.children).leave tree).Same
      (((attributed none entries).foldlM (takeOverrides state.symbols state.parameters name path fields) []).resume
        state fun state overrides => Compiler.deliver state tree (.overrides overrides) below) := by
  intro name fields tree opened
  have scope : opened = (state, (overrideMode state.symbols state.parameters name path fields).scope [] none) :=
    if_pos ⟨rfl, structured⟩
  rw [scope]
  have walked := (overrideMode_reads state.parameters name path fields distinct).walkAll_entries state rfl rfl []
    (declared_none fields) declared below
  refine (Reading.leave_leave_resume walked rfl rfl).trans ?_
  exact Reading.resume_same _ _ fun remarks given => Compiler.leave_close below rfl

end Scopes

end FieldEntry

open FieldEntry in
/-- A record or set is given by entries of which the names are those of fields. As a value and as overrides, every body
    is read for the field that it is taken for, and one that is taken for no field is passed over with a remark. All
    values and overrides come from bodies that are taken for their fields. A body is taken for the field that its own
    entry names; without such a name it is taken for the name that is kept. So the bodies are taken for the fields of
    their own entries unless one without a name follows the name of an entry without a body, with only empty entries
    between the two. -/
theorem field_bodies_attributed {declarations : Declarations} {order : List Builtin} {state : State}
    (resolved : declarations.resolveIn order = .ok state.symbols) {type : TypeId}
    (structured : state.symbols.isStructured type = true) {entries : List FieldEntry}
    (declared : ∀ entry ∈ entries, Declared (state.symbols.fields type) entry.name) (path : FieldPath)
    (below : List Scope) :
    let name := state.symbols.javaName type
    let fields := state.symbols.fields type
    let tree := Tree.ofEntries entries
    let sources := attributed none entries
    let values := sources.foldlM (takeValue state.symbols state.parameters name fields) []
    let overrides := sources.foldlM (takeOverrides state.symbols state.parameters name path fields) []
    let valueScope := state.valueScope type tree
    let overrideScope := state.overrideScope type path tree
    ((Compiler.walkAll ⟨valueScope.1, valueScope.2 :: below⟩ tree.children).leave tree).Same
      (values.resume state fun state given => Compiler.deliver state tree
        (.value (.named name (fields.map fun field => (field.name, given.lookup field.name)))) below) ∧
    ((Compiler.walkAll ⟨overrideScope.1, overrideScope.2 :: below⟩ tree.children).leave tree).Same
      (overrides.resume state fun state overrides => Compiler.deliver state tree (.overrides overrides) below) ∧
    (∀ given, values.result = .ok given →
      ∀ slot ∈ given, ∃ source ∈ sources, GivesValue state.symbols state.parameters fields source slot) ∧
    (∀ given, overrides.result = .ok given → ∀ override ∈ given,
      ∃ source ∈ sources, GivesOverride state.symbols state.parameters path fields source override) ∧
    (∀ field body, (field, body) ∈ sources ↔ ∃ before entry after, entries = before ++ entry :: after ∧
      entry.body = some body ∧ field = entry.name.or (keptAfter before)) ∧
    (sources ≠ owned entries ↔ ∃ before field between body after,
      entries = before ++ ⟨some field, none⟩ :: (between ++ ⟨none, some body⟩ :: after) ∧
        ∀ entry ∈ between, entry = ⟨none, none⟩) := by
  intro name fields tree sources values overrides valueScope overrideScope
  have distinct := Declarations.resolveIn_distinct resolved
  refine ⟨leave_values distinct structured declared below, leave_overrides distinct structured declared path below,
    ?fromValues, ?fromOverrides, fun _ _ => mem_attributed_iff, attributed_none_ne_owned_iff⟩
  case fromValues =>
    intro given reads slot member
    simpa using exists_of_mem_foldlM takeValue_gives reads slot member
  case fromOverrides =>
    intro given reads override member
    simpa using exists_of_mem_foldlM takeOverrides_gives reads override member

open FieldEntry in
/-- The body of an entry without a name goes to the last field that was named before it without a body, also where an
    entry with neither stands between them. -/
theorem field_bodies_attributed_after_empty :
    let declarations : Declarations :=
      { types := [⟨"R", .record [⟨"a", .builtin "integer"⟩, ⟨"b", .builtin "integer"⟩]⟩] }
    let symbols : Symbols :=
      { entries := [Builtin.integer.entry, ⟨"R", "R", some (.record [⟨"a", ⟨0⟩⟩, ⟨"b", ⟨0⟩⟩])⟩]
        builtins := [("integer", ⟨0⟩)]
        declared := [("R", ⟨1⟩)]
        constants := [] }
    let entries : List FieldEntry :=
      [⟨some "b", some .any⟩, ⟨some "a", none⟩, ⟨none, none⟩, ⟨none, some (.literal "2")⟩, ⟨none, some .anyOrOmit⟩]
    declarations.resolveIn [.integer] = .ok symbols ∧ symbols.isStructured ⟨1⟩ = true ∧
      (∀ entry ∈ entries, Declared (symbols.fields ⟨1⟩) entry.name) ∧
      (some "a", .literal "2") ∈ attributed none entries ∧ attributed none entries ≠ owned entries := by
  intro declarations symbols entries
  have resolved : declarations.resolveIn [.integer] = .ok symbols := rfl
  have structured : symbols.isStructured ⟨1⟩ = true := rfl
  have declared : ∀ entry ∈ entries, Declared (symbols.fields ⟨1⟩) entry.name := by
    simp [entries, Declared, symbols, Symbols.fields, Symbols.shape?, Symbols.entry?, Field.find?]
  obtain ⟨-, -, -, -, sources, owned⟩ :=
    @field_bodies_attributed declarations [.integer] { symbols } resolved ⟨1⟩ structured entries declared .root []
  refine ⟨resolved, structured, declared, ?_, ?_⟩
  · exact (sources _ _).mpr ⟨entries.take 3, ⟨none, some (.literal "2")⟩, [⟨none, some .anyOrOmit⟩], rfl, rfl, rfl⟩
  · exact owned.mpr ⟨[⟨some "b", some .any⟩], "a", [⟨none, none⟩], .literal "2", [⟨none, some .anyOrOmit⟩], rfl,
      by simp⟩

/-- A body without a name becomes the value of the field that the entry before it names, and an override of it, and
    nothing is remarked. -/
theorem field_body_misattributed :
    let symbols : Symbols :=
      { entries := [Builtin.integer.entry, ⟨"R", "R", some (.record [⟨"a", ⟨0⟩⟩, ⟨"b", ⟨0⟩⟩])⟩]
        builtins := [("integer", ⟨0⟩)]
        declared := [("R", ⟨1⟩)]
        constants := [] }
    let body : Tree := .ofEntries [⟨some "a", none⟩, ⟨none, some (.literal "2")⟩]
    let registry := (compile symbols (.ofModule "M" [.ofDefinition (.declared "R") "t" [] none body,
      .ofDefinition (.declared "R") "u" [] (some "t") body])).registry
    let two := Expr.atom "INTEGER" (.literal "2")
    registry.diagnostics = [] ∧ registry.templates =
      [⟨"t", "R", some (.named "R" [("a", some two), ("b", none)]), [], []⟩,
        ⟨"u", "R", some (.atom "R" (.baseCall "t")), [], [⟨⟨["a"]⟩, two⟩]⟩] := by
  exact ⟨rfl, rfl⟩

end TtcnTemplates
