import TtcnTemplates.Proofs.Simulation

/-! # The scopes of bodies

For every kind of body, the scope that is opened for it and the translation of the body have the same outcome: walking
the body's tree is resuming its translation. Each construct has one lemma for a single part of it and one, by induction
over the parts, for the whole, and `Body.reads` and `Body.amends` put them together.
-/

namespace TtcnTemplates

/-! ### Bodies -/

/-- The compiler after the scope of a body was opened. -/
def Compiler.reading (state : State) (type : TypeId) (body : Tree) (below : List Scope) : Compiler :=
  ⟨(state.valueScope type body).1, (state.valueScope type body).2 :: below⟩

/-- The fields of every type have different names. -/
def Symbols.Distinct (symbols : Symbols) : Prop := ∀ type, ((symbols.fields type).map Field.name).Nodup

theorem Body.form_tree (body : Body) : body.tree.form = .body := by
  cases body <;> rfl

theorem Tree.not_definition_of_body {tree : Tree} (isBody : tree.is .body = true) : tree.is .definition = false := by
  rw [Tree.is_iff] at isBody
  simp [Tree.is, isBody]

/-- The scope of a body yields the body's value, whatever the body is read for. -/
def Body.Reads (body : Body) : Prop :=
  ∀ (state : State) (type : TypeId) (below : List Scope), state.symbols.Distinct →
    (((Compiler.reading state type body.tree below).walkAll body.tree.children).leave body.tree).Same
      ((body.value state.symbols state.parameters type).resume state fun state value =>
        Compiler.deliver state body.tree (.value value) below)

namespace Compiler

/-- Walking a body whose scope is opened by the scope `parent`. -/
theorem walk_body {body : Body} (reads : body.Reads) {state : State} {type : TypeId} {parent parent' : Scope}
    (below : List Scope) (distinct : state.symbols.Distinct)
    (opens : parent.enter state body.tree =
      .ok ⟨(state.valueScope type body.tree).1, parent', some (state.valueScope type body.tree).2⟩) :
    (walk ⟨state, parent :: below⟩ body.tree).Same
      ((body.value state.symbols state.parameters type).resume state fun state value =>
        deliver state body.tree (.value value) (parent' :: below)) := by
  refine Same.trans ?_ (reads state type (parent' :: below) distinct)
  generalize body.tree = tree at opens
  obtain ⟨form, children⟩ := tree
  rw [walk]
  simp only [enter, opens]
  refine (Same.walkAll ?_ children).step (.leave ⟨form, children⟩)
  exact ⟨rfl, rfl⟩

/-- A body that has no Java form is remarked on, and its value is a placeholder. -/
theorem unsupported_reads {state : State} {type : TypeId} {tree : Tree} (below : List Scope)
    (body : tree.is .body = true)
    (opens : state.valueScope type tree =
      (state.note (.reading tree.shape (state.symbols.javaName type))).unsupportedScope
        (state.symbols.javaName type) tree) :
    (((reading state type tree below).walkAll tree.children).leave tree).Same
      ((unsupportedValue (state.symbols.javaName type) tree.description).resume state fun state value =>
        deliver state tree (.value value) below) := by
  rw [reading, opens, State.unsupportedScope]
  simp only [(Counter.unsupported _ _).walkAll, leave_unsupported_end body, unsupportedValue, Reading.resume_bind,
    Reading.resume_remark, Reading.resume_pure]
  refine deliver_same ?_ tree _ below
  rfl

/-- A literal or a reference is read when its node is entered. -/
theorem specific_reads {state : State} {type : TypeId} {form : Form} (below : List Scope)
    (read : form.tag = .literal ∨ form.tag = .reference) :
    (((reading state type (.ofShape ⟨.specific, [.leaf form]⟩) below).walkAll
        [⟨.specific, [.leaf form]⟩]).leave (.ofShape ⟨.specific, [.leaf form]⟩)).Same
      ((Reading.ofExcept (State.specific { symbols := state.symbols, parameters := state.parameters } type form)).resume
        state fun state value => deliver state (.ofShape ⟨.specific, [.leaf form]⟩) (.value value) below) := by
  let noted := state.note (.reading (some .specific) (state.symbols.javaName type))
  change Same (((leave (enter ⟨noted, .specific type none :: below⟩ (.leaf form)) (.leaf form)).leave
    ⟨.specific, [.leaf form]⟩).leave (.ofShape ⟨.specific, [.leaf form]⟩)) _
  have found : noted.specific type form =
      State.specific { symbols := state.symbols, parameters := state.parameters } type form :=
    State.specific_congr rfl rfl type form
  have enters : Scope.enterSpecific noted (.leaf form) type none =
      (noted.specific type form).map fun value => ⟨noted, .specific type (some value), none⟩ := by
    simp only [Scope.enterSpecific, Tree.tag, Tree.leaf]
    rcases read with literal | reference
    · rw [literal]
    · rw [reference]
  have inside : (Tree.leaf form).is .definition = false ∧ (Tree.leaf form).is .body = false := by
    rcases read with literal | reference
    · simp [Tree.is, Tree.tag, Tree.leaf, literal]
    · simp [Tree.is, Tree.tag, Tree.leaf, reference]
  simp only [enter, Scope.enter, enters, found]
  cases State.specific { symbols := state.symbols, parameters := state.parameters } type form with
  | error fault =>
    simp only [Except.map, leave_recover inside.1]
    exact ⟨rfl, rfl⟩
  | ok value =>
    have stays : leave ⟨noted, .specific type (some value) :: below⟩ (.leaf form) =
        ⟨noted, .specific type (some value) :: below⟩ := by simp [leave, Scope.leave, inside.2]
    simp only [Except.map, stays]
    exact Same.trans (leave_close below rfl) (deliver_same (state.quiet_note _) _ _ below)

/-- A body whose value is known from its shape is read over. -/
theorem await_reads {state : State} {type : TypeId} {shape : Form} {value : Expr} (below : List Scope)
    (away : shape.tag ≠ .body)
    (opens : state.valueScope type (.ofShape (.leaf shape)) =
      (state.note (.reading (some shape.tag) (state.symbols.javaName type)), .await .body (some (.value value)))) :
    (((reading state type (.ofShape (.leaf shape)) below).walkAll [.leaf shape]).leave (.ofShape (.leaf shape))).Same
      (deliver state (.ofShape (.leaf shape)) (.value value) below) := by
  have stays (state : State) : leave ⟨state, .await .body (some (.value value)) :: below⟩ (.leaf shape) =
      ⟨state, .await .body (some (.value value)) :: below⟩ := by
    simp [leave, Scope.leave, Tree.is, Tree.tag, Tree.leaf, away]
  rw [reading, opens]
  change Same (leave (leave ⟨_, .await .body (some (.value value)) :: below⟩ (.leaf shape)) _) _
  rw [stays]
  exact Same.trans (leave_close below rfl) (deliver_same (state.quiet_note _) _ _ below)

end Compiler

/-! ### Assignments -/

namespace Compiler

theorem walk_ofField (compiler : Compiler) (name : String) (tree : Tree) :
    compiler.walk (.ofField (name, tree)) =
      ((((compiler.enter (.ofField (name, tree))).enter (.ofName name)).leave (.ofName name)).walk tree).leave
        (.ofField (name, tree)) := rfl

/-- An assignment whose field is at fault drops the definition. -/
theorem walk_field_fault {compiler : Compiler} {state : State} {fault : Fault} {name : String} {tree : Tree}
    (begun : compiler.enter (.ofField (name, tree)) = compiler)
    (entered : compiler.enter (.ofName name) = recover state fault false) :
    compiler.walk (.ofField (name, tree)) = recover state fault false := by
  rw [walk_ofField, begun, entered, leave_recover rfl, walk_recover, leave_recover rfl]

/-- An assignment is its body, walked where the name of its field has led. -/
theorem walk_field {α : Type} {compiler named : Compiler} {name : String} {tree : Tree} {reading : Reading α}
    {state : State} {next : State → α → Compiler} (begun : compiler.enter (.ofField (name, tree)) = compiler)
    (entered : compiler.enter (.ofName name) = named) (stays : named.leave (.ofName name) = named)
    (walked : (named.walk tree).Same (reading.resume state next)) :
    (compiler.walk (.ofField (name, tree))).Same
      (reading.resume state fun state value => (next state value).leave (.ofField (name, tree))) := by
  rw [walk_ofField, begun, entered, stays, ← Reading.leave_resume reading state next rfl]
  exact walked.step (.leave (.ofField (name, tree)))

end Compiler

/-! ### Records and sets in assignment notation -/

/-- The slots of the fields to which values have been given, the latest first. -/
def Slot.given (fields : List (Field TypeId)) (given : List (String × Expr)) : List Slot :=
  fields.map fun field => ⟨field, given.lookup field.name⟩

/-- The field of a name and its index are found together. -/
theorem Field.find?_cases (fields : List (Field TypeId)) (name : String) :
    (Field.find? fields name = none ∧ fields.findIdx? (fun field => field.name == name) = none) ∨
      ∃ index field, Field.find? fields name = some field ∧
        fields.findIdx? (fun field => field.name == name) = some index ∧ fields[index]? = some field ∧
        field.name = name := by
  cases found : fields.findIdx? fun field => field.name == name with
  | none =>
    refine .inl ⟨?_, rfl⟩
    rw [List.findIdx?_eq_none_iff] at found
    exact List.find?_eq_none.mpr fun field member => by simp [found field member]
  | some index =>
    obtain ⟨inside, named, earlier⟩ := List.findIdx?_eq_some_iff_getElem.mp found
    refine .inr ⟨index, fields[index], ?_, rfl, List.getElem?_eq_getElem inside, by simpa using named⟩
    exact List.find?_eq_some_iff_getElem.mpr ⟨named, index, inside, rfl, by simpa using earlier⟩

theorem Slot.getElem?_given {fields : List (Field TypeId)} (given : List (String × Expr)) {index : Nat}
    {field : Field TypeId} (found : fields[index]? = some field) :
    (Slot.given fields given)[index]? = some ⟨field, given.lookup field.name⟩ := by
  simp [Slot.given, found]

/-- Where the fields have different names, filling the slot of one is giving it its latest value. -/
theorem Slot.fill_given {fields : List (Field TypeId)} (distinct : (fields.map Field.name).Nodup)
    (given : List (String × Expr)) {index : Nat} {field : Field TypeId} (found : fields[index]? = some field)
    (value : Expr) :
    Scope.fill (Slot.given fields given) index value = Slot.given fields ((field.name, value) :: given) := by
  refine List.ext_getElem? fun position => ?_
  simp only [Scope.fill, List.getElem?_modify, Slot.given, List.getElem?_map]
  by_cases here : index = position
  · subst here
    simp [found]
  · cases other : fields[position]? with
    | none => rfl
    | some field' =>
      -- A second field of this name would be looked up under the new value as well.
      have different : field'.name ≠ field.name := by
        intro equal
        have inside : index < (fields.map Field.name).length := by
          rw [List.length_map]
          exact (List.getElem?_eq_some_iff.mp found).1
        exact here ((List.getElem?_inj inside distinct).mp (by simp [found, other, equal]))
      simp [here, List.lookup_cons, beq_false_of_ne different]

theorem Slot.remarkRepeated_given (state : State) (type : String) {fields : List (Field TypeId)}
    (given : List (String × Expr)) {index : Nat} {field : Field TypeId} (found : fields[index]? = some field) :
    Scope.remarkRepeated state type (Slot.given fields given) index =
      state.warnAll (if (given.lookup field.name).isSome then [.repeatedField field.name type] else []) := by
  rw [Scope.remarkRepeated, Slot.getElem?_given given found]
  cases given.lookup field.name <;> rfl

theorem Slot.findIdx?_given (fields : List (Field TypeId)) (given : List (String × Expr)) (name : String) :
    (Slot.given fields given).findIdx? (fun slot => slot.field.name == name) =
      fields.findIdx? fun field => field.name == name := List.findIdx?_map

/-- The body of a field of a record or set, once the field has been named. -/
theorem Compiler.walk_assigned {body : Body} (reads : body.Reads) {state : State} (distinct : state.symbols.Distinct)
    (type : String) {fields : List (Field TypeId)} (different : (fields.map Field.name).Nodup)
    (given : List (String × Expr)) {index : Nat} {field : Field TypeId} (atIndex : fields[index]? = some field)
    (found : Field.find? fields field.name = some field) (below : List Scope) :
    (walk ⟨state, .named type (Slot.given fields given) (some index) :: below⟩ body.tree).Same
      ((Body.assigned state.symbols state.parameters type fields given [(field.name, body)]).resume state
        fun state given => ⟨state, .named type (Slot.given fields given) none :: below⟩) := by
  have opens : Scope.enter state body.tree (.named type (Slot.given fields given) (some index)) =
      .ok ⟨(state.valueScope field.type body.tree).1, .named type (Slot.given fields given) (some index),
        some (state.valueScope field.type body.tree).2⟩ := by
    simp only [Scope.enter, Scope.enterNamed, Body.form_tree, Option.bind_some, Slot.getElem?_given given atIndex]
  refine (walk_body reads below distinct opens).trans ?_
  rw [Body.assigned, found]
  simp only [Reading.resume_bind, Reading.resume_remark, Body.assigned, Reading.resume_pure]
  refine Reading.resume_same _ _ fun remarks value => .of_eq ?_
  rw [← Slot.remarkRepeated_given _ _ given atIndex, ← Slot.fill_given different given atIndex value]
  rfl

/-- One assignment for a record or set. -/
theorem Compiler.walk_assignment {body : Body} (reads : body.Reads) {state : State}
    (distinct : state.symbols.Distinct) (type name : String) {fields : List (Field TypeId)}
    (different : (fields.map Field.name).Nodup) (given : List (String × Expr)) (below : List Scope) :
    (walk ⟨state, .named type (Slot.given fields given) none :: below⟩ (.ofField (name, body.tree))).Same
      ((Body.assigned state.symbols state.parameters type fields given [(name, body)]).resume state fun state given =>
        ⟨state, .named type (Slot.given fields given) none :: below⟩) := by
  rcases Field.find?_cases fields name with ⟨absent, noIndex⟩ | ⟨index, field, found, position, atIndex, rfl⟩
  · have entered : enter ⟨state, .named type (Slot.given fields given) none :: below⟩ (.ofName name) =
        recover state (.unknownField type name) false := by
      simp only [enter, Scope.enter, Scope.enterNamed, Tree.ofName, Tree.leaf, Slot.findIdx?_given, noIndex]
    rw [walk_field_fault rfl entered, Body.assigned, absent]
    exact Same.rfl
  · have entered : enter ⟨state, .named type (Slot.given fields given) none :: below⟩ (.ofName field.name) =
        ⟨state, .named type (Slot.given fields given) (some index) :: below⟩ := by
      simp only [enter, Scope.enter, Scope.enterNamed, Tree.ofName, Tree.leaf, Slot.findIdx?_given, position]
    exact walk_field rfl entered rfl (walk_assigned reads distinct type different given atIndex found below)

/-- One assignment after the other. -/
theorem Body.resume_assigned_cons (symbols : Symbols) (parameters : List Parameter) (type name : String)
    (fields : List (Field TypeId)) (given : List (String × Expr)) (body : Body) (rest : List (String × Body))
    (state : State) (next : State → List (String × Expr) → Compiler) :
    (Body.assigned symbols parameters type fields given ((name, body) :: rest)).resume state next =
      (Body.assigned symbols parameters type fields given [(name, body)]).resume state fun state given =>
        (Body.assigned symbols parameters type fields given rest).resume state next := by
  simp only [Body.assigned]
  cases Field.find? fields name <;> simp

theorem Compiler.walkAll_assignments {assignments : List (String × Body)}
    (reads : ∀ assignment ∈ assignments, assignment.2.Reads) (state : State) (distinct : state.symbols.Distinct)
    (type : String) {fields : List (Field TypeId)} (different : (fields.map Field.name).Nodup)
    (given : List (String × Expr)) (below : List Scope) :
    (walkAll ⟨state, .named type (Slot.given fields given) none :: below⟩
        ((Body.assignmentTrees assignments).map Tree.ofField)).Same
      ((Body.assigned state.symbols state.parameters type fields given assignments).resume state fun state given =>
        ⟨state, .named type (Slot.given fields given) none :: below⟩) := by
  induction assignments generalizing state given with
  | nil => exact Same.rfl
  | cons assignment rest ih =>
    obtain ⟨name, body⟩ := assignment
    obtain ⟨readsFirst, readsRest⟩ := List.forall_mem_cons.mp reads
    rw [Body.resume_assigned_cons]
    refine ((walk_assignment readsFirst distinct type name different given below).walkAll _).trans ?_
    rw [Reading.walkAll_resume]
    refine Reading.resume_same _ _ fun remarks given => ?_
    simpa using ih readsRest (state.warnAll remarks) (by simpa using distinct) given

/-! ### Unions -/

/-- The first alternative that is given for a union. -/
theorem Compiler.walk_alternative {body : Body} (reads : body.Reads) {state : State}
    (distinct : state.symbols.Distinct) (type name : String) (alternatives : List (Field TypeId))
    (below : List Scope) :
    (walk ⟨state, .union type alternatives none none :: below⟩ (.ofField (name, body.tree))).Same
      (Reading.resume
        (match Field.find? alternatives name with
          | none => .fail (.unknownAlternative type name)
          | some alternative => body.value state.symbols state.parameters alternative.type) state
        fun state value => ⟨state, .union type alternatives (some name) (some value) :: below⟩) := by
  cases found : Field.find? alternatives name with
  | none =>
    have entered : enter ⟨state, .union type alternatives none none :: below⟩ (.ofName name) =
        recover state (.unknownAlternative type name) false := by
      simp only [enter, Scope.enter, Scope.enterUnion, Tree.ofName, Tree.leaf, found]
    exact .of_eq (walk_field_fault rfl entered)
  | some alternative =>
    have entered : enter ⟨state, .union type alternatives none none :: below⟩ (.ofName name) =
        ⟨state, .union type alternatives (some name) none :: below⟩ := by
      simp only [enter, Scope.enter, Scope.enterUnion, Tree.ofName, Tree.leaf, found]
    have opens : Scope.enter state body.tree (.union type alternatives (some name) none) =
        .ok ⟨(state.valueScope alternative.type body.tree).1, .union type alternatives (some name) none,
          some (state.valueScope alternative.type body.tree).2⟩ := by
      simp only [Scope.enter, Scope.enterUnion, Body.form_tree, Option.bind_some, found]
    exact walk_field rfl entered rfl (walk_body reads below distinct opens)

theorem Compiler.walk_second_alternative (state : State) (type first second : String)
    (alternatives : List (Field TypeId)) (value : Option Expr) (below : List Scope) (tree : Tree) :
    walk ⟨state, .union type alternatives (some first) value :: below⟩ (.ofField (second, tree)) =
      recover state (.severalAlternatives type first second) false := walk_field_fault rfl rfl

/-- A union takes the alternative that is given, and no second one. -/
theorem Compiler.union_reads {assignments : List (String × Body)}
    (reads : ∀ assignment ∈ assignments, assignment.2.Reads) {state : State} (distinct : state.symbols.Distinct)
    (type : String) (alternatives : List (Field TypeId)) (below : List Scope) {list tree : Tree}
    (notDefinition : list.is .definition = false) (notBody : list.is .body = false) (isBody : tree.is .body = true) :
    (((walkAll ⟨state, .union type alternatives none none :: below⟩
        ((Body.assignmentTrees assignments).map Tree.ofField)).leave list).leave tree).Same
      ((Body.alternative state.symbols state.parameters type alternatives assignments).resume state
        fun state value => deliver state tree (.value value) below) := by
  have inside := Tree.not_definition_of_body isBody
  have stays (state : State) (chosen : Option String) (value : Option Expr) :
      leave ⟨state, .union type alternatives chosen value :: below⟩ list =
        ⟨state, .union type alternatives chosen value :: below⟩ := by
    simp [leave, Scope.leave, notBody]
  cases assignments with
  | nil =>
    rw [Body.assignmentTrees, List.map_nil, walkAll, stays, Body.alternative]
    simp only [leave, Scope.leave, isBody, if_true, inside]
    exact Same.rfl
  | cons assignment rest =>
    obtain ⟨name, body⟩ := assignment
    have readsFirst : body.Reads := reads _ List.mem_cons_self
    have walked := (walk_alternative readsFirst distinct type name alternatives below).walkAll
      ((Body.assignmentTrees rest).map Tree.ofField)
    rw [Reading.walkAll_resume] at walked
    refine (Reading.leave_leave_resume walked notDefinition inside).trans ?_
    rw [Body.alternative]
    cases Field.find? alternatives name with
    | none => exact Same.rfl
    | some alternative =>
      simp only [Reading.resume_bind]
      refine Reading.resume_same _ _ fun remarks value => ?_
      cases rest with
      | nil =>
        simp only [Body.assignmentTrees, List.map_nil, walkAll, stays]
        have closes : Scope.leave (state.warnAll remarks) tree (.union type alternatives (some name) (some value)) =
            .ok (state.warnAll remarks, .close (some (.value (.union type name value)))) := by
          simp [Scope.leave, isBody]
        exact leave_close below closes
      | cons assignment more =>
        simp only [Body.assignmentTrees, List.map_cons, walkAll, walk_second_alternative, walkAll_recover,
          leave_recover notDefinition, leave_recover inside]
        exact Same.rfl

/-! ### Lists -/

/-- The elements of a record of or set of. -/
theorem Compiler.walkAll_elements {bodies : List Body} (reads : ∀ body ∈ bodies, body.Reads) (state : State)
    (distinct : state.symbols.Distinct) (type : String) (element : TypeId) (elements : List Expr)
    (below : List Scope) :
    (walkAll ⟨state, .sequence type element elements true :: below⟩ (Body.trees bodies)).Same
      ((Body.values state.symbols state.parameters element bodies).resume state fun state values =>
        ⟨state, .sequence type element (elements ++ values) true :: below⟩) := by
  induction bodies generalizing state elements with
  | nil =>
    rw [Body.values, Reading.resume_pure, List.append_nil]
    exact Same.rfl
  | cons body rest ih =>
    obtain ⟨readsFirst, readsRest⟩ := List.forall_mem_cons.mp reads
    have opens : Scope.enter state body.tree (.sequence type element elements true) =
        .ok ⟨(state.valueScope element body.tree).1, .sequence type element elements true,
          some (state.valueScope element body.tree).2⟩ := by
      simp only [Scope.enter, Scope.enterSequence, Body.form_tree]
    refine ((walk_body readsFirst below distinct opens).walkAll _).trans ?_
    rw [Reading.walkAll_resume, Body.values]
    simp only [Reading.resume_bind, Reading.resume_pure]
    refine Reading.resume_same _ _ fun remarks value => ?_
    change (walkAll ⟨state.warnAll remarks, .sequence type element (elements ++ [value]) true :: below⟩ _).Same _
    simpa using ih readsRest (state.warnAll remarks) (by simpa using distinct) (elements ++ [value])

/-- Elements for which there is no field are passed over. -/
theorem Compiler.walkAll_surplus (bodies : List Body) (state : State) (type : String) {slots : List Slot} {next : Nat}
    (beyond : slots.length ≤ next) (below : List Scope) :
    (walkAll ⟨state, .positional type slots next none true :: below⟩ (Body.trees bodies)).Same
      ⟨state.warnAll (surplusRemarks type slots.length next bodies),
        .positional type slots (next + bodies.length) none true :: below⟩ := by
  induction bodies generalizing state next with
  | nil => exact Same.rfl
  | cons body rest ih =>
    have passes : Scope.enter state body.tree (.positional type slots next none true) =
        .ok ⟨state.warn (.surplusElement next slots.length type), .positional type slots (next + 1) none true,
          some (.passOver body.tree.tag)⟩ := by
      simp only [Scope.enter, Scope.enterPositional, Body.form_tree, List.getElem?_eq_none beyond, Tree.tag, Form.tag]
    refine ((walk_passed below passes).walkAll _).trans ?_
    have step := ih (state.warn (.surplusElement next slots.length type)) (Nat.le_succ_of_le beyond)
    have count : next + 1 + rest.length = next + (body :: rest).length := by
      rw [List.length_cons]
      omega
    rwa [count] at step

theorem Slot.fill_append (filled rest : List Slot) (slot : Slot) (value : Expr) :
    Scope.fill (filled ++ slot :: rest) filled.length value = filled ++ { slot with value := some value } :: rest := by
  induction filled with
  | nil => rfl
  | cons first filled ih => exact congrArg (first :: ·) ih

/-- The elements of a record or set in list notation, up to the end of the body. The slots before the next one are
    `filled`, and `fields` are still to come. -/
theorem Compiler.listed_reads {bodies : List Body} (reads : ∀ body ∈ bodies, body.Reads) (state : State)
    (distinct : state.symbols.Distinct) (type : String) (fields : List (Field TypeId)) (filled : List Slot)
    {count index : Nat} (atIndex : index = filled.length) (total : count = filled.length + fields.length)
    (below : List Scope) {list tree : Tree} (notDefinition : list.is .definition = false)
    (notBody : list.is .body = false) (isBody : tree.is .body = true) :
    (((walkAll ⟨state, .positional type (filled ++ Slot.ofFields fields) index none true :: below⟩
        (Body.trees bodies)).leave list).leave tree).Same
      ((Body.listed state.symbols state.parameters type count fields index bodies).resume state fun state values =>
        deliver state tree (.value (.positional type (filled.map Slot.value ++ values))) below) := by
  have closes (state : State) (slots : List Slot) (next : Nat) :
      ((leave ⟨state, .positional type slots next none true :: below⟩ list).leave tree).Same
        (deliver state tree (.value (.positional type (slots.map Slot.value))) below) := by
    have stays : leave ⟨state, .positional type slots next none true :: below⟩ list =
        ⟨state, .positional type slots next none true :: below⟩ := by simp [leave, Scope.leave, notBody]
    rw [stays]
    exact leave_close below (by simp only [Scope.leave, isBody, if_true])
  have inside := Tree.not_definition_of_body isBody
  -- Every element moves one field from those to come to the slots that are filled.
  induction bodies generalizing state filled fields index with
  | nil =>
    refine (closes _ _ _).trans (.of_eq ?_)
    simp [Body.listed, Slot.ofFields, Function.comp_def]
  | cons body rest ih =>
    cases fields with
    | nil =>
      have all : count = filled.length := total
      subst atIndex all
      rw [Slot.ofFields, List.map_nil, List.append_nil]
      refine (((walkAll_surplus (body :: rest) state type (Nat.le_refl _) below).step (.leave list)).step
        (.leave tree)).trans ((closes _ _ _).trans (.of_eq ?_))
      simp [Body.listed]
    | cons field fields =>
      subst atIndex total
      obtain ⟨readsFirst, readsRest⟩ := List.forall_mem_cons.mp reads
      have opens : Scope.enter state body.tree
          (.positional type (filled ++ Slot.ofFields (field :: fields)) filled.length none true) =
          .ok ⟨(state.valueScope field.type body.tree).1,
            .positional type (filled ++ Slot.ofFields (field :: fields)) (filled.length + 1) (some filled.length) true,
            some (state.valueScope field.type body.tree).2⟩ := by
        simp [Scope.enter, Scope.enterPositional, Body.form_tree, Slot.ofFields]
      have walked := (walk_body readsFirst below distinct opens).walkAll (Body.trees rest)
      rw [Reading.walkAll_resume] at walked
      refine (Reading.leave_leave_resume walked notDefinition inside).trans ?_
      simp only [Body.listed, Reading.resume_bind, Reading.resume_pure]
      refine Reading.resume_same _ _ fun remarks value => ?_
      change (((walkAll ⟨state.warnAll remarks, .positional type
        (Scope.fill (filled ++ ⟨field, none⟩ :: Slot.ofFields fields) filled.length value) (filled.length + 1) none
          true :: below⟩ _).leave list).leave tree).Same _
      let filled' : List Slot := filled ++ [⟨field, some value⟩]
      have next : filled.length + 1 = filled'.length := by simp [filled']
      have total : filled.length + (field :: fields).length = filled'.length + fields.length := by
        rw [← next, List.length_cons]
        omega
      have step := ih readsRest (state.warnAll remarks) (by simpa using distinct) fields filled' next total
      rw [Slot.fill_append]
      simpa [filled'] using step

/-! ### All bodies -/

/-- The scope that is opened for assignment notation. -/
theorem State.valueScope_ofFields (state : State) (type : TypeId) (assignments : List (String × Tree)) :
    let noted := state.note (.reading (some .fieldList) (state.symbols.javaName type))
    let name := state.symbols.javaName type
    state.valueScope type (.ofFields assignments) =
      if state.symbols.isUnion type then (noted, .union name (state.symbols.fields type) none none)
      else if state.symbols.isStructured type then (noted, .named name (Slot.ofFields (state.symbols.fields type)) none)
      else noted.unsupportedScope name (.ofFields assignments) := rfl

/-- The scope that is opened for list notation. -/
theorem State.valueScope_ofElements (state : State) (type : TypeId) (elements : List Tree) :
    let noted := state.note (.reading (some .elementList) (state.symbols.javaName type))
    let name := state.symbols.javaName type
    state.valueScope type (.ofElements elements) =
      match state.symbols.element? type with
      | some element => (noted, .sequence name element [] false)
      | none =>
        if state.symbols.isStructured type then
          (noted, .positional name (Slot.ofFields (state.symbols.fields type)) 0 none false)
        else noted.unsupportedScope name (.ofElements elements) := rfl

namespace Body

theorem fields_reads {assignments : List (String × Body)}
    (reads : ∀ assignment ∈ assignments, assignment.2.Reads) : (Body.fields assignments).Reads := by
  intro state type below distinct
  let list : Tree := ⟨.fieldList, (Body.assignmentTrees assignments).map Tree.ofField⟩
  let tree := Tree.ofFields (Body.assignmentTrees assignments)
  have inList : list.is .definition = false := rfl
  have inTree : tree.is .definition = false := rfl
  change (((Compiler.reading state type tree below).walkAll [list]).leave tree).Same _
  have opens := state.valueScope_ofFields type (Body.assignmentTrees assignments)
  rw [Body.value]
  by_cases union : state.symbols.isUnion type
  · have opened : (Compiler.reading state type tree below).Same
        ⟨state, .union (state.symbols.javaName type) (state.symbols.fields type) none none :: below⟩ := by
      rw [Compiler.reading, opens, if_pos union]
      exact ⟨rfl, rfl⟩
    rw [if_pos union]
    exact ((opened.walkAll [list]).step (.leave tree)).trans
      (Compiler.union_reads reads distinct _ _ below rfl rfl rfl)
  · by_cases structured : state.symbols.isStructured type
    · have opened : (Compiler.reading state type tree below).Same ⟨state,
          .named (state.symbols.javaName type) (Slot.given (state.symbols.fields type) []) none :: below⟩ := by
        rw [Compiler.reading, opens, if_neg union, if_pos structured]
        exact ⟨rfl, rfl⟩
      rw [if_neg union, if_pos structured]
      refine ((opened.walkAll [list]).step (.leave tree)).trans ?_
      have walked := Compiler.walkAll_assignments reads state distinct (state.symbols.javaName type) (distinct type) []
        below
      refine (Reading.leave_leave_resume walked inList inTree).trans ?_
      simp only [Reading.resume_bind, Reading.resume_pure]
      refine Reading.resume_same _ _ fun remarks given => ?_
      have closes : Scope.leave (state.warnAll remarks) tree
          (.named (state.symbols.javaName type) (Slot.given (state.symbols.fields type) given) none) =
          .ok (state.warnAll remarks, .close (some (.value (.named (state.symbols.javaName type)
            ((state.symbols.fields type).map fun field => (field.name, given.lookup field.name)))))) := by
        simp [Scope.leave, Slot.given, Function.comp_def, show tree.is .body = true from rfl]
      exact Compiler.leave_close below closes
    · rw [if_neg union, if_neg structured]
      refine Compiler.unsupported_reads below rfl ?_
      rw [opens, if_neg union, if_neg structured]
      rfl

theorem elements_reads {bodies : List Body} (reads : ∀ body ∈ bodies, body.Reads) : (Body.elements bodies).Reads := by
  intro state type below distinct
  let list : Tree := ⟨.elementList, Body.trees bodies⟩
  let tree := Tree.ofElements (Body.trees bodies)
  have inList : list.is .definition = false := rfl
  have inTree : tree.is .definition = false := rfl
  change (((Compiler.reading state type tree below).walkAll [list]).leave tree).Same _
  have opens := state.valueScope_ofElements type (Body.trees bodies)
  rw [Body.value]
  cases found : state.symbols.element? type with
  | some element =>
    rw [found] at opens
    have opened : (Compiler.reading state type tree below).Same
        ⟨state, .sequence (state.symbols.javaName type) element [] false :: below⟩ := by
      rw [Compiler.reading, opens]
      exact ⟨rfl, rfl⟩
    refine ((opened.walkAll [list]).step (.leave tree)).trans ?_
    have walked := Compiler.walkAll_elements reads state distinct (state.symbols.javaName type) element [] below
    refine (Reading.leave_leave_resume walked inList inTree).trans ?_
    simp only [Reading.resume_bind, Reading.resume_pure]
    refine Reading.resume_same _ _ fun remarks values => ?_
    exact Compiler.leave_close below rfl
  | none =>
    rw [found] at opens
    by_cases structured : state.symbols.isStructured type
    · have opened : (Compiler.reading state type tree below).Same ⟨state,
          .positional (state.symbols.javaName type) (Slot.ofFields (state.symbols.fields type)) 0 none false ::
            below⟩ := by
        rw [Compiler.reading, opens, if_pos structured]
        exact ⟨rfl, rfl⟩
      dsimp only
      rw [if_pos structured]
      refine ((opened.walkAll [list]).step (.leave tree)).trans ?_
      simp only [Reading.resume_bind, Reading.resume_pure]
      exact Compiler.listed_reads reads state distinct _ (state.symbols.fields type) [] rfl (Nat.zero_add _).symm below
        rfl rfl rfl
    · dsimp only
      rw [if_neg structured]
      refine Compiler.unsupported_reads below rfl ?_
      rw [opens, if_neg structured]
      rfl

mutual
/-- The scopes of a body yield what the body is translated to. -/
theorem reads (body : Body) : body.Reads := by
  cases body with
  | literal text => exact fun state type below _ => Compiler.specific_reads below (.inl rfl)
  | reference name => exact fun state type below _ => Compiler.specific_reads below (.inr rfl)
  | any => exact fun state type below _ => Compiler.await_reads below nofun rfl
  | anyOrOmit => exact fun state type below _ => Compiler.await_reads below nofun rfl
  | other description => exact fun state type below _ => Compiler.unsupported_reads below rfl rfl
  | fields assignments => exact fields_reads (assignments_read assignments)
  | elements bodies => exact elements_reads (bodies_read bodies)

theorem assignments_read (assignments : List (String × Body)) :
    ∀ assignment ∈ assignments, assignment.2.Reads := by
  cases assignments with
  | nil => exact nofun
  | cons assignment rest =>
    obtain ⟨name, body⟩ := assignment
    exact List.forall_mem_cons.mpr ⟨body.reads, assignments_read rest⟩

theorem bodies_read (bodies : List Body) : ∀ body ∈ bodies, body.Reads := by
  cases bodies with
  | nil => exact nofun
  | cons body rest => exact List.forall_mem_cons.mpr ⟨body.reads, bodies_read rest⟩
end

end Body

/-! ### Overrides -/

/-- A scope `parent` that opens the scope of a body for overrides of the part at `path` gets the body's overrides, so
    that it becomes `after` these overrides. -/
def Body.Amends (body : Body) : Prop :=
  ∀ (state : State) (type : TypeId) (path : FieldPath) (parent parent' : Scope) (after : List Override → Scope)
    (below : List Scope), state.symbols.Distinct →
    parent.enter state body.tree =
      .ok ⟨(state.overrideScope type path body.tree).1, parent', some (state.overrideScope type path body.tree).2⟩ →
    (∀ state overrides, parent'.accept state (.overrides overrides) = .ok (state, after overrides)) →
    (∀ state value, parent'.accept state (.value value) = .ok (state, after [⟨path, value⟩])) →
    (Compiler.walk ⟨state, parent :: below⟩ body.tree).Same
      ((body.overrides state.symbols state.parameters path type).resume state fun state overrides =>
        ⟨state, after overrides :: below⟩)

namespace Compiler

/-- A body that is not taken field by field overrides its part as a whole. -/
theorem walk_whole {body : Body} {state : State} {type : TypeId} {path : FieldPath} {parent parent' : Scope}
    {after : List Override → Scope} (below : List Scope) (distinct : state.symbols.Distinct)
    (opens : parent.enter state body.tree =
      .ok ⟨(state.valueScope type body.tree).1, parent', some (state.valueScope type body.tree).2⟩)
    (onValue : ∀ state value, parent'.accept state (.value value) = .ok (state, after [⟨path, value⟩])) :
    (walk ⟨state, parent :: below⟩ body.tree).Same
      (Reading.resume (do
          let value ← body.value state.symbols state.parameters type
          return [⟨path, value⟩]) state
        fun state overrides => ⟨state, after overrides :: below⟩) := by
  refine (walk_body body.reads below distinct opens).trans ?_
  simp only [Reading.resume_bind, Reading.resume_pure]
  refine Reading.resume_same _ _ fun remarks value => .of_eq ?_
  simp only [deliver, onValue]

/-- The body of a field among the overrides of a record or set, once the field has been named. -/
theorem walk_amended {body : Body} (amends : body.Amends) {state : State} (distinct : state.symbols.Distinct)
    (type : String) (path : FieldPath) {fields : List (Field TypeId)} (overrides : List Override)
    {field : Field TypeId} {name : String} (found : Field.find? fields name = some field) (below : List Scope) :
    (walk ⟨state, .overrideList type path fields (some name) overrides :: below⟩ body.tree).Same
      ((body.overrides state.symbols state.parameters (path.child name) field.type).resume state
        fun state more => ⟨state, .overrideList type path fields none (overrides ++ more) :: below⟩) := by
  have named : field.name = name := by simpa using List.find?_some found
  have opens : Scope.enter state body.tree (.overrideList type path fields (some name) overrides) =
      .ok ⟨(state.overrideScope field.type (path.child name) body.tree).1,
        .overrideList type path fields (some name) overrides,
        some (state.overrideScope field.type (path.child name) body.tree).2⟩ := by
    simp only [Scope.enter, Scope.enterOverrides, Body.form_tree, Option.bind_some, found, named]
  exact amends state field.type (path.child name) _ _
    (fun more => .overrideList type path fields none (overrides ++ more)) below distinct opens
    (fun _ _ => rfl) (fun _ _ => rfl)

/-- One assignment among the overrides of a record or set. -/
theorem walk_override {body : Body} (amends : body.Amends) {state : State} (distinct : state.symbols.Distinct)
    (type name : String) (path : FieldPath) (fields : List (Field TypeId)) (overrides : List Override)
    (below : List Scope) :
    (walk ⟨state, .overrideList type path fields none overrides :: below⟩ (.ofField (name, body.tree))).Same
      (Reading.resume
        (match Field.find? fields name with
          | none => .fail (.unknownField type name)
          | some field => body.overrides state.symbols state.parameters (path.child name) field.type) state
        fun state more => ⟨state, .overrideList type path fields none (overrides ++ more) :: below⟩) := by
  cases found : Field.find? fields name with
  | none =>
    have entered : enter ⟨state, .overrideList type path fields none overrides :: below⟩ (.ofName name) =
        recover state (.unknownField type name) false := by
      simp only [enter, Scope.enter, Scope.enterOverrides, Tree.ofName, Tree.leaf, found]
    exact .of_eq (walk_field_fault rfl entered)
  | some field =>
    have entered : enter ⟨state, .overrideList type path fields none overrides :: below⟩ (.ofName name) =
        ⟨state, .overrideList type path fields (some name) overrides :: below⟩ := by
      simp only [enter, Scope.enter, Scope.enterOverrides, Tree.ofName, Tree.leaf, found]
    exact walk_field rfl entered rfl (walk_amended amends distinct type path overrides found below)

theorem walkAll_overrides {assignments : List (String × Body)}
    (amend : ∀ assignment ∈ assignments, assignment.2.Amends) (state : State) (distinct : state.symbols.Distinct)
    (type : String) (path : FieldPath) (fields : List (Field TypeId)) (overrides : List Override)
    (below : List Scope) :
    (walkAll ⟨state, .overrideList type path fields none overrides :: below⟩
        ((Body.assignmentTrees assignments).map Tree.ofField)).Same
      ((Body.fieldOverrides state.symbols state.parameters type path fields assignments).resume state
        fun state more => ⟨state, .overrideList type path fields none (overrides ++ more) :: below⟩) := by
  induction assignments generalizing state overrides with
  | nil =>
    rw [Body.fieldOverrides, Reading.resume_pure, List.append_nil]
    exact Same.rfl
  | cons assignment rest ih =>
    obtain ⟨name, body⟩ := assignment
    obtain ⟨amendsFirst, amendRest⟩ := List.forall_mem_cons.mp amend
    refine ((walk_override amendsFirst distinct type name path fields overrides below).walkAll _).trans ?_
    rw [Reading.walkAll_resume, Body.fieldOverrides]
    cases Field.find? fields name with
    | none => exact Same.rfl
    | some field =>
      simp only [Reading.resume_bind, Reading.resume_pure]
      refine Reading.resume_same _ _ fun remarks more => ?_
      simpa using ih amendRest (state.warnAll remarks) (by simpa using distinct) (overrides ++ more)

end Compiler

namespace Body

theorem fields_amends {assignments : List (String × Body)}
    (amend : ∀ assignment ∈ assignments, assignment.2.Amends) : (Body.fields assignments).Amends := by
  intro state type path parent parent' after below distinct opens onOverrides onValue
  rw [Body.overrides]
  by_cases structured : state.symbols.isStructured type
  · let list : Tree := ⟨.fieldList, (Body.assignmentTrees assignments).map Tree.ofField⟩
    let tree := Tree.ofFields (Body.assignmentTrees assignments)
    have inList : list.is .definition = false := rfl
    have inTree : tree.is .definition = false := rfl
    have scope : state.overrideScope type path (Body.fields assignments).tree = (state,
        .overrideList (state.symbols.javaName type) path (state.symbols.fields type) none []) :=
      if_pos ⟨rfl, structured⟩
    have entered : (Compiler.enter ⟨state, parent :: below⟩ (Body.fields assignments).tree).Same ⟨state,
        .overrideList (state.symbols.javaName type) path (state.symbols.fields type) none [] :: parent' :: below⟩ := by
      rw [scope] at opens
      simp only [Compiler.enter, opens]
      exact ⟨rfl, rfl⟩
    rw [if_pos structured]
    refine ((entered.walkAll [list]).step (.leave tree)).trans ?_
    have walked := Compiler.walkAll_overrides amend state distinct (state.symbols.javaName type) path
      (state.symbols.fields type) [] (parent' :: below)
    refine (Reading.leave_leave_resume walked inList inTree).trans ?_
    refine Reading.resume_same _ _ fun remarks overrides => ?_
    refine Compiler.Same.trans (Compiler.leave_close (parent' :: below) rfl) (.of_eq ?_)
    simp only [Compiler.deliver, onOverrides, List.nil_append]
  · have scope : state.overrideScope type path (Body.fields assignments).tree =
        state.valueScope type (Body.fields assignments).tree := if_neg fun both => structured both.2
    rw [scope] at opens
    rw [if_neg structured]
    exact Compiler.walk_whole below distinct opens onValue

mutual
/-- The scopes of a body yield the overrides that the body is translated to. -/
theorem amends (body : Body) : body.Amends := by
  cases body with
  | fields assignments => exact fields_amends (assignments_amend assignments)
  | _ =>
    intro state type path parent parent' after below distinct opens _ onValue
    exact Compiler.walk_whole below distinct opens onValue

theorem assignments_amend (assignments : List (String × Body)) :
    ∀ assignment ∈ assignments, assignment.2.Amends := by
  cases assignments with
  | nil => exact nofun
  | cons assignment rest =>
    obtain ⟨name, body⟩ := assignment
    exact List.forall_mem_cons.mpr ⟨body.amends, assignments_amend rest⟩
end

end Body

end TtcnTemplates
