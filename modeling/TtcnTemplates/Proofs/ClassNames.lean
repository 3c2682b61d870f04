import TtcnTemplates.Expr.Source
import TtcnTemplates.Proofs.Validity

/-! # The names of classes

The source of a module refers to the classes of its types and to the classes that wrap the alternatives of its unions.
A declared type gives its class its own name, a wrapper has a name that is put together with underscores, and the
built-in classes are there before. So the names of two classes can be the same, and `ClassRef.Clash` says when they are.
-/

namespace TtcnTemplates

/-! ### Wrappers -/

/-- Two texts with a separator in them are the same if they are split at the same place, or if one of them is split
    where the other has the separator inside a part. -/
theorem append_separator_eq_iff {α : Type} {separator : α} {first second first' second' : List α} :
    first ++ separator :: second = first' ++ separator :: second' ↔
      (first = first' ∧ second = second') ∨
      (∃ middle, first' = first ++ separator :: middle ∧ second = middle ++ separator :: second') ∨
      ∃ middle, first = first' ++ separator :: middle ∧ second' = middle ++ separator :: second := by
  constructor
  · intro same
    rcases List.append_eq_append_iff.mp same with ⟨between, longer, rest⟩ | ⟨between, longer, rest⟩
    · cases between with
      | nil =>
        cases rest
        exact .inl ⟨by simpa using longer.symm, rfl⟩
      | cons c middle =>
        cases rest
        exact .inr (.inl ⟨middle, longer, rfl⟩)
    · cases between with
      | nil =>
        cases rest
        exact .inl ⟨by simpa using longer, rfl⟩
      | cons c middle =>
        cases rest
        exact .inr (.inr ⟨middle, longer, rfl⟩)
  · rintro (⟨rfl, rfl⟩ | ⟨middle, rfl, rfl⟩ | ⟨middle, rfl, rfl⟩)
    · rfl
    · simp
    · simp

theorem toList_unionWrapper (alternative union : String) :
    (unionWrapper alternative union).toList =
      ['S', 'C', '_'] ++ (alternative.toList ++ '_' :: union.toList) := by
  simp [unionWrapper, String.toList_append]

/-- The wrappers of two alternatives have the same name only if the alternatives and the unions do, or if what comes
    after an underscore belongs to the alternative in one of them and to the union in the other. -/
theorem unionWrapper_eq_iff {alternative union alternative' union' : String} :
    unionWrapper alternative union = unionWrapper alternative' union' ↔
      (alternative = alternative' ∧ union = union') ∨
      (∃ middle, alternative' = alternative ++ "_" ++ middle ∧ union = middle ++ "_" ++ union') ∨
      ∃ middle, alternative = alternative' ++ "_" ++ middle ∧ union' = middle ++ "_" ++ union := by
  have joined (text first second : String) :
      text = first ++ "_" ++ second ↔ text.toList = first.toList ++ '_' :: second.toList := by
    rw [← String.toList_inj]
    simp
  have asText (holds : List Char → Prop) : (∃ middle : String, holds middle.toList) ↔ ∃ middle, holds middle := by
    constructor
    · rintro ⟨middle, h⟩
      exact ⟨middle.toList, h⟩
    · rintro ⟨middle, h⟩
      exact ⟨String.ofList middle, by rwa [String.toList_ofList]⟩
  simp only [joined]
  rw [← String.toList_inj, toList_unionWrapper, toList_unionWrapper, List.append_cancel_left_eq,
    append_separator_eq_iff, String.toList_inj, String.toList_inj,
    ← asText fun middle => alternative'.toList = alternative.toList ++ '_' :: middle ∧
      union.toList = middle ++ '_' :: union'.toList,
    ← asText fun middle => alternative.toList = alternative'.toList ++ '_' :: middle ∧
      union'.toList = middle ++ '_' :: union.toList]

/-- No class of a built-in type has the name of a wrapper. -/
theorem unionWrapper_ne_javaName (alternative union : String) (type : Builtin) :
    unionWrapper alternative union ≠ type.javaName := by
  intro same
  have first : type.javaName.toList.head? = some 'S' := by
    rw [← same, toList_unionWrapper]
    rfl
  cases type <;> exact absurd first (by decide)

theorem Builtin.javaName_inj {first second : Builtin} (same : first.javaName = second.javaName) : first = second := by
  cases first <;> cases second <;> simp [Builtin.javaName] at same ⊢

/-! ### The types of a table -/

/-- The types that are added have different names. -/
theorem Declarations.nodup_typeNames (list : List Declaration) : (Declarations.offerAll list).typeNames.Nodup := by
  rw [Declarations.offerAll_eq]
  exact (Declaration.names_sublist _).nodup (Declarations.nodup_accepted list)

/-- Every type of a table can be used. -/
theorem Declarations.exists_use {order : List Builtin} {declarations : Declarations} {symbols : Symbols} {id : TypeId}
    (distinct : ((declarations.origins order).map TypeOrigin.use).Nodup)
    (resolved : declarations.resolveIn order = .ok symbols) (known : symbols.Has id) :
    ∃ use, symbols.lookup use = some id := by
  obtain ⟨lookup, -, entries⟩ := of_resolveIn resolved
  have inside : id.index < ((declarations.origins order).map TypeOrigin.use).length := by
    rw [List.length_map, entries.length_eq]
    exact known
  rw [lookup]
  exact ⟨_, (outline_lookup_iff distinct).mpr (List.getElem?_eq_getElem inside)⟩

namespace Symbols.Tabulates

variable {symbols : Symbols} {declarations : Declarations} {id : TypeId}

theorem entry_builtin (tabulates : symbols.Tabulates declarations) {type : Builtin}
    (found : symbols.lookup (.builtin type.name) = some id) : symbols.entry? id = some type.entry := by
  obtain ⟨id', found', there⟩ := tabulates.builtin type
  rw [found] at found'
  cases found'
  exact there

/-- The class of a built-in type is the one in the runtime. -/
theorem javaName_builtin (tabulates : symbols.Tabulates declarations) {type : Builtin}
    (found : symbols.lookup (.builtin type.name) = some id) : symbols.javaName id = type.javaName := by
  rw [Symbols.javaName, tabulates.entry_builtin found]
  rfl

/-- The class of a declared type has the name of the type. -/
theorem javaName_declared (tabulates : symbols.Tabulates declarations) {name : String}
    (found : symbols.lookup (.declared name) = some id) : symbols.javaName id = name := by
  obtain ⟨type, member, rfl⟩ := List.mem_map.mp ((tabulates.known (.declared name)).mp ⟨id, found⟩)
  obtain ⟨id', shape, found', there, -⟩ := tabulates.declared type member
  rw [found] at found'
  cases found'
  rw [Symbols.javaName, there]
  rfl

/-- A type that is used is a built-in one or a declared one. -/
theorem use_cases (tabulates : symbols.Tabulates declarations) {use : TypeUse} (found : symbols.lookup use = some id) :
    (∃ type : Builtin, symbols.lookup (.builtin type.name) = some id) ∨
      ∃ name ∈ declarations.typeNames, symbols.lookup (.declared name) = some id := by
  have known := (tabulates.known use).mp ⟨id, found⟩
  cases use with
  | builtin name =>
    obtain ⟨type, -, rfl⟩ := List.mem_map.mp known
    exact .inl ⟨type, found⟩
  | declared name => exact .inr ⟨name, known, found⟩

/-- A union is declared under the name of its class. -/
theorem lookup_of_isUnion (tabulates : symbols.Tabulates declarations) {use : TypeUse}
    (found : symbols.lookup use = some id) (isUnion : symbols.isUnion id = true) :
    symbols.lookup (.declared (symbols.javaName id)) = some id := by
  rcases tabulates.use_cases found with ⟨type, isBuiltin⟩ | ⟨name, -, isDeclared⟩
  · simp [Symbols.isUnion, Symbols.shape?, tabulates.entry_builtin isBuiltin, Builtin.entry] at isUnion
  · rwa [tabulates.javaName_declared isDeclared]

end Symbols.Tabulates

/-! ### Classes -/

/-- A class that the source of a module refers to. -/
inductive ClassRef where
  /-- The class of a type. -/
  | type (id : TypeId)
  /-- The class that wraps an alternative of a union. -/
  | wrapper (union : TypeId) (alternative : String)
deriving DecidableEq, Repr

namespace ClassRef

/-- The name of a class. -/
def name (symbols : Symbols) : ClassRef → String
  | .type id => symbols.javaName id
  | .wrapper union alternative => unionWrapper alternative (symbols.javaName union)

/-- The classes of the types of a table and of the alternatives of its unions. -/
def Of (symbols : Symbols) : ClassRef → Prop
  | .type id => symbols.Has id
  | .wrapper union alternative =>
    symbols.isUnion union = true ∧ alternative ∈ (symbols.fields union).map Field.name

instance (symbols : Symbols) : DecidablePred (Of symbols)
  | .type id => inferInstanceAs (Decidable (id.index < symbols.entries.length))
  | .wrapper _ _ => inferInstanceAs (Decidable (_ ∧ _))

/-- Why two classes have one name. -/
inductive Clash (symbols : Symbols) : ClassRef → ClassRef → Prop
  /-- A declared type has the name of a built-in class. -/
  | builtin {type : Builtin} {builtin declared : TypeId}
      (isBuiltin : symbols.lookup (.builtin type.name) = some builtin)
      (isDeclared : symbols.lookup (.declared type.javaName) = some declared) :
      Clash symbols (.type builtin) (.type declared)
  /-- A declared type has the name of a wrapper. -/
  | wrapper {union declared : TypeId} {alternative : String}
      (isDeclared : symbols.lookup (.declared (unionWrapper alternative (symbols.javaName union))) = some declared) :
      Clash symbols (.wrapper union alternative) (.type declared)
  /-- What comes after an underscore belongs to the union here and to the alternative there. -/
  | underscore {union union' : TypeId} {alternative middle : String}
      (longer : symbols.javaName union = middle ++ "_" ++ symbols.javaName union') :
      Clash symbols (.wrapper union alternative) (.wrapper union' (alternative ++ "_" ++ middle))

variable {symbols : Symbols} {declarations : Declarations} {left right : ClassRef}

theorem Clash.name_eq (tabulates : symbols.Tabulates declarations) (clash : Clash symbols left right) :
    left.name symbols = right.name symbols := by
  cases clash with
  | builtin isBuiltin isDeclared =>
    rw [name, name, tabulates.javaName_builtin isBuiltin, tabulates.javaName_declared isDeclared]
  | wrapper isDeclared => rw [name, name, tabulates.javaName_declared isDeclared]
  | underscore longer => exact unionWrapper_eq_iff.mpr (.inr (.inl ⟨_, rfl, longer⟩))

/-- Two types with one class are the same type, or one is declared under the name of the other's built-in class. -/
theorem clash_of_types (tabulates : symbols.Tabulates declarations) {first second : TypeId} {use use' : TypeUse}
    (found : symbols.lookup use = some first) (found' : symbols.lookup use' = some second)
    (same : symbols.javaName first = symbols.javaName second) :
    first = second ∨ Clash symbols (.type first) (.type second) ∨ Clash symbols (.type second) (.type first) := by
  rcases tabulates.use_cases found with ⟨type, isBuiltin⟩ | ⟨name, -, isDeclared⟩ <;>
    rcases tabulates.use_cases found' with ⟨type', isBuiltin'⟩ | ⟨name', -, isDeclared'⟩
  · rw [tabulates.javaName_builtin isBuiltin, tabulates.javaName_builtin isBuiltin'] at same
    cases Builtin.javaName_inj same
    exact .inl (Option.some.inj (isBuiltin.symm.trans isBuiltin'))
  · rw [tabulates.javaName_builtin isBuiltin, tabulates.javaName_declared isDeclared'] at same
    subst same
    exact .inr (.inl (.builtin isBuiltin isDeclared'))
  · rw [tabulates.javaName_declared isDeclared, tabulates.javaName_builtin isBuiltin'] at same
    subst same
    exact .inr (.inr (.builtin isBuiltin' isDeclared))
  · rw [tabulates.javaName_declared isDeclared, tabulates.javaName_declared isDeclared'] at same
    subst same
    exact .inl (Option.some.inj (isDeclared.symm.trans isDeclared'))

theorem clash_of_wrapper (tabulates : symbols.Tabulates declarations) {union id : TypeId} {alternative : String}
    {use : TypeUse} (found : symbols.lookup use = some id)
    (same : unionWrapper alternative (symbols.javaName union) = symbols.javaName id) :
    Clash symbols (.wrapper union alternative) (.type id) := by
  rcases tabulates.use_cases found with ⟨type, isBuiltin⟩ | ⟨name, -, isDeclared⟩
  · rw [tabulates.javaName_builtin isBuiltin] at same
    exact absurd same (unionWrapper_ne_javaName _ _ type)
  · rw [tabulates.javaName_declared isDeclared] at same
    subst same
    exact .wrapper isDeclared

/-- Two wrappers with one name are the same one, or an underscore is read in two ways. -/
theorem clash_of_wrappers (tabulates : symbols.Tabulates declarations) {union union' : TypeId}
    {alternative alternative' : String} {use use' : TypeUse} (found : symbols.lookup use = some union)
    (found' : symbols.lookup use' = some union') (isUnion : symbols.isUnion union = true)
    (isUnion' : symbols.isUnion union' = true)
    (same : unionWrapper alternative (symbols.javaName union) = unionWrapper alternative' (symbols.javaName union')) :
    wrapper union alternative = wrapper union' alternative' ∨
      Clash symbols (.wrapper union alternative) (.wrapper union' alternative') ∨
      Clash symbols (.wrapper union' alternative') (.wrapper union alternative) := by
  rcases unionWrapper_eq_iff.mp same with ⟨rfl, named⟩ | ⟨middle, rfl, longer⟩ | ⟨middle, rfl, longer⟩
  · have declared := tabulates.lookup_of_isUnion found isUnion
    have declared' := tabulates.lookup_of_isUnion found' isUnion'
    rw [named, declared'] at declared
    cases declared
    exact .inl rfl
  · exact .inr (.inl (.underscore longer))
  · exact .inr (.inr (.underscore longer))

/-- Without underscores in the names of declared types, and without the names of built-in classes among them, nothing
    clashes. -/
theorem not_clash (tabulates : symbols.Tabulates declarations)
    (plain : ∀ name ∈ declarations.typeNames, '_' ∉ name.toList)
    (free : ∀ type : Builtin, type.javaName ∉ declarations.typeNames) (isLeft : left.Of symbols)
    (used : ∀ id, symbols.Has id → ∃ use, symbols.lookup use = some id) : ¬ Clash symbols left right := by
  have declared {name : String} {id : TypeId} (found : symbols.lookup (.declared name) = some id) :
      name ∈ declarations.typeNames := (tabulates.known (.declared name)).mp ⟨id, found⟩
  intro clash
  cases clash with
  | builtin isBuiltin isDeclared => exact free _ (declared isDeclared)
  | wrapper isDeclared =>
    refine plain _ (declared isDeclared) ?_
    simp [toList_unionWrapper]
  | @underscore union union' alternative middle longer =>
    obtain ⟨use, found⟩ := used union (Symbols.has_of_isUnion isLeft.1)
    refine plain _ (declared (tabulates.lookup_of_isUnion found isLeft.1)) ?_
    simp [longer]

end ClassRef

/-- Two classes of a resolved table have the same name exactly if they are the same class or clash: a declared type has
    the name of a built-in class or of a wrapper, or an underscore of two wrappers belongs to the alternative in one and
    to the union in the other. Where no declared type has an underscore in its name or the name of a built-in class, all
    classes have different names. -/
theorem class_names_clash (order : List Builtin) (all : order.Perm Builtin.all) (list : List Declaration)
    (symbols : Symbols) (resolved : (Declarations.offerAll list).resolveIn order = .ok symbols)
    (left right : ClassRef) (isLeft : left.Of symbols) (isRight : right.Of symbols) :
    (left.name symbols = right.name symbols ↔
      left = right ∨ left.Clash symbols right ∨ right.Clash symbols left) ∧
    ((∀ name ∈ (Declarations.offerAll list).typeNames, '_' ∉ name.toList) →
      (∀ type : Builtin, type.javaName ∉ (Declarations.offerAll list).typeNames) →
      left.name symbols = right.name symbols → left = right) := by
  have distinct := Declarations.nodup_typeNames list
  have tabulates := Declarations.resolveIn_tabulates distinct all resolved
  have used (id : TypeId) (known : symbols.Has id) : ∃ use, symbols.lookup use = some id :=
    Declarations.exists_use (Declarations.nodup_origins all distinct) resolved known
  have clashes : left.name symbols = right.name symbols ↔
      left = right ∨ left.Clash symbols right ∨ right.Clash symbols left := by
    constructor
    · intro same
      cases left with
      | type first =>
        obtain ⟨use, found⟩ := used first isLeft
        cases right with
        | type second =>
          obtain ⟨use', found'⟩ := used second isRight
          exact (ClassRef.clash_of_types tabulates found found' same).imp_left (congrArg ClassRef.type)
        | wrapper union alternative => exact .inr (.inr (ClassRef.clash_of_wrapper tabulates found same.symm))
      | wrapper union alternative =>
        cases right with
        | type second =>
          obtain ⟨use', found'⟩ := used second isRight
          exact .inr (.inl (ClassRef.clash_of_wrapper tabulates found' same))
        | wrapper union' alternative' =>
          obtain ⟨use, found⟩ := used union (Symbols.has_of_isUnion isLeft.1)
          obtain ⟨use', found'⟩ := used union' (Symbols.has_of_isUnion isRight.1)
          exact ClassRef.clash_of_wrappers tabulates found found' isLeft.1 isRight.1 same
    · rintro (rfl | clash | clash)
      · rfl
      · exact clash.name_eq tabulates
      · exact (clash.name_eq tabulates).symm
  refine ⟨clashes, ?_⟩
  intro plain free same
  rcases clashes.mp same with equal | clash | clash
  · exact equal
  · exact absurd clash (ClassRef.not_clash tabulates plain free isLeft used)
  · exact absurd clash (ClassRef.not_clash tabulates plain free isRight used)

/-- Two unions whose wrappers clash, beside types that have the names of these wrappers and of a built-in class, and a
    table in which nothing clashes although an alternative has an underscore in its name. -/
theorem class_names_clash_underscore :
    let list : List Declaration :=
      [.type ⟨"c", .union [⟨"a_b", .builtin "integer"⟩]⟩, .type ⟨"b_c", .union [⟨"a", .builtin "integer"⟩]⟩,
        .type ⟨"SC_a_b_c", .record []⟩, .type ⟨"INTEGER", .set []⟩]
    let symbols : Symbols :=
      { entries := Builtin.all.map Builtin.entry ++
          [⟨"c", "c", some (.union [⟨"a_b", ⟨1⟩⟩])⟩, ⟨"b_c", "b_c", some (.union [⟨"a", ⟨1⟩⟩])⟩,
            ⟨"SC_a_b_c", "SC_a_b_c", some (.record [])⟩, ⟨"INTEGER", "INTEGER", some (.set [])⟩]
        builtins := numbered 0 (Builtin.all.map Builtin.name)
        declared := [("c", ⟨9⟩), ("b_c", ⟨10⟩), ("SC_a_b_c", ⟨11⟩), ("INTEGER", ⟨12⟩)]
        constants := [] }
    let plain : List Declaration := [.type ⟨"U", .union [⟨"a_b", .builtin "integer"⟩, ⟨"a", .declared "U"⟩]⟩]
    let table : Symbols :=
      { entries := Builtin.all.map Builtin.entry ++ [⟨"U", "U", some (.union [⟨"a_b", ⟨1⟩⟩, ⟨"a", ⟨9⟩⟩])⟩]
        builtins := numbered 0 (Builtin.all.map Builtin.name)
        declared := [("U", ⟨9⟩)]
        constants := [] }
    (Declarations.offerAll list).resolveIn Builtin.all = .ok symbols ∧
      (ClassRef.Clash symbols (.wrapper ⟨9⟩ "a_b") (.wrapper ⟨10⟩ "a") ∨
        ClassRef.Clash symbols (.wrapper ⟨10⟩ "a") (.wrapper ⟨9⟩ "a_b")) ∧
      (Declarations.offerAll plain).resolveIn Builtin.all = .ok table ∧
      ClassRef.name table (.wrapper ⟨9⟩ "a_b") ≠ ClassRef.name table (.wrapper ⟨9⟩ "a") := by
  intro list symbols plain table
  have resolved : (Declarations.offerAll list).resolveIn Builtin.all = .ok symbols := by rfl
  have resolvedPlain : (Declarations.offerAll plain).resolveIn Builtin.all = .ok table := by rfl
  refine ⟨resolved, ?_, resolvedPlain, ?_⟩
  · have clashes := (class_names_clash Builtin.all (.refl _) list symbols resolved (.wrapper ⟨9⟩ "a_b")
      (.wrapper ⟨10⟩ "a") (by decide) (by decide)).1.mp (by decide +kernel)
    exact clashes.resolve_left (by simp)
  · intro same
    have equal := (class_names_clash Builtin.all (.refl _) plain table resolvedPlain (.wrapper ⟨9⟩ "a_b")
      (.wrapper ⟨9⟩ "a") (by decide) (by decide)).2 (by decide +kernel)
      (by intro type; cases type <;> decide) same
    simp at equal

/-- Classes of one table can have the same name: a declared type that of a built-in class, two wrappers one name, and a
    wrapper that of a declared type. -/
theorem class_names_coincide :
    let list : List Declaration :=
      [.type ⟨"c", .union [⟨"a_b", .builtin "integer"⟩]⟩, .type ⟨"b_c", .union [⟨"a", .builtin "integer"⟩]⟩,
        .type ⟨"SC_a_b_c", .record []⟩, .type ⟨"INTEGER", .set []⟩]
    ∃ symbols, (Declarations.offerAll list).resolveIn Builtin.all = .ok symbols ∧
      (∃ first second, first ≠ second ∧ ClassRef.Of symbols (.type first) ∧ ClassRef.Of symbols (.type second) ∧
        symbols.javaName first = symbols.javaName second) ∧
      (∃ union alternative union' alternative', (union, alternative) ≠ (union', alternative') ∧
        ClassRef.Of symbols (.wrapper union alternative) ∧ ClassRef.Of symbols (.wrapper union' alternative') ∧
        unionWrapper alternative (symbols.javaName union) = unionWrapper alternative' (symbols.javaName union')) ∧
      ∃ union alternative id, ClassRef.Of symbols (.wrapper union alternative) ∧ ClassRef.Of symbols (.type id) ∧
        unionWrapper alternative (symbols.javaName union) = symbols.javaName id := by
  intro list
  refine ⟨_, rfl, ⟨⟨1⟩, ⟨12⟩, ?_⟩, ⟨⟨9⟩, "a_b", ⟨10⟩, "a", ?_⟩, ⟨9⟩, "a_b", ⟨11⟩, ?_⟩
  · decide +kernel
  · decide +kernel
  · decide +kernel

end TtcnTemplates
