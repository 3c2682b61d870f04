import TtcnTemplates.Proofs.Replay
import TtcnTemplates.Template.Source

/-! # The order of assignments

Assignments to different fields can be written in any order (`Body.Reordered`), anywhere in a body. Each of them is
translated on its own, and the values are looked up by name in the end, so that the translations match
(`Reading.Matches`): they differ at most in the order of the remarks and, if they fail, in what they find first.
-/

namespace TtcnTemplates

/-! ### Translations that match -/

instance : LawfulMonad Reading := LawfulMonad.mk' Reading
  (by
    rintro α ⟨remarks, result⟩
    cases result with
    | error fault => rfl
    | ok value => exact congrArg (Reading.mk · (.ok value)) (List.append_nil remarks))
  (fun _ _ => rfl)
  (by
    rintro α β γ ⟨remarks, result⟩ next later
    cases result with
    | error fault => rfl
    | ok value =>
      simp only [bind]
      cases (next value).result <;> simp)

/-- Two translations that both fail, or that give related results with the same remarks up to the order of these. -/
inductive Reading.Matches {α β : Type} (related : α → β → Prop) : Reading α → Reading β → Prop
  | ok {remarks remarks' : List Remark} {first : α} {second : β} (perm : remarks.Perm remarks')
      (results : related first second) : Matches related ⟨remarks, .ok first⟩ ⟨remarks', .ok second⟩
  | error (remarks remarks' : List Remark) (fault fault' : Fault) :
      Matches related ⟨remarks, .error fault⟩ ⟨remarks', .error fault'⟩

namespace Reading.Matches

variable {α β γ δ : Type} {related : α → β → Prop} {related' : γ → δ → Prop} {first : Reading α} {second : Reading β}

theorem refl (reading : Reading α) : reading.Matches Eq reading := by
  obtain ⟨remarks, result⟩ := reading
  cases result with
  | ok value => exact .ok (.refl remarks) rfl
  | error fault => exact .error remarks remarks fault fault

theorem trans {same : α → α → Prop} {left middle right : Reading α} (former : left.Matches same middle)
    (latter : middle.Matches same right)
    (composes : ∀ value value' value'', same value value' → same value' value'' → same value value'') :
    left.Matches same right := by
  cases former with
  | error => cases latter with
    | error => exact .error ..
  | ok perm results => cases latter with
    | ok perm' results' => exact .ok (perm.trans perm') (composes _ _ _ results results')

theorem bind (matched : first.Matches related second) {next : α → Reading γ} {next' : β → Reading δ}
    (later : ∀ value value', related value value' → (next value).Matches related' (next' value')) :
    (first >>= next).Matches related' (second >>= next') := by
  cases matched with
  | error => exact .error ..
  | @ok remarks remarks' value value' perm results =>
    have later := later value value' results
    change Matches _ ⟨remarks ++ (next value).remarks, _⟩ ⟨remarks' ++ (next' value').remarks, _⟩
    generalize next value = left at later
    generalize next' value' = right at later
    cases later with
    | error => exact .error ..
    | ok perm' results => exact .ok (perm.append perm') results

/-- Two translations of which neither needs the other's result can be made in either order. -/
theorem exchange (first : Reading α) (second : Reading β) {next next' : α → β → Reading γ} {related : γ → γ → Prop}
    (later : ∀ value value', (next value value').Matches related (next' value value')) :
    (do let value ← first; let value' ← second; next value value').Matches related
      (do let value' ← second; let value ← first; next' value value') := by
  obtain ⟨remarks, result⟩ := first
  obtain ⟨remarks', result'⟩ := second
  cases result with
  | error fault => cases result' <;> exact .error ..
  | ok value =>
    cases result' with
    | error fault => exact .error ..
    | ok value' =>
      have later := later value value'
      change Matches _ ⟨remarks ++ (remarks' ++ (next value value').remarks), (next value value').result⟩
        ⟨remarks' ++ (remarks ++ (next' value value').remarks), (next' value value').result⟩
      generalize next value value' = left at later
      generalize next' value value' = right at later
      cases later with
      | error => exact .error ..
      | ok perm results =>
        refine .ok ?_ results
        rw [← List.append_assoc, ← List.append_assoc]
        exact List.perm_append_comm.append perm

end Reading.Matches

/-! ### Assignments -/

/-- The same values are given. -/
def SameGiven (given given' : List (String × Expr)) : Prop := ∀ name, given.lookup name = given'.lookup name

theorem SameGiven.trans {first second third : List (String × Expr)} (left : SameGiven first second)
    (right : SameGiven second third) : SameGiven first third := fun name => (left name).trans (right name)

theorem SameGiven.cons {given given' : List (String × Expr)} (same : SameGiven given given') (name : String)
    (value : Expr) : SameGiven ((name, value) :: given) ((name, value) :: given') := by
  intro other
  rw [List.lookup_cons, List.lookup_cons, same other]

/-- The order of two values for different names is of no account. -/
theorem SameGiven.swap (given : List (String × Expr)) {name other : String} (ne : name ≠ other) (value value' : Expr) :
    SameGiven ((other, value') :: (name, value) :: given) ((name, value) :: (other, value') :: given) := by
  intro sought
  simp only [List.lookup_cons]
  by_cases here : sought = name
  · simp [here, beq_false_of_ne ne]
  · simp [beq_false_of_ne here]

section Bodies

variable (symbols : Symbols) (parameters : List Parameter)

/-- The value that one assignment gives, after the values `given`. -/
def Body.assignment (type : String) (fields : List (Field TypeId)) (given : List (String × Expr))
    (assignment : String × Body) : Reading Expr :=
  match Field.find? fields assignment.1 with
  | none => .fail (.unknownField type assignment.1)
  | some field => do
    let value ← assignment.2.value symbols parameters field.type
    Reading.remark (if (given.lookup assignment.1).isSome then [.repeatedField assignment.1 type] else [])
    return value

variable {symbols parameters} {type : String} {fields : List (Field TypeId)}

theorem Body.assigned_cons (given : List (String × Expr)) (assignment : String × Body) (rest : List (String × Body)) :
    Body.assigned symbols parameters type fields given (assignment :: rest) =
      Body.assignment symbols parameters type fields given assignment >>= fun value =>
        Body.assigned symbols parameters type fields ((assignment.1, value) :: given) rest := by
  obtain ⟨name, body⟩ := assignment
  rw [Body.assigned, Body.assignment]
  cases Field.find? fields name with
  | none => rfl
  | some field => simp only [bind_assoc, pure_bind]

/-- An assignment only asks whether its own field is given already. -/
theorem Body.assignment_congr {given given' : List (String × Expr)} {assignment : String × Body}
    (same : given.lookup assignment.1 = given'.lookup assignment.1) :
    Body.assignment symbols parameters type fields given assignment =
      Body.assignment symbols parameters type fields given' assignment := by
  rw [Body.assignment, Body.assignment, same]

theorem Body.assigned_same (assignments : List (String × Body)) {given given' : List (String × Expr)}
    (same : SameGiven given given') :
    (Body.assigned symbols parameters type fields given assignments).Matches SameGiven
      (Body.assigned symbols parameters type fields given' assignments) := by
  induction assignments generalizing given given' with
  | nil => exact .ok (.refl []) same
  | cons assignment rest ih =>
    rw [Body.assigned_cons, Body.assigned_cons, Body.assignment_congr (same assignment.1)]
    refine (Reading.Matches.refl _).bind ?_
    rintro value _ rfl
    exact ih (same.cons assignment.1 value)

/-- Assignments to different fields can be made in any order. -/
theorem Body.assigned_perm {assignments reordered : List (String × Body)} (perm : assignments.Perm reordered)
    (distinct : (assignments.map Prod.fst).Nodup) (given : List (String × Expr)) :
    (Body.assigned symbols parameters type fields given assignments).Matches SameGiven
      (Body.assigned symbols parameters type fields given reordered) := by
  induction perm generalizing given with
  | nil => exact .ok (.refl []) fun _ => rfl
  | cons assignment _ ih =>
    rw [Body.assigned_cons, Body.assigned_cons]
    refine (Reading.Matches.refl _).bind ?_
    rintro value _ rfl
    exact ih (List.nodup_cons.mp distinct).2 ((assignment.1, value) :: given)
  | swap first second rest =>
    have ne : second.1 ≠ first.1 := by
      intro same
      simp [same] at distinct
    -- Neither assignment gives the field of the other.
    have apart (value : Expr) : ((second.1, value) :: given).lookup first.1 = given.lookup first.1 := by
      rw [List.lookup_cons, beq_false_of_ne ne.symm]
    have apart' (value : Expr) : ((first.1, value) :: given).lookup second.1 = given.lookup second.1 := by
      rw [List.lookup_cons, beq_false_of_ne ne]
    simp only [Body.assigned_cons, Body.assignment_congr (apart _), Body.assignment_congr (apart' _)]
    refine Reading.Matches.exchange _ _ fun value value' => ?_
    exact Body.assigned_same rest (SameGiven.swap given ne value value')
  | trans perm _ ih ih' =>
    have distinct' := (perm.map Prod.fst).nodup_iff.mp distinct
    exact (ih distinct given).trans (ih' distinct' given) fun _ _ _ => SameGiven.trans

/-! ### Reordered bodies -/

/-- The second body is the first one, in which the assignments of one list, wherever it stands, are written in another
    order. No two of them name the same field. -/
inductive Body.Reordered : Body → Body → Prop
  | here {assignments reordered : List (String × Body)} (distinct : (assignments.map Prod.fst).Nodup)
      (perm : assignments.Perm reordered) : Reordered (.fields assignments) (.fields reordered)
  | field {body body' : Body} (before : List (String × Body)) (name : String) (inside : Reordered body body')
      (after : List (String × Body)) :
      Reordered (.fields (before ++ (name, body) :: after)) (.fields (before ++ (name, body') :: after))
  | element {body body' : Body} (before : List Body) (inside : Reordered body body') (after : List Body) :
      Reordered (.elements (before ++ body :: after)) (.elements (before ++ body' :: after))

/-- Two bodies whose translations match at every type. -/
def Body.Alike (symbols : Symbols) (parameters : List Parameter) (body body' : Body) : Prop :=
  ∀ type, (body.value symbols parameters type).Matches Eq (body'.value symbols parameters type)

variable {body body' : Body}

/-- Elements that are not translated count only by their number. -/
theorem surplusRemarks_congr {bodies bodies' : List Body} (length : bodies.length = bodies'.length) {count : Nat}
    {index : Nat} : surplusRemarks type count index bodies = surplusRemarks type count index bodies' := by
  induction bodies generalizing bodies' index with
  | nil => rw [List.eq_nil_of_length_eq_zero length.symm]
  | cons body rest ih =>
    cases bodies' with
    | nil => cases length
    | cons body' rest' => rw [surplusRemarks, surplusRemarks, ih (Nat.succ.inj length)]

namespace Body.Alike

theorem assignment (alike : body.Alike symbols parameters body') (given : List (String × Expr)) (name : String) :
    (Body.assignment symbols parameters type fields given (name, body)).Matches Eq
      (Body.assignment symbols parameters type fields given (name, body')) := by
  rw [Body.assignment, Body.assignment]
  cases Field.find? fields name with
  | none => exact .refl _
  | some field =>
    refine (alike field.type).bind ?_
    rintro value _ rfl
    exact .refl _

theorem assigned (alike : body.Alike symbols parameters body') (before : List (String × Body)) (name : String)
    (after : List (String × Body)) (given : List (String × Expr)) :
    (Body.assigned symbols parameters type fields given (before ++ (name, body) :: after)).Matches SameGiven
      (Body.assigned symbols parameters type fields given (before ++ (name, body') :: after)) := by
  induction before generalizing given with
  | nil =>
    rw [List.nil_append, List.nil_append, Body.assigned_cons, Body.assigned_cons]
    refine (alike.assignment given name).bind ?_
    rintro value _ rfl
    exact Body.assigned_same after fun _ => rfl
  | cons assignment rest ih =>
    rw [List.cons_append, List.cons_append, Body.assigned_cons, Body.assigned_cons]
    refine (Reading.Matches.refl _).bind ?_
    rintro value _ rfl
    exact ih ((assignment.1, value) :: given)

theorem values (alike : body.Alike symbols parameters body') (before : List Body) (after : List Body)
    (type : TypeId) :
    (Body.values symbols parameters type (before ++ body :: after)).Matches Eq
      (Body.values symbols parameters type (before ++ body' :: after)) := by
  induction before with
  | nil =>
    rw [List.nil_append, List.nil_append, Body.values, Body.values]
    refine (alike type).bind ?_
    rintro value _ rfl
    exact .refl _
  | cons first rest ih =>
    rw [List.cons_append, List.cons_append, Body.values, Body.values]
    refine (Reading.Matches.refl _).bind ?_
    rintro value _ rfl
    refine ih.bind ?_
    rintro values _ rfl
    exact .refl _

theorem listed (alike : body.Alike symbols parameters body') (before : List Body) (after : List Body) (count : Nat)
    (fields : List (Field TypeId)) (index : Nat) :
    (Body.listed symbols parameters type count fields index (before ++ body :: after)).Matches Eq
      (Body.listed symbols parameters type count fields index (before ++ body' :: after)) := by
  induction before generalizing fields index with
  | nil =>
    cases fields with
    | nil => exact .refl _
    | cons field fields =>
      rw [List.nil_append, List.nil_append, Body.listed, Body.listed]
      refine (alike field.type).bind ?_
      rintro value _ rfl
      exact .refl _
  | cons first rest ih =>
    cases fields with
    | nil =>
      have remarks : surplusRemarks type count index (first :: (rest ++ body :: after)) =
          surplusRemarks type count index (first :: (rest ++ body' :: after)) := surplusRemarks_congr (by simp)
      rw [List.cons_append, List.cons_append, Body.listed, Body.listed, remarks]
      exact .refl _
    | cons field fields =>
      rw [List.cons_append, List.cons_append, Body.listed, Body.listed]
      refine (Reading.Matches.refl _).bind ?_
      rintro value _ rfl
      refine (ih fields (index + 1)).bind ?_
      rintro values _ rfl
      exact .refl _

end Body.Alike

/-- A union takes no second alternative. -/
theorem Body.alternative_fails (alternatives : List (Field TypeId)) {assignments : List (String × Body)}
    (several : 2 ≤ assignments.length) :
    ∃ remarks fault, Body.alternative symbols parameters type alternatives assignments = ⟨remarks, .error fault⟩ := by
  cases assignments with
  | nil => simp at several
  | cons first rest =>
    cases rest with
    | nil => simp at several
    | cons second rest =>
      obtain ⟨name, body⟩ := first
      rw [Body.alternative]
      cases Field.find? alternatives name with
      | none => exact ⟨[], _, rfl⟩
      | some alternative =>
        dsimp only
        generalize body.value symbols parameters alternative.type = reading
        obtain ⟨remarks, result⟩ := reading
        cases result with
        | error fault => exact ⟨remarks, fault, rfl⟩
        | ok value => exact ⟨remarks ++ [], _, rfl⟩

theorem Body.alternative_matches_of_several (alternatives : List (Field TypeId))
    {assignments assignments' : List (String × Body)} (several : 2 ≤ assignments.length)
    (several' : 2 ≤ assignments'.length) :
    (Body.alternative symbols parameters type alternatives assignments).Matches Eq
      (Body.alternative symbols parameters type alternatives assignments') := by
  obtain ⟨remarks, fault, fails⟩ := Body.alternative_fails alternatives several
  obtain ⟨remarks', fault', fails'⟩ := Body.alternative_fails alternatives several'
  rw [fails, fails']
  exact .error ..

/-- The order of alternatives is of no account: there is only one, or none of the orders is a value. -/
theorem Body.alternative_perm (alternatives : List (Field TypeId)) {assignments reordered : List (String × Body)}
    (perm : assignments.Perm reordered) :
    (Body.alternative symbols parameters type alternatives assignments).Matches Eq
      (Body.alternative symbols parameters type alternatives reordered) := by
  by_cases several : 2 ≤ assignments.length
  · exact Body.alternative_matches_of_several alternatives several (perm.length_eq ▸ several)
  · have same : assignments = reordered := by
      cases assignments with
      | nil => exact perm.nil_eq
      | cons first rest =>
        have alone : rest = [] := List.eq_nil_of_length_eq_zero (by grind)
        rw [alone] at perm ⊢
        exact perm.singleton_eq
    rw [same]
    exact .refl _

theorem Body.Alike.alternative (alike : body.Alike symbols parameters body') (before : List (String × Body))
    (name : String) (after : List (String × Body)) (alternatives : List (Field TypeId)) :
    (Body.alternative symbols parameters type alternatives (before ++ (name, body) :: after)).Matches Eq
      (Body.alternative symbols parameters type alternatives (before ++ (name, body') :: after)) := by
  by_cases several : 2 ≤ (before ++ (name, body) :: after).length
  · exact Body.alternative_matches_of_several alternatives several (by simpa using several)
  · have first : before = [] := List.eq_nil_of_length_eq_zero (by simp at several; omega)
    have last : after = [] := List.eq_nil_of_length_eq_zero (by simp at several; omega)
    rw [first, last, List.nil_append, List.nil_append, Body.alternative, Body.alternative]
    cases Field.find? alternatives name with
    | none => exact .refl _
    | some alternative =>
      refine (alike alternative.type).bind ?_
      rintro value _ rfl
      exact .refl _

/-- Two lists of assignments are translated alike if they are at a union and at a record or set. -/
theorem Body.fields_alike {assignments assignments' : List (String × Body)}
    (union : ∀ type alternatives, (Body.alternative symbols parameters type alternatives assignments).Matches Eq
      (Body.alternative symbols parameters type alternatives assignments'))
    (record : ∀ type fields, (Body.assigned symbols parameters type fields [] assignments).Matches SameGiven
      (Body.assigned symbols parameters type fields [] assignments')) :
    (Body.fields assignments).Alike symbols parameters (.fields assignments') := by
  intro type
  rw [Body.value, Body.value]
  by_cases isUnion : symbols.isUnion type = true
  · rw [if_pos isUnion, if_pos isUnion]
    exact union _ _
  · rw [if_neg isUnion, if_neg isUnion]
    by_cases structured : symbols.isStructured type = true
    · rw [if_pos structured, if_pos structured]
      refine (record _ _).bind ?_
      intro given given' same
      simp only [same _]
      exact .refl _
    · rw [if_neg structured, if_neg structured]
      exact .refl _

theorem Body.Alike.elements (alike : body.Alike symbols parameters body') (before after : List Body) :
    (Body.elements (before ++ body :: after)).Alike symbols parameters (.elements (before ++ body' :: after)) := by
  intro type
  rw [Body.value, Body.value]
  cases symbols.element? type with
  | some element =>
    refine (alike.values before after element).bind ?_
    rintro values _ rfl
    exact .refl _
  | none =>
    dsimp only
    by_cases structured : symbols.isStructured type = true
    · rw [if_pos structured, if_pos structured]
      refine (alike.listed before after _ _ 0).bind ?_
      rintro values _ rfl
      exact .refl _
    · rw [if_neg structured, if_neg structured]
      exact .refl _

/-- A body and the same body with assignments in another order are translated alike. -/
theorem Body.Reordered.alike (reordered : body.Reordered body') : body.Alike symbols parameters body' := by
  induction reordered with
  | here distinct perm =>
    exact Body.fields_alike (fun _ _ => Body.alternative_perm _ perm) fun _ _ => Body.assigned_perm perm distinct []
  | field before name inside after alike =>
    exact Body.fields_alike (fun _ _ => alike.alternative before name after _) fun _ _ =>
      alike.assigned before name after []
  | element before inside after alike => exact alike.elements before after

end Bodies

/-! ### Definitions with reordered assignments -/

theorem Body.Reordered.template_matches {body body' : Body} (reordered : body.Reordered body') (symbols : Symbols)
    (templates : List Template) (use : TypeUse) (name : String) (parameters : List (TypeUse × String)) (type : TypeId) :
    (Definition.template ⟨use, name, parameters, none, body⟩ symbols templates type).Matches Eq
      (Definition.template ⟨use, name, parameters, none, body'⟩ symbols templates type) := by
  refine (Reading.Matches.refl (readParameters symbols parameters)).bind ?_
  rintro parameters _ rfl
  refine (reordered.alike type).bind ?_
  rintro value _ rfl
  exact .refl _

/-- Remarks do not stand in the source. -/
theorem Registry.source_remarkAll (registry : Registry) (name : String) (remarks : List Remark) (template : Template)
    (indent : Nat) :
    ((registry.remarkAll name remarks).add template).source indent = (registry.add template).source indent := by
  have silent : (remarks.map fun remark => (⟨some name, .remark remark⟩ : Diagnostic)).filter
      Diagnostic.isError = [] := by simp [Diagnostic.isError]
  simp only [source, fragments, remarkAll, add, List.filter_append, silent, List.append_nil]

/-- In a definition that modifies no other one, the order of assignments to different fields does not matter, wherever
    in its body they stand: it is dropped in either order or in none, and otherwise its template is the same, with the
    same source, and so are the remarks on it, up to their order. -/
theorem assignment_order_irrelevant (order : List Builtin) (declarations : Declarations) (symbols : Symbols)
    (resolved : declarations.resolveIn order = .ok symbols) (module : String) (earlier : List Tree)
    (definitions : ∀ tree ∈ earlier, tree.IsDefinition) (use : TypeUse) (name : String)
    (parameters : List (TypeUse × String)) (body body' : Body) (reordered : body.Reordered body') :
    let before := (compile symbols (Tree.ofModule module earlier)).registry
    let after (body : Body) := (compile symbols (Tree.ofModule module
      (earlier ++ [Tree.ofDefinition use name parameters none body.tree]))).registry
    (∃ remarks remarks' context fault fault',
        after body = (before.remarkAll name remarks).report ⟨context, .fault fault⟩ ∧
        after body' = (before.remarkAll name remarks').report ⟨context, .fault fault'⟩) ∨
      ∃ remarks remarks' template, remarks.Perm remarks' ∧
        after body = (before.remarkAll name remarks).add template ∧
        after body' = (before.remarkAll name remarks').add template ∧
        ∀ indent, (after body).source indent = (after body').source indent := by
  intro before after
  have distinct := Declarations.resolveIn_distinct resolved
  have first : after body = Definition.translate symbols before ⟨use, name, parameters, none, body⟩ :=
    registry_concat distinct module definitions ⟨use, name, parameters, none, body⟩
  have second : after body' = Definition.translate symbols before ⟨use, name, parameters, none, body'⟩ :=
    registry_concat distinct module definitions ⟨use, name, parameters, none, body'⟩
  cases found : symbols.lookup use with
  | none =>
    simp only [Definition.translate, found] at first second
    refine .inl ⟨[], [], none, .unknownType use.name, .unknownType use.name, ?_, ?_⟩
    · rw [Registry.remarkAll_nil, first]
    · rw [Registry.remarkAll_nil, second]
  | some type =>
    have matched := reordered.template_matches symbols before.templates use name parameters type
    simp only [Definition.translate, found] at first second
    generalize Definition.template ⟨use, name, parameters, none, body⟩ symbols before.templates type = reading
      at first matched
    generalize Definition.template ⟨use, name, parameters, none, body'⟩ symbols before.templates type = reading'
      at second matched
    cases matched with
    | error remarks remarks' fault fault' => exact .inl ⟨remarks, remarks', some name, fault, fault', first, second⟩
    | @ok remarks remarks' template _ perm same =>
      subst same
      refine .inr ⟨remarks, remarks', template, perm, first, second, fun indent => ?_⟩
      rw [first, second, Registry.source_remarkAll, Registry.source_remarkAll]

/-- Two assignments inside an element of a list, each with a remark of its own, change places. -/
theorem assignment_order_irrelevant_swapped :
    let declarations : Declarations :=
      { types := [⟨"R", .record [⟨"a", .builtin "integer"⟩, ⟨"b", .builtin "integer"⟩]⟩,
          ⟨"L", .recordOf (.declared "R")⟩] }
    let symbols : Symbols :=
      { entries := [Builtin.integer.entry, ⟨"R", "R", some (.record [⟨"a", ⟨0⟩⟩, ⟨"b", ⟨0⟩⟩])⟩,
          ⟨"L", "L", some (.recordOf ⟨1⟩)⟩]
        builtins := [("integer", ⟨0⟩)]
        declared := [("R", ⟨1⟩), ("L", ⟨2⟩)]
        constants := [] }
    let body (assignments : List (String × Body)) : Body := .elements [.any, .fields assignments]
    let first := body [("a", .other "range"), ("b", .other "pattern")]
    let second := body [("b", .other "pattern"), ("a", .other "range")]
    let after (body : Body) := (compile symbols (Tree.ofModule "M"
      [Tree.ofDefinition (.declared "L") "t" [] none body.tree])).registry
    declarations.resolveIn [.integer] = .ok symbols ∧ first.Reordered second ∧
      ∃ template, (after first).templates = [template] ∧ (after second).templates = [template] ∧
        (after first).diagnostics.Perm (after second).diagnostics ∧
        (after first).diagnostics ≠ (after second).diagnostics := by
  intro declarations symbols body first second after
  have resolved : declarations.resolveIn [.integer] = .ok symbols := by rfl
  have reordered : first.Reordered second := .element [.any] (.here (by decide) (.swap _ _ _)) []
  have start : (compile symbols (Tree.ofModule "M" [])).registry = { name := some "M" } := by rfl
  have kept : (after first).templates.length = 1 := by decide +kernel
  have differ : (after first).diagnostics ≠ (after second).diagnostics := by decide +kernel
  have outcome := assignment_order_irrelevant [.integer] declarations symbols resolved "M" [] (by simp) (.declared "L")
    "t" [] first second reordered
  simp only [start, List.nil_append] at outcome
  change (∃ remarks remarks' context fault fault', after first = _ ∧ after second = _) ∨
    ∃ remarks remarks' template, _ ∧ after first = _ ∧ after second = _ ∧ _ at outcome
  generalize after first = left at outcome kept differ ⊢
  generalize after second = right at outcome differ ⊢
  obtain ⟨remarks, remarks', context, fault, fault', rfl, -⟩ |
    ⟨remarks, remarks', template, perm, rfl, rfl, -⟩ := outcome
  · cases kept
  · exact ⟨resolved, reordered, template, rfl, rfl, perm.map _, differ⟩

end TtcnTemplates
