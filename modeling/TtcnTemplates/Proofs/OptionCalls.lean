import Mathlib.Data.List.Induction
import TtcnTemplates.Output.Options
import TtcnTemplates.Proofs.Validity

/-! # Options that are given once

An option has a slot, which the first valid value that is given for it fills for good. A call reads the value and looks
at the slot before it changes anything, so that a call that fails leaves all options as they were. What an option is in
the end therefore depends on the calls for that option alone (`Options.slot_afterCalls`), and not on how they are mixed
with the calls for others.
-/

namespace TtcnTemplates

open Text

/-- The text of a string of bytes is the one whose bytes they are. -/
theorem Text.decode?_eq_some_iff {bytes : Bytes} {text : String} : decode? bytes = some text ↔ bytes = encode text := by
  have stored (text : String) : text.toByteArray = ⟨(encode text).toArray⟩ := by
    rw [encode, ← List.data_toByteArray, ← List.utf8Encode, ← String.toByteArray_ofList, String.ofList_toList]
  rw [decode?, String.fromUTF8?]
  constructor
  · intro read
    split at read
    · cases read
      have same := congrArg (fun bytes : ByteArray => bytes.data.toList) (stored (String.fromUTF8 _ ‹_›))
      simpa [String.fromUTF8] using same
    · cases read
  · rintro rfl
    have valid : ByteArray.IsValidUTF8 ⟨(encode text).toArray⟩ := by
      rw [← stored]
      exact text.isValidUTF8
    rw [dif_pos valid, Option.some.injEq, ← String.toByteArray_inj]
    exact (stored text).symm

/-! ### The slots of the options -/

namespace OptionName

/-- What an option holds. -/
abbrev Value : OptionName → Type
  | .outDir => Bytes
  | .package => Package
  | .className => String
  | .runtimePackage => Package

/-- The value of an option that is given as bytes. -/
def read : (name : OptionName) → Bytes → Except OptionError name.Value
  | .outDir, value => .ok value
  | .package, value => return Package.ofText (← Options.textOf .package value)
  | .className, value => Options.textOf .className value >>= Options.classOf
  | .runtimePackage, value => return Package.ofText (← Options.textOf .runtimePackage value)

/-- The bytes that an option can be given. The output directory is any string of bytes, the others are texts, and the
    class is an identifier. -/
def Accepts (value : Bytes) : OptionName → Prop
  | .outDir => True
  | .className => ∃ text, value = encode text ∧ isIdentifier text = true
  | _ => ∃ text, value = encode text

theorem ofText?_eq_some_iff {text : String} {name : OptionName} : ofText? text = some name ↔ text = name.text := by
  constructor
  · intro found
    have named := List.find?_some found
    exact (beq_iff_eq.mp named).symm
  · rintro rfl
    cases name <;> decide

theorem text_injective {name other : OptionName} (same : name.text = other.text) : name = other := by
  have found : ofText? name.text = some other := ofText?_eq_some_iff.mpr same
  rw [ofText?_eq_some_iff.mpr rfl] at found
  exact Option.some.inj found

end OptionName

namespace Options

theorem textOf_eq_ok_iff {name : OptionName} {value : Bytes} {text : String} :
    textOf name value = .ok text ↔ value = encode text := by
  rw [textOf, ← decode?_eq_some_iff]
  cases decode? value <;> simp

theorem classOf_eq_ok_iff {text name : String} : classOf text = .ok name ↔ isIdentifier text = true ∧ text = name := by
  rw [classOf]
  split <;> simp_all

/-- What an option has been given. -/
def slot (options : Options) : (name : OptionName) → Option name.Value
  | .outDir => options.outDir
  | .package => options.package
  | .className => options.className
  | .runtimePackage => options.runtimePackage

/-- The options in which one of them has a value. -/
def fill (options : Options) : (name : OptionName) → name.Value → Options
  | .outDir, value => { options with outDir := some value }
  | .package, value => { options with package := some value }
  | .className, value => { options with className := some value }
  | .runtimePackage, value => { options with runtimePackage := some value }

theorem ext_slot {options other : Options} (same : ∀ name, options.slot name = other.slot name) : options = other := by
  cases options
  cases other
  congr
  · exact same .outDir
  · exact same .package
  · exact same .className
  · exact same .runtimePackage

theorem slot_empty (name : OptionName) : slot {} name = none := by
  cases name <;> rfl

theorem slot_fill_self (options : Options) (name : OptionName) (value : name.Value) :
    (options.fill name value).slot name = some value := by
  cases name <;> rfl

theorem slot_fill_of_ne (options : Options) {name other : OptionName} (value : name.Value) (different : other ≠ name) :
    (options.fill name value).slot other = options.slot other := by
  cases name <;> cases other <;> simp_all [slot, fill]

theorem once_bind {α : Type} (name : OptionName) (slot : Option α) (value : α) (update : Option α → Options) :
    (once name slot value >>= fun slot => pure (update slot)) =
      if slot.isSome then .error (.alreadyGiven name) else .ok (update (some value)) := by
  cases slot <;> rfl

/-- Every option is given in one way: its value is read, and then its slot has to be free. -/
theorem set_eq (options : Options) (value : Bytes) (name : OptionName) :
    options.set value name = name.read value >>= fun given =>
      if (options.slot name).isSome then .error (.alreadyGiven name) else .ok (options.fill name given) := by
  cases name with
  | outDir => exact once_bind _ _ _ _
  | package =>
    rw [set, OptionName.read]
    cases textOf .package value with
    | error _ => rfl
    | ok text => exact once_bind _ _ _ _
  | className =>
    rw [set, OptionName.read]
    cases textOf .className value with
    | error _ => rfl
    | ok text =>
      change (classOf text >>= _) = (classOf text >>= _)
      cases classOf text with
      | error _ => rfl
      | ok name => exact once_bind _ _ _ _
  | runtimePackage =>
    rw [set, OptionName.read]
    cases textOf .runtimePackage value with
    | error _ => rfl
    | ok text => exact once_bind _ _ _ _

/-! ### Values -/

theorem read_text_eq_ok_iff {α : Type} {name : OptionName} {value : Bytes} {make : String → α} {given : α} :
    (textOf name value >>= fun text => pure (make text)) = .ok given ↔
      ∃ text, value = encode text ∧ given = make text := by
  constructor
  · intro read
    obtain ⟨text, taken, made⟩ := exists_of_bind_eq_ok read
    exact ⟨text, textOf_eq_ok_iff.mp taken, (Except.ok.inj made).symm⟩
  · rintro ⟨text, taken, rfl⟩
    rw [textOf_eq_ok_iff.mpr taken]
    rfl

theorem exists_read_text_iff {α : Type} {name : OptionName} {value : Bytes} (make : String → α) :
    (∃ given, (textOf name value >>= fun text => pure (make text)) = .ok given) ↔ ∃ text, value = encode text := by
  simp only [read_text_eq_ok_iff]
  constructor
  · rintro ⟨given, text, taken, -⟩
    exact ⟨text, taken⟩
  · rintro ⟨text, taken⟩
    exact ⟨make text, text, taken, rfl⟩

theorem read_className_eq_ok_iff {value : Bytes} {given : String} :
    OptionName.className.read value = .ok given ↔ value = encode given ∧ isIdentifier given = true := by
  rw [OptionName.read]
  constructor
  · intro read
    obtain ⟨text, taken, checked⟩ := exists_of_bind_eq_ok read
    obtain ⟨identifier, rfl⟩ := classOf_eq_ok_iff.mp checked
    exact ⟨textOf_eq_ok_iff.mp taken, identifier⟩
  · rintro ⟨taken, identifier⟩
    rw [textOf_eq_ok_iff.mpr taken]
    exact classOf_eq_ok_iff.mpr ⟨identifier, rfl⟩

/-- A value can be read exactly if the option accepts it. -/
theorem exists_read_iff {name : OptionName} {value : Bytes} :
    (∃ given, name.read value = .ok given) ↔ name.Accepts value := by
  cases name with
  | outDir => exact iff_of_true ⟨value, rfl⟩ trivial
  | className => exact exists_congr fun _ => read_className_eq_ok_iff
  | package => exact exists_read_text_iff Package.ofText
  | runtimePackage => exact exists_read_text_iff Package.ofText

/-! ### Calls in place -/

/-- Gives an option in place: the value is read, then the slot is looked at, and only then it is filled. -/
def give (name : OptionName) (value : Bytes) : EStateM OptionError Options Unit := do
  let given ← MonadExcept.ofExcept (name.read value)
  if ((← get).slot name).isSome then throw (.alreadyGiven name)
  else modify fun options => options.fill name given

/-- Gives the option of a name in place. -/
def call (name : String) (value : Bytes) : EStateM OptionError Options Unit :=
  match OptionName.ofText? name with
  | some name => give name value
  | none => throw (.unknown name)

/-- The options that a call leaves, whether it succeeds or not. -/
def afterCall (options : Options) (offered : String × Bytes) : Options :=
  match (call offered.1 offered.2).run options with
  | .ok _ left => left
  | .error _ left => left

/-- The options after calls one after the other. A call that fails does not stop those after it. -/
def afterCalls (calls : List (String × Bytes)) : Options := calls.foldl afterCall {}

theorem give_run_of_error {options : Options} {name : OptionName} {value : Bytes} {error : OptionError}
    (read : name.read value = .error error) : (give name value).run options = .error error options := by
  rw [give, read]
  rfl

theorem give_run_of_ok {options : Options} {name : OptionName} {value : Bytes} {given : name.Value}
    (read : name.read value = .ok given) : (give name value).run options =
      if (options.slot name).isSome then .error (.alreadyGiven name) options else .ok () (options.fill name given) := by
  rw [give, read]
  change (if (options.slot name).isSome then (throw (.alreadyGiven name) : EStateM OptionError Options Unit)
    else modify fun options => options.fill name given) options = _
  split <;> rfl

/-- A call in place does what giving the option does, and if that fails it leaves the options as they were. -/
theorem call_run (options : Options) (name : String) (value : Bytes) :
    (∃ after, options.add name value = .ok after ∧ (call name value).run options = .ok () after) ∨
    ∃ error, options.add name value = .error error ∧ (call name value).run options = .error error options := by
  rw [add, call]
  cases OptionName.ofText? name with
  | none => exact .inr ⟨_, rfl, rfl⟩
  | some option =>
    simp only [set_eq]
    cases read : option.read value with
    | error error => exact .inr ⟨error, rfl, give_run_of_error read⟩
    | ok given =>
      rw [give_run_of_ok read]
      by_cases taken : (options.slot option).isSome
      · exact .inr ⟨.alreadyGiven option, by simp [bind, Except.bind, taken], if_pos taken⟩
      · exact .inl ⟨options.fill option given, by simp [bind, Except.bind, taken], if_neg taken⟩

theorem afterCall_eq_offer (options : Options) (offered : String × Bytes) :
    options.afterCall offered = options.offer offered := by
  rw [afterCall, offer]
  rcases call_run options offered.1 offered.2 with ⟨after, added, run⟩ | ⟨error, refused, run⟩
  · rw [run, added]
    rfl
  · rw [run, refused]
    rfl

theorem afterCalls_eq_offerAll (calls : List (String × Bytes)) : afterCalls calls = offerAll calls := by
  rw [afterCalls, offerAll, funext fun options => funext (afterCall_eq_offer options)]

theorem afterCalls_concat (calls : List (String × Bytes)) (offered : String × Bytes) :
    afterCalls (calls ++ [offered]) = (afterCalls calls).afterCall offered :=
  List.foldl_append

/-- A call succeeds if it names an option that accepts the value and whose slot is free. -/
theorem call_succeeds_iff {options : Options} {offered : String × Bytes} :
    (∃ left, (call offered.1 offered.2).run options = .ok () left) ↔
      ∃ name : OptionName, offered.1 = name.text ∧ name.Accepts offered.2 ∧ options.slot name = none := by
  rw [call]
  cases named : OptionName.ofText? offered.1 with
  | none =>
    refine iff_of_false (by rintro ⟨left, run⟩; cases run) ?_
    rintro ⟨name, same, -⟩
    rw [OptionName.ofText?_eq_some_iff.mpr same] at named
    cases named
  | some option =>
    have same := OptionName.ofText?_eq_some_iff.mp named
    have only : (∃ name : OptionName, offered.1 = name.text ∧ name.Accepts offered.2 ∧ options.slot name = none) ↔
        option.Accepts offered.2 ∧ options.slot option = none := by
      refine ⟨?_, fun accepted => ⟨option, same, accepted⟩⟩
      rintro ⟨name, other, accepted⟩
      rwa [← OptionName.text_injective (other.symm.trans same)]
    rw [only, ← exists_read_iff]
    cases read : option.read offered.2 with
    | error error => simp [give_run_of_error read]
    | ok given =>
      simp only [give_run_of_ok read]
      cases options.slot option <;> simp

/-- A call fills the slot of the option that it names, if that is free and the value can be read, and no other slot. -/
theorem slot_afterCall (options : Options) (offered : String × Bytes) (name : OptionName) :
    (options.afterCall offered).slot name =
      (options.slot name).or (if offered.1 = name.text then (name.read offered.2).toOption else none) := by
  rw [afterCall, call]
  cases named : OptionName.ofText? offered.1 with
  | none =>
    have other : offered.1 ≠ name.text := by
      intro same
      rw [OptionName.ofText?_eq_some_iff.mpr same] at named
      cases named
    rw [if_neg other, Option.or_none]
    rfl
  | some option =>
    have same := OptionName.ofText?_eq_some_iff.mp named
    by_cases here : name = option
    · subst here
      rw [if_pos same]
      cases read : name.read offered.2 with
      | error error => simp [give_run_of_error read, Except.toOption]
      | ok given =>
        simp only [give_run_of_ok read]
        cases taken : options.slot name with
        | none => simp [slot_fill_self, Except.toOption]
        | some before => simp [taken]
    · have other : offered.1 ≠ name.text := by
        rw [same]
        exact fun same => here (OptionName.text_injective same).symm
      rw [if_neg other, Option.or_none]
      cases read : option.read offered.2 with
      | error error => simp [give_run_of_error read]
      | ok given =>
        simp only [give_run_of_ok read]
        cases options.slot option <;> simp [slot_fill_of_ne _ _ here]

/-- An option is what the first call for it gives whose value can be read. -/
theorem slot_afterCalls (calls : List (String × Bytes)) (name : OptionName) : (afterCalls calls).slot name =
    (calls.filter fun offered => offered.1 == name.text).findSome? fun offered => (name.read offered.2).toOption := by
  induction calls using List.reverseRecOn with
  | nil => exact slot_empty name
  | append_singleton calls offered ih =>
    rw [afterCalls_concat, slot_afterCall, ih, List.filter_append, List.findSome?_append]
    by_cases same : offered.1 = name.text <;> simp [same]

/-! ### Calls that succeed -/

/-- A call succeeds after the calls before it. -/
def Succeeds (before : List (String × Bytes)) (offered : String × Bytes) : Prop :=
  ∃ left, (call offered.1 offered.2).run (afterCalls before) = .ok () left

/-- Among some calls one succeeds that gives an option a value. -/
def Gives (calls : List (String × Bytes)) (name : OptionName) (value : Bytes) : Prop :=
  ∃ before after, calls = before ++ (name.text, value) :: after ∧ Succeeds before (name.text, value)

variable {calls : List (String × Bytes)} {name : OptionName} {value : Bytes}

theorem succeeds_iff :
    Succeeds calls (name.text, value) ↔ name.Accepts value ∧ (afterCalls calls).slot name = none := by
  rw [Succeeds, call_succeeds_iff]
  constructor
  · rintro ⟨other, same, accepted⟩
    rwa [OptionName.text_injective same]
  · exact fun accepted => ⟨name, rfl, accepted⟩

theorem succeeds_iff_add {name : String} :
    Succeeds calls (name, value) ↔ ∃ after, (offerAll calls).add name value = .ok after := by
  rw [Succeeds, afterCalls_eq_offerAll]
  rcases call_run (offerAll calls) name value with ⟨after, added, run⟩ | ⟨error, refused, run⟩
  · exact iff_of_true ⟨after, run⟩ ⟨after, added⟩
  · simp [refused, run]

theorem gives_concat {offered : String × Bytes} : Gives (calls ++ [offered]) name value ↔
    Gives calls name value ∨ offered = (name.text, value) ∧ Succeeds calls (name.text, value) := by
  constructor
  · rintro ⟨before, after, split, succeeds⟩
    rcases concat_eq_split split with ⟨rfl, same⟩ | ⟨middle, same⟩
    · exact .inr ⟨same, succeeds⟩
    · exact .inl ⟨before, middle, same, succeeds⟩
  · rintro (⟨before, after, rfl, succeeds⟩ | ⟨rfl, succeeds⟩)
    · exact ⟨before, after ++ [offered], by simp, succeeds⟩
    · exact ⟨calls, [], rfl, succeeds⟩

/-- A slot holds what the call that succeeded gave. -/
theorem slot_eq_some_iff {given : name.Value} : (afterCalls calls).slot name = some given ↔
    ∃ value, Gives calls name value ∧ name.read value = .ok given := by
  induction calls using List.reverseRecOn with
  | nil =>
    refine iff_of_false (by simp [afterCalls, slot_empty]) ?_
    rintro ⟨value, ⟨before, after, split, -⟩, -⟩
    simp at split
  | append_singleton calls offered ih =>
    rw [afterCalls_concat, slot_afterCall, Option.or_eq_some_iff, ih]
    simp only [gives_concat, or_and_right, exists_or]
    refine or_congr_right ⟨?_, ?_⟩
    · rintro ⟨free, read⟩
      split at read
      case isTrue same =>
        have read : name.read offered.2 = .ok given := by
          cases h : name.read offered.2 <;> simp_all [Except.toOption]
        exact ⟨offered.2, ⟨by rw [← same], succeeds_iff.mpr ⟨exists_read_iff.mp ⟨given, read⟩, free⟩⟩, read⟩
      case isFalse => cases read
    · rintro ⟨value, ⟨rfl, succeeds⟩, read⟩
      refine ⟨(succeeds_iff.mp succeeds).2, ?_⟩
      rw [if_pos rfl, read]
      rfl

theorem Gives.exists_read (gives : Gives calls name value) : ∃ given, name.read value = .ok given := by
  obtain ⟨before, after, -, succeeds⟩ := gives
  exact exists_read_iff.mpr (succeeds_iff.mp succeeds).1

/-- A slot is free as long as no call for it has succeeded. -/
theorem slot_eq_none_iff : (afterCalls calls).slot name = none ↔ ∀ value, ¬Gives calls name value := by
  rw [Option.eq_none_iff_forall_ne_some]
  simp only [ne_eq, slot_eq_some_iff, not_exists, not_and]
  constructor
  · intro free value gives
    obtain ⟨given, read⟩ := gives.exists_read
    exact free given value gives read
  · exact fun free given value gives => absurd gives (free value)

/-- After a call for an option has succeeded, no later one for that option does. -/
theorem not_succeeds_later {before : List (String × Bytes)} (succeeds : Succeeds before (name.text, value))
    (middle : List (String × Bytes)) (later : Bytes) :
    ¬Succeeds (before ++ (name.text, value) :: middle) (name.text, later) := by
  intro again
  have free := slot_eq_none_iff.mp (succeeds_iff.mp again).2
  exact free value ⟨before, middle, rfl, succeeds⟩

/-- The call that gives an option its value is the only one that does. -/
theorem succeeds_unique {before after before' after' : List (String × Bytes)} {value' : Bytes}
    (succeeds : Succeeds before (name.text, value)) (succeeds' : Succeeds before' (name.text, value'))
    (same : before ++ (name.text, value) :: after = before' ++ (name.text, value') :: after') :
    before = before' ∧ value = value' ∧ after = after' := by
  rcases List.append_eq_append_iff.mp same with ⟨middle, rfl, rest⟩ | ⟨middle, rfl, rest⟩
  · rcases List.cons_eq_append_iff.mp rest with ⟨rfl, here⟩ | ⟨middle, rfl, -⟩
    · simp_all
    · exact absurd succeeds' (not_succeeds_later succeeds middle value')
  · rcases List.cons_eq_append_iff.mp rest with ⟨rfl, here⟩ | ⟨middle, rfl, -⟩
    · simp_all
    · exact absurd succeeds (not_succeeds_later succeeds' middle value)

/-- What an option that is given as a text is in the end: what is made of the text that the successful call gave, or the
    default if there is no such call. -/
def Final {α : Type} (calls : List (String × Bytes)) (name : OptionName) (make : String → α) (default final : α) :
    Prop :=
  (∃ text, Gives calls name (encode text) ∧ final = make text) ∨ (∀ value, ¬Gives calls name value) ∧ final = default

theorem final_elim {α : Type} (name : OptionName) (make : String → name.Value)
    (texts : ∀ value given, name.read value = .ok given → ∃ text, value = encode text ∧ given = make text)
    (use : name.Value → α) (default : α) :
    Final calls name (fun text => use (make text)) default (((afterCalls calls).slot name).elim default use) := by
  cases held : (afterCalls calls).slot name with
  | none => exact .inr ⟨slot_eq_none_iff.mp held, rfl⟩
  | some given =>
    obtain ⟨value, gives, read⟩ := slot_eq_some_iff.mp held
    obtain ⟨text, rfl, rfl⟩ := texts value given read
    exact .inl ⟨text, gives, rfl⟩

/-- Complete options have an output directory, and each of the others as it was given or by default. -/
theorem settings_eq_ok_iff {options : Options} {settings : Settings} : options.settings = .ok settings ↔
    options.slot .outDir = some settings.outDir ∧
    settings.package = (options.slot .package).elim none some ∧
    settings.className = (options.slot .className).elim "Templates" id ∧
    settings.runtimePackage = (options.slot .runtimePackage).elim ⟨["ttcn3", "runtime"]⟩ id := by
  have package : options.package = (options.slot .package).elim none some := by
    cases h : options.package <;> simp [slot, h]
  have className : options.className.getD defaultClassName = (options.slot .className).elim "Templates" id := by
    cases h : options.className <;> simp [slot, h, defaultClassName]
  have runtimePackage : options.runtimePackage.getD defaultRuntimePackage =
      (options.slot .runtimePackage).elim ⟨["ttcn3", "runtime"]⟩ id := by
    cases h : options.runtimePackage with
    | none => simpa [slot, h] using (by decide : defaultRuntimePackage = ⟨["ttcn3", "runtime"]⟩)
    | some given => simp [slot, h]
  rw [Options.settings, ← package, ← className, ← runtimePackage]
  cases directory : options.outDir with
  | none => simp [slot, directory]
  | some outDir =>
    obtain ⟨outDir', package', className', runtimePackage'⟩ := settings
    simp only [slot, directory, Except.ok.injEq, Settings.mk.injEq, Option.some.injEq, eq_comm]

/-- Options are collected call by call, where a call that fails does not stop those after it. A call succeeds exactly if
    it names an option that accepts the value and for which no call before it has succeeded, and a call that fails leaves
    the options as they were. So at most one call for an option succeeds. The options are complete exactly if one for the
    output directory has, and then every option has the value that the successful call for it gave, or its default. Calls
    for different options may come in any order. -/
theorem given_once (calls : List (String × Bytes)) :
    afterCalls calls = offerAll calls ∧
    (∀ name value, Succeeds calls (name, value) ↔ ∃ after, (offerAll calls).add name value = .ok after) ∧
    (∀ name value, Succeeds calls (name, value) ↔
      ∃ option : OptionName, name = option.text ∧ option.Accepts value ∧ ∀ earlier, ¬Gives calls option earlier) ∧
    (∀ (options left : Options) (name : String) (value : Bytes) (error : OptionError),
      (call name value).run options = .error error left → left = options) ∧
    (∀ (option : OptionName) (before after before' after' : List (String × Bytes)) (value value' : Bytes),
      calls = before ++ (option.text, value) :: after → Succeeds before (option.text, value) →
      calls = before' ++ (option.text, value') :: after' → Succeeds before' (option.text, value') →
      before = before' ∧ value = value' ∧ after = after') ∧
    ((∃ settings, (afterCalls calls).settings = .ok settings) ↔ ∃ directory, Gives calls .outDir directory) ∧
    (∀ settings, (afterCalls calls).settings = .ok settings →
      Gives calls .outDir settings.outDir ∧
      Final calls .package (fun text => some (.ofText text)) none settings.package ∧
      Final calls .className id "Templates" settings.className ∧
      Final calls .runtimePackage Package.ofText ⟨["ttcn3", "runtime"]⟩ settings.runtimePackage) ∧
    ∀ other : List (String × Bytes),
      (∀ option : OptionName, (other.filter fun offered => offered.1 == option.text) =
        calls.filter fun offered => offered.1 == option.text) →
      afterCalls other = afterCalls calls := by
  refine ⟨afterCalls_eq_offerAll calls, fun _ _ => succeeds_iff_add, fun name value => ?succeeds, ?unchanged, ?unique,
    ?complete, ?final, ?reordered⟩
  case succeeds =>
    rw [Succeeds, call_succeeds_iff]
    simp only [slot_eq_none_iff]
  case unchanged =>
    intro options left name value error failed
    rcases call_run options name value with ⟨after, -, run⟩ | ⟨error', -, run⟩
    · rw [run] at failed
      cases failed
    · rw [run] at failed
      cases failed
      rfl
  case unique =>
    intro option before after before' after' value value' split succeeds split' succeeds'
    exact succeeds_unique succeeds succeeds' (split.symm.trans split')
  case complete =>
    constructor
    · rintro ⟨settings, complete⟩
      obtain ⟨directory, gives, -⟩ := slot_eq_some_iff.mp (settings_eq_ok_iff.mp complete).1
      exact ⟨directory, gives⟩
    · rintro ⟨directory, gives⟩
      have held := slot_eq_some_iff.mpr ⟨directory, gives, rfl⟩
      exact ⟨⟨directory, _, _, _⟩, settings_eq_ok_iff.mpr ⟨held, rfl, rfl, rfl⟩⟩
  case final =>
    intro settings complete
    obtain ⟨held, package, className, runtimePackage⟩ := settings_eq_ok_iff.mp complete
    obtain ⟨directory, gives, same⟩ := slot_eq_some_iff.mp held
    cases same
    rw [package, className, runtimePackage]
    refine ⟨gives, ?_, ?_, ?_⟩
    · exact final_elim .package .ofText (fun _ _ read => read_text_eq_ok_iff.mp read) some none
    · exact final_elim .className id (fun _ given read => ⟨given, (read_className_eq_ok_iff.mp read).1, rfl⟩) id _
    · exact final_elim .runtimePackage .ofText (fun _ _ read => read_text_eq_ok_iff.mp read) id _
  case reordered =>
    intro other same
    refine ext_slot fun option => ?_
    rw [slot_afterCalls, slot_afterCalls, same option]

example : afterCalls [("class", encode "9T"), ("class", encode "T"), ("out_dir", [0xFF]), ("class", encode "U")] =
    { outDir := some [0xFF], className := some "T" } := by decide +kernel

end Options

end TtcnTemplates
