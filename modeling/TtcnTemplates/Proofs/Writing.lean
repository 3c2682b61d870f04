import TtcnTemplates.Template.Write

/-! # Writing to a sink

Whatever the action for one fragment is, writing an expression or a module does it for the fragments of the source, in
their order (`Expr.write_eq`, `Registry.write_eq`). So the first failure is the end of the writing, and a sink of
bounded size holds as much of the source as it has room for.
-/

namespace TtcnTemplates

open Text

/-! ### Writing is writing the fragments -/

section Fragments

variable {m : Type → Type} [Monad m] (put : String → m Unit)

theorem Text.eachSeparated_map [LawfulMonad m] {α β : Type} (separator : m Unit) (body : β → m Unit) (make : α → β)
    (items : List α) :
    eachSeparated separator body (items.map make) = eachSeparated separator (fun item => body (make item)) items := by
  cases items with
  | nil => rfl
  | cons first rest => simp [eachSeparated]

/-- Items that are written as fragments, with a separator between any two of them. -/
theorem Text.eachSeparated_eq [LawfulMonad m] {α : Type} (separator : String) (fragments : α → List String)
    {body : α → m Unit} (writes : ∀ item, body item = (fragments item).forM put) (items : List α) :
    eachSeparated (put separator) body items = ([separator].intercalate (items.map fragments)).forM put := by
  cases items with
  | nil => rfl
  | cons first rest =>
    simp only [eachSeparated, writes, List.forM_eq_forM]
    induction rest generalizing first with
    | nil => simp
    | cons next rest ih =>
      have later := ih next
      simp only [List.map_cons] at later
      simp only [List.map_cons, List.intercalate_cons_cons, List.forM_append, List.forM_cons, List.forM_nil, ← later,
        bind_assoc, pure_bind]

/-- A constructor call whose arguments are written as the given fragments. -/
theorem writeCall_eq [LawfulMonad m] (indent : Nat) (type : String) (arguments : List (List String)) :
    writeCall put indent type (arguments.map fun argument => argument.forM put) =
      (constructorCall indent type arguments).forM put := by
  have line (argument : List String) : (do writeTabs put (indent + 1); argument.forM put) =
      (tabs (indent + 1) ++ argument).forM put := by simp [writeTabs]
  rw [writeCall, constructorCall, Text.eachSeparated_map, Text.eachSeparated_eq put ",\n" _ line]
  by_cases none : arguments = []
  · simp [none]
  · simp [none, writeTabs]

mutual
/-- Writing an expression is writing its fragments. -/
theorem Expr.write_eq [LawfulMonad m] (indent : Nat) (value : Expr) :
    value.write put indent = (value.fragments indent).forM put := by
  cases value with
  | atom type leaf => rfl
  | named type slots => rw [Expr.write, Expr.writeNamed_eq, writeCall_eq, Expr.fragments]
  | positional type slots => rw [Expr.write, Expr.writePositional_eq, writeCall_eq, Expr.fragments]
  | sequence type elements => rw [Expr.write, Expr.writeElements_eq, writeCall_eq, Expr.fragments]
  | union type alternative value =>
    simp [Expr.write, Expr.fragments, value.write_eq indent]

theorem Expr.writeNamed_eq [LawfulMonad m] (indent : Nat) (slots : List (String × Option Expr)) :
    Expr.writeNamed put indent slots = (Expr.namedArguments indent slots).map fun argument => argument.forM put := by
  cases slots with
  | nil => rfl
  | cons slot rest =>
    obtain ⟨name, value⟩ := slot
    cases value with
    | none => rw [Expr.writeNamed, Expr.namedArguments, List.map_cons, Expr.writeNamed_eq indent rest]
    | some value =>
      rw [Expr.writeNamed, Expr.namedArguments, List.map_cons, Expr.writeNamed_eq indent rest, value.write_eq indent]

theorem Expr.writePositional_eq [LawfulMonad m] (indent first : Nat) (slots : List (Option Expr)) :
    Expr.writePositional put indent first slots =
      (Expr.positionalArguments indent first slots).map fun argument => argument.forM put := by
  cases slots with
  | nil => rfl
  | cons slot rest =>
    cases slot with
    | none =>
      rw [Expr.writePositional, Expr.positionalArguments, List.map_cons,
        Expr.writePositional_eq indent (first + 1) rest]
    | some value =>
      rw [Expr.writePositional, Expr.positionalArguments, List.map_cons,
        Expr.writePositional_eq indent (first + 1) rest, value.write_eq indent]

theorem Expr.writeElements_eq [LawfulMonad m] (indent : Nat) (elements : List Expr) :
    Expr.writeElements put indent elements =
      (Expr.elementArguments indent elements).map fun argument => argument.forM put := by
  cases elements with
  | nil => rfl
  | cons value rest =>
    rw [Expr.writeElements, Expr.elementArguments, List.map_cons, Expr.writeElements_eq indent rest,
      value.write_eq indent]
end

theorem Override.write_eq [LawfulMonad m] (indent : Nat) (override : Override) :
    override.write put indent = (override.fragments indent).forM put := by
  simp [Override.write, Override.fragments, writeTabs, Expr.write_eq]

theorem Template.writeValue_eq [LawfulMonad m] (indent : Nat) (template : Template) :
    template.writeValue put indent = (template.valueFragments indent).forM put := by
  rw [Template.writeValue, Template.valueFragments]
  cases template.value with
  | none => simp
  | some value => exact value.write_eq put indent

/-- Items that are written as fragments, one after the other. -/
theorem forM_eq_of_forall [LawfulMonad m] {α : Type} {body : α → m Unit} {fragments : α → List String}
    (writes : ∀ item, body item = (fragments item).forM put) (items : List α) :
    items.forM body = (items.flatMap fragments).forM put := by
  induction items with
  | nil => rfl
  | cons first rest ih =>
    simp only [List.forM_eq_forM] at ih writes ⊢
    rw [List.forM_cons, ih, writes, List.flatMap_cons, List.forM_append]

theorem Template.write_eq [LawfulMonad m] (indent : Nat) (template : Template) :
    template.write put indent = (template.fragments indent).forM put := by
  have parameters := Text.eachSeparated_eq put ", " Parameter.fragments (fun _ => rfl) template.parameters
  have overrides := forM_eq_of_forall put (Override.write_eq put (indent + 1)) template.overrides
  rw [Template.write, parameters, overrides, Template.writeValue_eq]
  simp [Template.fragments, writeTabs]

theorem Diagnostic.write_eq [LawfulMonad m] (indent : Nat) (diagnostic : Diagnostic) :
    diagnostic.write put indent = (diagnostic.fragments indent).forM put := by
  simp [Diagnostic.write, Diagnostic.fragments, writeTabs]

/-- Writing a module is writing its fragments. -/
theorem Registry.write_eq [LawfulMonad m] (indent : Nat) (registry : Registry) :
    registry.write put indent = (registry.fragments indent).forM put := by
  rw [Registry.write, forM_eq_of_forall put (Diagnostic.write_eq put indent),
    forM_eq_of_forall put (Template.write_eq put indent), Registry.fragments]
  simp

end Fragments

/-! ### Failures -/

/-- The fragments are written up to one that fails, and nothing is written after that one. -/
def StopsAtFailure {ε σ : Type} (put : String → EStateM ε σ Unit) (fragments : List String) (before : σ) (error : ε)
    (after : σ) : Prop :=
  ∃ written failing left middle, fragments = written ++ failing :: left ∧
    (written.forM put).run before = .ok () middle ∧ (put failing).run middle = .error error after

theorem stopsAtFailure {ε σ : Type} {put : String → EStateM ε σ Unit} {fragments : List String} {before after : σ}
    {error : ε} (fails : (fragments.forM put).run before = .error error after) :
    StopsAtFailure put fragments before error after := by
  induction fragments generalizing before with
  | nil => cases fails
  | cons first rest ih =>
    rw [List.forM_eq_forM, List.forM_cons, EStateM.run_bind] at fails
    cases here : (put first).run before with
    | error error' after' =>
      rw [here] at fails
      cases fails
      exact ⟨[], first, rest, before, rfl, rfl, here⟩
    | ok _ middle =>
      rw [here] at fails
      obtain ⟨written, failing, left, middle', rfl, writes, failed⟩ := ih fails
      refine ⟨first :: written, failing, left, middle', rfl, ?_, failed⟩
      rw [List.forM_eq_forM, List.forM_cons, EStateM.run_bind, here]
      exact writes

/-! ### A sink of bounded size -/

/-- A sink with room for `room` bytes takes all of a text, or its first bytes as far as they fit. -/
def Text.Sink.Receives (room : Nat) (text : String) (action : EStateM SinkError Sink Unit) : Prop :=
  action.run { room } =
    if (encode text).length ≤ room then .ok () ⟨room - (encode text).length, encode text⟩
    else .error .full ⟨0, (encode text).take room⟩

theorem Text.Sink.run_put (fragment : String) (sink : Sink) :
    (Sink.put fragment).run sink =
      if (encode fragment).length ≤ sink.room then
        .ok () ⟨sink.room - (encode fragment).length, sink.stored ++ encode fragment⟩
      else .error .full ⟨0, sink.stored ++ (encode fragment).take sink.room⟩ := rfl

/-- What is left of the room after one fragment is the room for the others. -/
theorem Text.Sink.run_forM_put (fragments : List String) (sink : Sink) :
    (fragments.forM Sink.put).run sink =
      if (encode (String.join fragments)).length ≤ sink.room then
        .ok () ⟨sink.room - (encode (String.join fragments)).length, sink.stored ++ encode (String.join fragments)⟩
      else .error .full ⟨0, sink.stored ++ (encode (String.join fragments)).take sink.room⟩ := by
  induction fragments generalizing sink with
  | nil => simp [encode]
  | cons first rest ih =>
    rw [List.forM_eq_forM, List.forM_cons, EStateM.run_bind, Sink.run_put, String.join_cons, encode_append,
      List.length_append]
    by_cases here : (encode first).length ≤ sink.room
    · rw [if_pos here]
      dsimp only
      rw [← List.forM_eq_forM, ih]
      dsimp only
      by_cases later : (encode (String.join rest)).length ≤ sink.room - (encode first).length
      · rw [if_pos later, if_pos (by omega), Nat.sub_sub, List.append_assoc]
      · rw [if_neg later, if_neg (by omega), List.take_append, List.take_of_length_le here, List.append_assoc]
    · rw [if_neg here, if_neg (by omega), List.take_append_of_le_length (by omega)]

theorem Text.Sink.receives_fragments (fragments : List String) (room : Nat) :
    Sink.Receives room (String.join fragments) (fragments.forM Sink.put) := Sink.run_forM_put fragments { room }

/-- A sink of bounded size holds all of the source of an expression or of a module once this has been written, if it
    has room for it. Otherwise the writing fails, and the sink holds exactly the first bytes of the source, as many as
    it had room for. Whatever is written to, nothing more is written after a failure. -/
theorem bounded_sink_receives_source (value : Expr) (registry : Registry) (indent room : Nat) :
    Sink.Receives room (value.source indent) (value.write Sink.put indent) ∧
      Sink.Receives room (registry.source indent) (registry.write Sink.put indent) ∧
      ∀ (ε σ : Type) (put : String → EStateM ε σ Unit) (before after : σ) (error : ε),
        ((value.write put indent).run before = .error error after →
          StopsAtFailure put (value.fragments indent) before error after) ∧
        ((registry.write put indent).run before = .error error after →
          StopsAtFailure put (registry.fragments indent) before error after) := by
  refine ⟨?_, ?_, ?_⟩
  · rw [Expr.write_eq]
    exact Sink.receives_fragments (value.fragments indent) room
  · rw [Registry.write_eq]
    exact Sink.receives_fragments (registry.fragments indent) room
  · intro ε σ put before after error
    rw [Expr.write_eq, Registry.write_eq]
    exact ⟨stopsAtFailure, stopsAtFailure⟩

/-- A sink that is full in the middle of the second argument of a nested call. -/
theorem bounded_sink_receives_source_nested :
    let value := Expr.union "U" "a" (.named "R" [("x", some (.atom "INTEGER" .any)), ("y", none)])
    let full : Sink := ⟨0, encode "new SC_a_U(new R(\n\tINTEGER.ANY,\n\tnull /* un"⟩
    (value.write Sink.put 0).run { room := 43 } = .error .full full ∧
      StopsAtFailure Sink.put (value.fragments 0) { room := 43 } .full full := by
  intro value full
  obtain ⟨receives, -, stops⟩ := bounded_sink_receives_source value {} 0 43
  have source : encode (value.source 0) =
      encode "new SC_a_U(new R(\n\tINTEGER.ANY,\n\tnull /* unbound field y */\n))" := by decide +kernel
  have long : ¬ (encode (value.source 0)).length ≤ 43 := by
    rw [source]
    decide +kernel
  have first : (encode (value.source 0)).take 43 = full.stored := by
    rw [source]
    decide +kernel
  have fails : (value.write Sink.put 0).run { room := 43 } = .error .full full := by
    rw [receives, if_neg long, first]
  exact ⟨fails, (stops _ _ _ _ _ _).1 fails⟩

end TtcnTemplates
