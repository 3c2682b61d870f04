import TtcnTemplates.Proofs.Stack
import TtcnTemplates.Tree.Build
import TtcnTemplates.Types.Declarations

/-! # Where passing over ends

A scope that passes over a construct is not told which node it was opened for. It counts instead: a node with the tag
of the construct raises its level when it is entered and lowers it when it is left, and at level zero the end of such a
node closes the scope. Since nodes are entered and left in nested order (`Nests`), the level is always the number of
nodes with that tag that are open below the node that is passed over. It is zero again when that node is left, wherever
below the node the scope was opened and whatever is still to come.
-/

namespace TtcnTemplates

/-! ### Open nodes -/

/-- The nodes that are open after an event. -/
def Event.opened (nodes : List Tree) : Event → List Tree
  | .enter tree => tree :: nodes
  | .leave _ => nodes.tail

/-- The nodes that have been entered and not left, the innermost first. -/
def openNodes (events : List Event) : List Tree := events.foldl Event.opened []

/-- Events in nested order: each of them enters a node or leaves the innermost one that is open. The lists are the
    nodes that are open before and after the events, up to nodes further out that the events do not reach. -/
inductive Nests : List Tree → List Event → List Tree → Prop
  | nil {inner : List Tree} : Nests inner [] inner
  | enter {tree : Tree} {inner final : List Tree} {events : List Event} (rest : Nests (tree :: inner) events final) :
      Nests inner (.enter tree :: events) final
  | leave {tree : Tree} {inner final : List Tree} {events : List Event} (rest : Nests inner events final) :
      Nests (tree :: inner) (.leave tree :: events) final

namespace Nests

theorem append {inner middle final : List Tree} {first second : List Event} (left : Nests inner first middle)
    (right : Nests middle second final) : Nests inner (first ++ second) final := by
  induction left with
  | nil => exact right
  | enter rest ih => exact .enter (ih right)
  | leave rest ih => exact .leave (ih right)

/-- Events in nested order can be cut anywhere. -/
theorem cut {inner final : List Tree} {early late : List Event} (nests : Nests inner (early ++ late) final) :
    ∃ middle, Nests inner early middle ∧ Nests middle late final := by
  induction early generalizing inner with
  | nil => exact ⟨inner, .nil, nests⟩
  | cons event early ih =>
    cases nests with
    | enter rest =>
      obtain ⟨middle, first, second⟩ := ih rest
      exact ⟨middle, .enter first, second⟩
    | leave rest =>
      obtain ⟨middle, first, second⟩ := ih rest
      exact ⟨middle, .leave first, second⟩

mutual
/-- The walk of a tree is in nested order, and it closes all nodes that it opens. -/
theorem walk (inner : List Tree) (tree : Tree) : Nests inner tree.events inner := by
  cases tree with
  | mk form children =>
    rw [Tree.events]
    exact .enter ((walkAll _ children).append (.leave .nil))

theorem walkAll (inner : List Tree) (trees : List Tree) : Nests inner (Tree.allEvents trees) inner := by
  cases trees with
  | nil => exact .nil
  | cons tree rest =>
    rw [Tree.allEvents]
    exact (walk inner tree).append (walkAll inner rest)
end

theorem foldl_opened {inner final : List Tree} {events : List Event} (nests : Nests inner events final)
    (outer : List Tree) : events.foldl Event.opened (inner ++ outer) = final ++ outer := by
  induction nests with
  | nil => rfl
  | enter rest ih => exact ih
  | leave rest ih => exact ih

/-- At a point at which the root of a tree is open, what is left of the walk closes all nodes below the root. -/
theorem of_point {tree : Tree} {before rest : List Event} (point : tree.events = before ++ rest ++ [.leave tree])
    {inner : List Tree} (isOpen : openNodes before = inner ++ [tree]) : Nests inner rest [] := by
  cases before with
  | nil => simp [openNodes] at isOpen
  | cons event early =>
    obtain ⟨form, children⟩ := tree
    rw [Tree.events] at point
    obtain ⟨rfl, inside⟩ := List.cons.inj point
    have below : Tree.allEvents children = early ++ rest := List.append_cancel_right inside
    obtain ⟨middle, first, second⟩ := (below ▸ walkAll [] children).cut
    have same : middle ++ [⟨form, children⟩] = inner ++ [⟨form, children⟩] :=
      (first.foldl_opened [⟨form, children⟩]).symm.trans isOpen
    rwa [List.append_cancel_right same] at second

end Nests

/-! ### Counting -/

/-- Scopes that do nothing but count the nodes with a tag, one scope for each level. Leaving a node undoes what entering
    it has done. -/
structure Counter (tag : Tag) (scope : Nat → Scope) : Prop where
  enter : ∀ (state : State) (level : Nat) (below : List Scope) (tree : Tree),
    Compiler.enter ⟨state, scope level :: below⟩ tree = ⟨state, scope (level + if tree.is tag then 1 else 0) :: below⟩
  leave : ∀ (state : State) (level : Nat) (below : List Scope) (tree : Tree),
    Compiler.leave ⟨state, scope (level + if tree.is tag then 1 else 0) :: below⟩ tree = ⟨state, scope level :: below⟩

namespace Counter

theorem skip (tag : Tag) : Counter tag (.skip tag) where
  enter state level below tree := by
    rw [Compiler.enter_skip]
    cases tree.is tag <;> rfl
  leave state level below tree := by
    cases same : tree.is tag with
    | true => exact Compiler.leave_skip_nested same state level below
    | false => exact Compiler.leave_skip_away same state level below

theorem unsupported (type description : String) : Counter .body (.unsupported type description) where
  enter state level below tree := by
    simp only [Compiler.enter, Scope.enter]
    cases tree.is .body <;> rfl
  leave state level below tree := by
    cases same : tree.is .body <;> simp [Compiler.leave, Scope.leave, same]

variable {tag : Tag} {scope : Nat → Scope}

/-- Through events in nested order the level follows the number of open nodes with the tag. -/
theorem run (counter : Counter tag scope) {inner final : List Tree} {events : List Event}
    (nests : Nests inner events final) (state : State) (level : Nat) (below : List Scope) :
    Compiler.run ⟨state, scope (level + inner.countP fun node => node.is tag) :: below⟩ events =
      ⟨state, scope (level + final.countP fun node => node.is tag) :: below⟩ := by
  induction nests with
  | nil => rfl
  | @enter tree inner final events rest ih =>
    rw [List.countP_cons, ← Nat.add_assoc, ← counter.enter] at ih
    exact ih
  | @leave tree inner final events rest ih =>
    rw [List.countP_cons, ← Nat.add_assoc]
    rw [← counter.leave state _ below tree] at ih
    exact ih

/-- Whatever is in a tree, it is passed over as a whole. -/
theorem walk (counter : Counter tag scope) (state : State) (level : Nat) (below : List Scope) (tree : Tree) :
    Compiler.walk ⟨state, scope level :: below⟩ tree = ⟨state, scope level :: below⟩ := by
  rw [Compiler.walk_eq_run]
  exact counter.run (.walk [] tree) state level below

theorem walkAll (counter : Counter tag scope) (state : State) (level : Nat) (below : List Scope) (trees : List Tree) :
    Compiler.walkAll ⟨state, scope level :: below⟩ trees = ⟨state, scope level :: below⟩ := by
  rw [Compiler.walkAll_eq_run]
  exact counter.run (.walkAll [] trees) state level below

end Counter

/-! ### From a point inside a node -/

/-- From a point inside a tree on, after the events `before`, a new scope passes over the `rest` of what is below the
    root. It is the innermost scope all the time, the scopes below it stay as they are, and nothing is reported or
    noted. Its level is the number of nodes with the tag that are open below the root, and zero in the end. -/
structure PassesOver (tag : Tag) (scope : Nat → Scope) (tree : Tree) (before rest : List Event) : Prop where
  throughout : ∀ early, early <+: rest → ∃ inner, openNodes (before ++ early) = inner ++ [tree] ∧
    ∀ state below, Compiler.run ⟨state, scope 0 :: below⟩ early =
      ⟨state, scope (inner.countP fun node => node.is tag) :: below⟩
  settled : ∀ state below, Compiler.run ⟨state, scope 0 :: below⟩ rest = ⟨state, scope 0 :: below⟩

theorem Counter.passesOver {tag : Tag} {scope : Nat → Scope} (counter : Counter tag scope) {tree : Tree}
    {before rest : List Event} (point : tree.events = before ++ rest ++ [.leave tree]) {inner : List Tree}
    (isOpen : openNodes before = inner ++ [tree]) (outermost : ∀ node ∈ inner, node.is tag = false) :
    PassesOver tag scope tree before rest := by
  have nests : Nests inner rest [] := .of_point point isOpen
  have zero : (inner.countP fun node => node.is tag) = 0 := List.countP_eq_zero.mpr (by simpa using outermost)
  -- The nodes that are open at the point do not count, so a new scope is at the right level.
  have run {events : List Event} {final : List Tree} (nests : Nests inner events final) (state : State)
      (below : List Scope) := counter.run nests state 0 below
  simp only [zero, Nat.zero_add] at run
  refine ⟨?_, run nests⟩
  rintro early ⟨late, rfl⟩
  obtain ⟨middle, first, -⟩ := nests.cut
  refine ⟨middle, ?_, run first⟩
  calc openNodes (before ++ early)
      = early.foldl Event.opened (openNodes before) := List.foldl_append
    _ = middle ++ [tree] := by rw [isOpen, first.foldl_opened]

namespace Compiler

theorem leave_unsupported_end {tree : Tree} (ends : tree.is .body = true) (state : State) (type description : String)
    (below : List Scope) :
    leave ⟨state, .unsupported type description 0 :: below⟩ tree =
      deliver (state.note (.left "UnknownValueParser")) tree (.value (.atom type (.unsupported description)))
        below := by
  simp [leave, Scope.leave, ends, Scope.label]

/-- A walk goes on from any point inside it. -/
theorem walk_of_point {compiler start : Compiler} {tree : Tree} {before rest : List Event}
    (point : tree.events = before ++ rest ++ [.leave tree]) (reached : compiler.run before = start) :
    compiler.walk tree = (start.run rest).leave tree := by
  rw [walk_eq_run, point, run_append, run_append, reached]
  rfl

end Compiler

/-- Passing over ends with the right node. At any point of the walk of a tree at which the root is open, and no other
    node with the root's tag below it, let a scope be opened that passes over nodes with this tag. It passes over all
    that is still to come below the root. It closes when the root is left, without a result, so the scopes below it are
    as they were. In the same way the scope of a construct without a Java form, such as one that is opened when the body
    is entered, closes when the body is left, and hands its placeholder on. -/
theorem passing_over_ends_with_node (tag : Tag) (tree : Tree) (tagged : tree.is tag = true) (before rest : List Event)
    (point : tree.events = before ++ rest ++ [.leave tree]) (inner : List Tree)
    (isOpen : openNodes before = inner ++ [tree]) (outermost : ∀ node ∈ inner, node.is tag = false) :
    (PassesOver tag (.skip tag) tree before rest ∧
      ∀ state below,
        let closed : Compiler := ⟨state.note (.left "Skip"), below⟩
        Compiler.leave ⟨state, .skip tag 0 :: below⟩ tree = closed ∧
        ∀ compiler : Compiler, compiler.run before = ⟨state, .skip tag 0 :: below⟩ → compiler.walk tree = closed) ∧
    (tag = .body → ∀ type description,
      PassesOver .body (.unsupported type description) tree before rest ∧
      ∀ state below,
        let placeholder := Expr.atom type (.unsupported description)
        let closed := Compiler.deliver (state.note (.left "UnknownValueParser")) tree (.value placeholder) below
        Compiler.leave ⟨state, .unsupported type description 0 :: below⟩ tree = closed ∧
        ∀ compiler : Compiler, compiler.run before = ⟨state, .unsupported type description 0 :: below⟩ →
          compiler.walk tree = closed) := by
  refine ⟨?_, ?_⟩
  · have passes := (Counter.skip tag).passesOver point isOpen outermost
    refine ⟨passes, fun state below => ?_⟩
    have closes := Compiler.leave_skip_end tagged state below
    refine ⟨closes, fun compiler reached => ?_⟩
    rw [Compiler.walk_of_point point reached, passes.settled, closes]
    rfl
  · rintro rfl type description
    have passes := (Counter.unsupported type description).passesOver point isOpen outermost
    refine ⟨passes, fun state below => ?_⟩
    have closes := Compiler.leave_unsupported_end tagged state type description below
    refine ⟨closes, fun compiler reached => ?_⟩
    rw [Compiler.walk_of_point point reached, passes.settled, closes]

/-- An unknown type of a formal parameter drops a definition in which another definition is still to come, and a value
    range has bodies in it. -/
theorem passing_over_ends_with_node_nested :
    let integer : Tree := .ofType (.builtin "integer")
    let unknown : Tree := .ofType (.declared "Missing")
    let parameter : Tree := ⟨.parameter, [unknown, .ofName "p"]⟩
    let parameters : Tree := ⟨.parameterList, [parameter]⟩
    let nested := Tree.ofDefinition (.builtin "integer") "u" [] none (.ofLiteral "1")
    let definition : Tree := ⟨.definition, [integer, .ofName "t", parameters, nested]⟩
    let before : List Event :=
      [.enter definition, .enter integer, .leave integer, .enter (.ofName "t"), .leave (.ofName "t"),
        .enter parameters, .enter parameter, .enter unknown]
    let range : Tree := .ofShape ⟨.other "value range", [.ofLiteral "1", .ofElements [.ofAny]]⟩
    let compiler := Compiler.new
      { entries := [Builtin.integer.entry], builtins := [("integer", ⟨0⟩)], declared := [], constants := [] }
    let reading := compiler.run [.enter definition, .enter integer, .leave integer]
    openNodes before = [unknown, parameter, parameters] ++ [definition] ∧
      (compiler.run before).stack = [.skip .definition 0] ∧
      compiler.walk definition = ⟨(compiler.run before).state.note (.left "Skip"), []⟩ ∧
      (reading.enter range).stack.head? = some (.unsupported "INTEGER" "value range" 0) ∧
      (reading.walk range).stack =
        [.definition { type := some "INTEGER", value := some (.atom "INTEGER" (.unsupported "value range")) }
          (some ⟨0⟩) false] := by
  intro integer unknown parameter parameters nested definition before range compiler reading
  have dropped := passing_over_ends_with_node .definition definition rfl before
    (.leave unknown :: (Tree.ofName "p").events ++ [.leave parameter, .leave parameters] ++ nested.events) rfl
    [unknown, parameter, parameters] rfl (by decide)
  have replaced := passing_over_ends_with_node .body range rfl [.enter range] (Tree.allEvents range.children) rfl [] rfl
    (by simp)
  refine ⟨rfl, rfl, (dropped.1.2 _ _).2 compiler rfl, rfl, ?_⟩
  rw [((replaced.2 rfl "INTEGER" "value range").2 _ _).2 reading rfl]
  rfl

end TtcnTemplates
