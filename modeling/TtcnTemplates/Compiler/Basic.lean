import TtcnTemplates.Compiler.Enter
import TtcnTemplates.Compiler.Leave

/-! # The compiler

The compiler is told of every node twice: when it is entered and when it is left. It keeps a stack of scopes; where
the stack is empty, a definition opens one. A fault drops the definition that is being read: it is reported, and
what is left of the definition is passed over.
-/

namespace TtcnTemplates

/-- The shared state and the open scopes, the innermost first. -/
structure Compiler where
  state : State
  stack : List Scope := []
deriving Repr

namespace Compiler

/-- The compiler of a module with the given symbols. -/
def new (symbols : Symbols) : Compiler := { state := { symbols } }

/-- Drops the definition that is being read. Its rest is passed over, unless its end is just being left. -/
def recover (state : State) (fault : Fault) (atEnd : Bool) : Compiler where
  state := (state.fail fault).clear
  stack := if atEnd then [] else [.skip .definition 0]

/-- Enters a node where no scope is open. -/
def enterRoot (state : State) (tree : Tree) : Compiler :=
  match tree.form with
  | .module name => { state := state.setName name }
  | .definition =>
    let scope := Scope.definition {} none false
    { state := state.clear.note (.entered scope.label tree.tag), stack := [scope] }
  | _ => { state }

/-- Enters a node. -/
def enter (compiler : Compiler) (tree : Tree) : Compiler :=
  match compiler.stack with
  | [] => enterRoot compiler.state tree
  | scope :: below =>
    match scope.enter compiler.state tree with
    | .ok ⟨state, scope, none⟩ => ⟨state, scope :: below⟩
    | .ok ⟨state, scope, some opened⟩ =>
      ⟨state.note (.entered opened.label tree.tag), opened :: scope :: below⟩
    | .error fault => recover compiler.state fault false

/-- Hands what a closed scope yields to the scope below it, or registers it as a template where there is none. -/
def deliver (state : State) (tree : Tree) (result : Yield) : List Scope → Compiler
  | [] =>
    match result with
    | .template template => { state := state.register template }
    | _ => recover state (.unexpected result.text) true
  | parent :: below =>
    match parent.accept state result with
    | .ok (state, parent) => ⟨state, parent :: below⟩
    | .error fault => recover state fault (tree.is .definition)

/-- Leaves a node. -/
def leave (compiler : Compiler) (tree : Tree) : Compiler :=
  match compiler.stack with
  | [] => compiler
  | scope :: below =>
    match scope.leave compiler.state tree with
    | .ok (state, .stay scope) => ⟨state, scope :: below⟩
    | .ok (state, .close none) => ⟨state.note (.left scope.label), below⟩
    | .ok (state, .close (some result)) => deliver (state.note (.left scope.label)) tree result below
    | .error fault => recover compiler.state fault (tree.is .definition)

mutual
/-- Enters and leaves a tree's root and, in between, everything below it. -/
def walk (compiler : Compiler) : Tree → Compiler
  | ⟨form, children⟩ => (walkAll (compiler.enter ⟨form, children⟩) children).leave ⟨form, children⟩

/-- Walks trees in order. -/
def walkAll (compiler : Compiler) : List Tree → Compiler
  | [] => compiler
  | tree :: rest => walkAll (walk compiler tree) rest
end

/-- Ends the compilation. It is noted where scopes are still open. -/
def finish (compiler : Compiler) : State :=
  if compiler.stack.isEmpty then compiler.state
  else compiler.state.note (.unfinished (compiler.stack.reverse.map Scope.label))

end Compiler

/-- Compiles a module. The result holds the registry and the log. -/
def compile (symbols : Symbols) (tree : Tree) : State := ((Compiler.new symbols).walk tree).finish

end TtcnTemplates
