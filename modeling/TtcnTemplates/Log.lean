import TtcnTemplates.Template.Diagnostic
import TtcnTemplates.Tree.Basic

/-! # The log

What is done is noted step by step. Each notice has a level and a wording.
-/

namespace TtcnTemplates

/-- How much a notice matters. -/
inductive Level where
  | error
  | warning
  | info
  | debug
deriving DecidableEq, Repr

/-- The name of a level. -/
def Level.text : Level → String
  | .error => "ERROR"
  | .warning => "WARN"
  | .info => "INFO"
  | .debug => "DEBUG"

/-- Something that is noted. -/
inductive Notice where
  /-- A scope is opened at a node. -/
  | entered (scope : String) (tag : Tag)
  /-- A scope is closed. -/
  | left (scope : String)
  /-- A body of the given shape is read at a type. -/
  | reading (shape : Option Tag) (type : String)
  /-- A template is registered. -/
  | registered (template : String)
  /-- A second element list of one body is skipped. -/
  | repeatedList (type : String)
  /-- A fault drops the current template. -/
  | failed (template : Option String) (fault : Fault)
  /-- A remark is made on the current template. -/
  | remarked (template : Option String) (remark : Remark)
  /-- The nodes end while the given scopes are open, the outermost first. -/
  | unfinished (scopes : List String)
  /-- A module is written although a diagnostic was reported for it. -/
  | reported (name : Option String) (diagnostic : Diagnostic)
  /-- The source of so many templates goes to a file. -/
  | writing (count : Nat) (path : String)
  /-- A file is created. -/
  | creating (path : String)
deriving DecidableEq, Repr

namespace Notice

/-- The level of a notice. -/
def level : Notice → Level
  | .failed _ _ => .error
  | .remarked _ _ => .warning
  | .unfinished _ => .warning
  | .reported _ _ => .warning
  | .writing _ _ => .info
  | _ => .debug

/-- The wording of a notice. -/
def message : Notice → String
  | .entered scope tag => "enter " ++ scope ++ " at " ++ tag.text
  | .left scope => "leave " ++ scope
  | .reading shape type => shape.elim "empty" Tag.text ++ " template of type " ++ type
  | .registered template => "registered template " ++ template
  | .repeatedList type => "skipping repeated element list of " ++ type
  | .failed template fault => template.getD "<unnamed>" ++ ": " ++ fault.message
  | .remarked template remark => template.getD "<unnamed>" ++ ": " ++ remark.message
  | .unfinished scopes => "traversal ended inside " ++ String.intercalate " > " scopes
  | .reported name diagnostic =>
    name.getD "<module>" ++ (if diagnostic.isError then ": template dropped: " else ": ") ++ diagnostic.text
  | .writing count path => "writing " ++ count.repr ++ " templates to " ++ path
  | .creating path => "creating " ++ path

end Notice

end TtcnTemplates
