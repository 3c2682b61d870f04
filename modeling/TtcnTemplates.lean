import TtcnTemplates.Compiler.Basic
import TtcnTemplates.Compiler.Body
import TtcnTemplates.Compiler.Enter
import TtcnTemplates.Compiler.Leave
import TtcnTemplates.Compiler.Scope
import TtcnTemplates.Compiler.State
import TtcnTemplates.Expr.Basic
import TtcnTemplates.Expr.Source
import TtcnTemplates.Expr.Write
import TtcnTemplates.Literal.Basic
import TtcnTemplates.Literal.Reader
import TtcnTemplates.Log
import TtcnTemplates.Output.Disk
import TtcnTemplates.Output.Generate
import TtcnTemplates.Output.Options
import TtcnTemplates.Output.Path
import TtcnTemplates.Output.Store
import TtcnTemplates.Proofs.AssignmentOrder
import TtcnTemplates.Proofs.Attribution
import TtcnTemplates.Proofs.BaseCalls
import TtcnTemplates.Proofs.Bodies
import TtcnTemplates.Proofs.CharStrings
import TtcnTemplates.Proofs.ClassNames
import TtcnTemplates.Proofs.Comments
import TtcnTemplates.Proofs.Containment
import TtcnTemplates.Proofs.Context
import TtcnTemplates.Proofs.DeclarationOrder
import TtcnTemplates.Proofs.Derivation
import TtcnTemplates.Proofs.Effect
import TtcnTemplates.Proofs.Formation
import TtcnTemplates.Proofs.Grammar
import TtcnTemplates.Proofs.Holdings
import TtcnTemplates.Proofs.Indentation
import TtcnTemplates.Proofs.Independence
import TtcnTemplates.Proofs.Lexical
import TtcnTemplates.Proofs.Lifetime
import TtcnTemplates.Proofs.ListNotation
import TtcnTemplates.Proofs.MemoryOutput
import TtcnTemplates.Proofs.Modules
import TtcnTemplates.Proofs.OptionCalls
import TtcnTemplates.Proofs.Placeholders
import TtcnTemplates.Proofs.Placement
import TtcnTemplates.Proofs.Readability
import TtcnTemplates.Proofs.Recovery
import TtcnTemplates.Proofs.Registration
import TtcnTemplates.Proofs.Replay
import TtcnTemplates.Proofs.Simulation
import TtcnTemplates.Proofs.Skipping
import TtcnTemplates.Proofs.SourceTokens
import TtcnTemplates.Proofs.Stack
import TtcnTemplates.Proofs.Translation
import TtcnTemplates.Proofs.Turns
import TtcnTemplates.Proofs.Typing
import TtcnTemplates.Proofs.Validity
import TtcnTemplates.Proofs.Writing
import TtcnTemplates.Template.Basic
import TtcnTemplates.Template.Diagnostic
import TtcnTemplates.Template.Registry
import TtcnTemplates.Template.Source
import TtcnTemplates.Template.Write
import TtcnTemplates.Text.Characters
import TtcnTemplates.Text.Lowercase
import TtcnTemplates.Text.Utf8
import TtcnTemplates.Text.Writing
import TtcnTemplates.Tree.Basic
import TtcnTemplates.Tree.Build
import TtcnTemplates.Types.Basic
import TtcnTemplates.Types.Declarations
import TtcnTemplates.Types.Symbols
