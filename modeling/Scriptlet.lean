import Scriptlet.CommandLine
import Scriptlet.Diagnostic
import Scriptlet.Grammar.Cursor
import Scriptlet.Grammar.Expression
import Scriptlet.Grammar.Fault
import Scriptlet.Grammar.Program
import Scriptlet.Grammar.Rule
import Scriptlet.Grammar.Statement
import Scriptlet.Location
import Scriptlet.Main
import Scriptlet.Number.Binary
import Scriptlet.Number.Decimal
import Scriptlet.Number.Integral
import Scriptlet.Number.Reading
import Scriptlet.Phase
import Scriptlet.Resolution.Analysis
import Scriptlet.Resolution.Basic
import Scriptlet.Resolution.ClassFacts
import Scriptlet.Resolution.Expression
import Scriptlet.Resolution.Fault
import Scriptlet.Resolution.Statement
import Scriptlet.Run.Call
import Scriptlet.Run.Evaluate
import Scriptlet.Run.Fault
import Scriptlet.Run.Machine
import Scriptlet.Run.Name
import Scriptlet.Run.Native
import Scriptlet.Run.Property
import Scriptlet.Session.Basic
import Scriptlet.Session.Fault
import Scriptlet.Table
import Scriptlet.Text.CodeRange
import Scriptlet.Text.Extending
import Scriptlet.Text.Quoted
import Scriptlet.Text.Unprinted
import Scriptlet.Token.Atom
import Scriptlet.Token.Basic
import Scriptlet.Token.Kind
import Scriptlet.Token.Piece
import Scriptlet.Token.Registry
import Scriptlet.Token.Standard
import Scriptlet.Token.Trie
import Scriptlet.Tree.Expr
import Scriptlet.Tree.Operator
import Scriptlet.Tree.Statement
import Scriptlet.Value.Basic
import Scriptlet.Value.Native
import Scriptlet.Value.Operation
import Scriptlet.Value.Store
import Scriptlet.Value.Text
import Scriptlet.Proofs.Lexical.Binding
import Scriptlet.Proofs.Run.Frame
import Scriptlet.Proofs.Outcome
import Scriptlet.Proofs.Run.Jump
import Scriptlet.Proofs.Lexical.Standing
import Scriptlet.Proofs.Lexical.Fitting
import Scriptlet.Proofs.Lexical.Soundness
import Scriptlet.Proofs.Run.Upholding
import Scriptlet.Proofs.Run.Primitive
import Scriptlet.Proofs.Run.Declaring
import Scriptlet.Proofs.Run.Calling
import Scriptlet.Proofs.Run.Safety
import Scriptlet.Proofs.Run.History
import Scriptlet.Proofs.Resolution.Later
import Scriptlet.Proofs.Resolution.Walk
import Scriptlet.Proofs.Resolution.StatementWalk
import Scriptlet.Proofs.Resolution.Reflecting
import Scriptlet.Proofs.Resolution.Coverage
import Scriptlet.Proofs.Resolution.Visiting
import Scriptlet.Proofs.Resolution.Mention
import Scriptlet.Proofs.ScopeMirror
import Scriptlet.Proofs.BoundLocals
import Scriptlet.Proofs.Finality
import Scriptlet.Proofs.ControlFlow
import Scriptlet.Proofs.Run.Leading
import Scriptlet.Proofs.Run.Regime
import Scriptlet.Proofs.Run.Growing
import Scriptlet.Proofs.Run.FieldHistory
import Scriptlet.Proofs.Run.Making
import Scriptlet.Proofs.Run.Tidiness
import Scriptlet.Proofs.Run.Housing
import Scriptlet.Proofs.Run.Owners
import Scriptlet.Proofs.WriteOnce
import Scriptlet.Proofs.Session.Plan
import Scriptlet.Proofs.SessionProtocol
import Scriptlet.Proofs.Lexical.Naming
import Scriptlet.Proofs.Resolution.Posting
import Scriptlet.Proofs.Run.Receiving
import Scriptlet.Proofs.OwnerMirror
import Scriptlet.Proofs.Receivers
import Scriptlet.Proofs.FinalMethods
import Scriptlet.Proofs.FieldRefusals
import Scriptlet.Proofs.Token.Bindings
import Scriptlet.Proofs.MaximalMunch
import Scriptlet.Proofs.Session.Abreast
import Scriptlet.Proofs.SourcePieces
import Scriptlet.Proofs.CallDepth
import Scriptlet.Proofs.Grammar.Proper
import Scriptlet.Proofs.LastReport
import Scriptlet.Proofs.Rerun.Atop
import Scriptlet.Proofs.Rerun.Echoing
import Scriptlet.Proofs.Restart
import Scriptlet.Proofs.RetriedResolve
import Scriptlet.Proofs.Grammar.RoundTrip
import Scriptlet.Proofs.Grammar.Conservativity
import Scriptlet.Proofs.Isolation
import Scriptlet.Proofs.Token.Granting
import Scriptlet.Proofs.CustomKinds
import Scriptlet.Proofs.TokenStream
import Scriptlet.Proofs.Excerpt
import Scriptlet.Proofs.Carets
import Scriptlet.Proofs.EarlyUse
import Scriptlet.Proofs.StringLiterals
import Scriptlet.Proofs.Token.Numerals
import Scriptlet.Proofs.Relexing
import Scriptlet.Proofs.Grammar.Progress
import Scriptlet.Proofs.Grammar.StatementProgress
import Scriptlet.Proofs.Grammar.Elements
import Scriptlet.Proofs.Grammar.Building
import Scriptlet.Proofs.Grammar.BuiltExpressions
import Scriptlet.Proofs.Grammar.BuiltStatements
import Scriptlet.Proofs.WellFormed
import Scriptlet.Proofs.OverloadChoice
import Scriptlet.Proofs.Run.Silent
import Scriptlet.Proofs.Run.Coupling
import Scriptlet.Proofs.Run.Continuing
import Scriptlet.Proofs.ClassHistory
import Scriptlet.Proofs.SealedClasses
import Scriptlet.Proofs.Bookkeeping
import Scriptlet.Proofs.TestLog
import Scriptlet.Proofs.Unfolding
import Scriptlet.Proofs.Balance
import Scriptlet.Proofs.Run.Initializing
import Scriptlet.Proofs.ClassChains
