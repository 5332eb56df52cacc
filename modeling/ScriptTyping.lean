import ScriptTyping.Checking.Expr
import ScriptTyping.Checking.Rules
import ScriptTyping.Checking.Script
import ScriptTyping.Checking.Stmt
import ScriptTyping.Diagnostic
import ScriptTyping.Diagnostic.Emitter
import ScriptTyping.Diagnostic.Snippet
import ScriptTyping.Fault
import ScriptTyping.Log
import ScriptTyping.Operator
import ScriptTyping.Outline
import ScriptTyping.Run
import ScriptTyping.Session
import ScriptTyping.Span
import ScriptTyping.SymbolTable
import ScriptTyping.Text.Blank
import ScriptTyping.Text.CharClass
import ScriptTyping.Text.DefaultIgnorable
import ScriptTyping.Text.EastAsianWide
import ScriptTyping.Text.GraphemeExtend
import ScriptTyping.Text.Line
import ScriptTyping.Text.Width
import ScriptTyping.Tree
import ScriptTyping.Tree.Expr
import ScriptTyping.Tree.Script
import ScriptTyping.Tree.Stmt
import ScriptTyping.Ty
import ScriptTyping.Violation
import ScriptTyping.Proofs.Nodes
import ScriptTyping.Proofs.Failures
import ScriptTyping.Proofs.Judgement
import ScriptTyping.Proofs.CleanRun
import ScriptTyping.Proofs.Resolution
import ScriptTyping.Proofs.Erasure
import ScriptTyping.Proofs.Degradation
import ScriptTyping.Proofs.Replay
import ScriptTyping.Proofs.Poisoning
import ScriptTyping.Proofs.Reannotation
import ScriptTyping.Proofs.FinalTable
import ScriptTyping.Proofs.Edits
import ScriptTyping.Proofs.Locality
import ScriptTyping.Proofs.Independence
import ScriptTyping.Proofs.Canonical
import ScriptTyping.Proofs.Renaming
import ScriptTyping.Proofs.ExprReading
import ScriptTyping.Proofs.Readability
import ScriptTyping.Proofs.Parentheses
import ScriptTyping.Proofs.SessionGrowth
import ScriptTyping.Proofs.Layout
import ScriptTyping.Proofs.OutlineQueries
import ScriptTyping.Proofs.RootCauses
import ScriptTyping.Proofs.Flattening
import ScriptTyping.Proofs.Coherence
import ScriptTyping.Proofs.InternedTable
import ScriptTyping.Proofs.DocumentOrder
import ScriptTyping.Proofs.SpanNesting
import ScriptTyping.Proofs.LogOutput
import ScriptTyping.Proofs.LineByLine
