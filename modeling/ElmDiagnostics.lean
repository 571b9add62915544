import ElmDiagnostics.Client.Message
import ElmDiagnostics.Decimal
import ElmDiagnostics.Diagnostic.Basic
import ElmDiagnostics.Diagnostic.FileReport
import ElmDiagnostics.Diagnostic.Store
import ElmDiagnostics.Diagnostic.Tally
import ElmDiagnostics.Failure
import ElmDiagnostics.Json
import ElmDiagnostics.Json.Printer
import ElmDiagnostics.Json.Reader
import ElmDiagnostics.Json.Token
import ElmDiagnostics.Proofs.Diagnostic.Contents
import ElmDiagnostics.Proofs.Diagnostic.Store
import ElmDiagnostics.Proofs.Publication.Board
import ElmDiagnostics.Proofs.Publication.ClientView
import ElmDiagnostics.Proofs.Publication.Scheduler
import ElmDiagnostics.Proofs.Rule.DeadCodeRemoval
import ElmDiagnostics.Proofs.Session.CompletionOrder
import ElmDiagnostics.Proofs.Session.Dialogue
import ElmDiagnostics.Proofs.Session.Ledger
import ElmDiagnostics.Proofs.Usage.NameTable
import ElmDiagnostics.Proofs.Usage.Occurrence
import ElmDiagnostics.Proofs.Usage.Reachability
import ElmDiagnostics.Proofs.Usage.ReferenceGraph
import ElmDiagnostics.Publication.Board
import ElmDiagnostics.Publication.Scheduler
import ElmDiagnostics.Publication.Service
import ElmDiagnostics.QuickFix
import ElmDiagnostics.Rule.Basic
import ElmDiagnostics.Rule.Binder
import ElmDiagnostics.Rule.DeadCode
import ElmDiagnostics.Rule.Import
import ElmDiagnostics.Rule.ListLiteral
import ElmDiagnostics.Rule.RuleSet
import ElmDiagnostics.Rule.Simplification
import ElmDiagnostics.Session.Basic
import ElmDiagnostics.Session.Simulation
import ElmDiagnostics.Settings.Basic
import ElmDiagnostics.Settings.Reader
import ElmDiagnostics.Source.FilePath
import ElmDiagnostics.Source.Position
import ElmDiagnostics.Source.Uri
import ElmDiagnostics.StableSort
import ElmDiagnostics.Syntax.Expr
import ElmDiagnostics.Syntax.Module
import ElmDiagnostics.Syntax.Name
import ElmDiagnostics.Syntax.Pattern
import ElmDiagnostics.Syntax.TypeExpr
import ElmDiagnostics.Table
import ElmDiagnostics.Text.Hex
import ElmDiagnostics.Text.Quoted
import ElmDiagnostics.Text.Visible
import ElmDiagnostics.Usage.ModuleUsage
import ElmDiagnostics.Usage.Reachability
import ElmDiagnostics.Usage.Reference
import ElmDiagnostics.Usage.Scope
import ElmDiagnostics.Workspace.Folder
import ElmDiagnostics.Workspace.Interface
import ElmDiagnostics.Workspace.Workspaces
import ElmDiagnostics.Proofs.Source.ByteOrder
import ElmDiagnostics.Proofs.Diagnostic.SlotMap
import ElmDiagnostics.Proofs.Publication.Interleaving
import ElmDiagnostics.Proofs.Rule.ListShape
import ElmDiagnostics.Proofs.Rule.Parentheses
import ElmDiagnostics.Proofs.Syntax.Position
import ElmDiagnostics.Proofs.Rule.BinderScope
import ElmDiagnostics.Proofs.Outcome
import ElmDiagnostics.Proofs.Rule.ReportCode
import ElmDiagnostics.Proofs.Workspace.Ownership
import ElmDiagnostics.Proofs.Session.Linting
import ElmDiagnostics.Proofs.Session.Step
import ElmDiagnostics.Proofs.Session.LateAnswer
import ElmDiagnostics.Proofs.Session.ExternalLinter
import ElmDiagnostics.Proofs.Session.Deletion
import ElmDiagnostics.Proofs.Session.FolderRuns
import ElmDiagnostics.Proofs.Session.LintSettings
import ElmDiagnostics.Proofs.Chronicle
import ElmDiagnostics.Proofs.Workspace.SharedNames
import ElmDiagnostics.Proofs.Workspace.Takeover
import ElmDiagnostics.Proofs.QuickFix
import ElmDiagnostics.Proofs.Publication.Timeline
import ElmDiagnostics.Proofs.Rule.FixAgreement
import ElmDiagnostics.Proofs.Publication.Coalescing
import ElmDiagnostics.Proofs.Rule.ExposedNames
import ElmDiagnostics.Proofs.Session.Reaction
import ElmDiagnostics.Proofs.Session.FailureIsolation
import ElmDiagnostics.Proofs.Syntax.Relocation
import ElmDiagnostics.Proofs.Usage.Relocation
import ElmDiagnostics.Proofs.Rule.Relocation
import ElmDiagnostics.Proofs.Publication.Replacement
import ElmDiagnostics.Proofs.Rule.Disabling
import ElmDiagnostics.Proofs.Rule.UnusedNames
import ElmDiagnostics.Proofs.Usage.NameUse
import ElmDiagnostics.Proofs.Workspace.InnermostFolder
import ElmDiagnostics.Proofs.Rule.WiderExposing
import ElmDiagnostics.Proofs.Syntax.NodePosition
import ElmDiagnostics.Proofs.Rule.RecordTypes
import ElmDiagnostics.Proofs.Rule.OpenImports
import ElmDiagnostics.Proofs.QuickFix.Spelling
import ElmDiagnostics.Proofs.Rule.ImportFixes
import ElmDiagnostics.Proofs.Settings.Independence
import ElmDiagnostics.Proofs.Usage.Traversal
import ElmDiagnostics.Proofs.Syntax.Layout
import ElmDiagnostics.Proofs.Rule.SourceOrder
import ElmDiagnostics.Proofs.Diagnostic.Comparison
