import Scenarist.Alignment
import Scenarist.Body
import Scenarist.CallGraph
import Scenarist.CommandLine
import Scenarist.CommandLine.Arguments
import Scenarist.CommandLine.Invocation
import Scenarist.Config
import Scenarist.Config.Read
import Scenarist.Declaration
import Scenarist.Diagnostic
import Scenarist.Disk
import Scenarist.Document
import Scenarist.Document.Open
import Scenarist.Indent
import Scenarist.Index
import Scenarist.Json
import Scenarist.Keyword
import Scenarist.Main
import Scenarist.Metadata
import Scenarist.Number
import Scenarist.Path
import Scenarist.Path.Glob
import Scenarist.Project
import Scenarist.Proofs.Alignment
import Scenarist.Proofs.Alignment.Assignments
import Scenarist.Proofs.Alignment.Lines
import Scenarist.Proofs.Alignment.Tables
import Scenarist.Proofs.Batch
import Scenarist.Proofs.Body
import Scenarist.Proofs.Body.Enclosing
import Scenarist.Proofs.Body.Partition
import Scenarist.Proofs.Body.Reading
import Scenarist.Proofs.Braces
import Scenarist.Proofs.CallGraph
import Scenarist.Proofs.CallGraph.Related
import Scenarist.Proofs.Calls
import Scenarist.Proofs.Completion
import Scenarist.Proofs.Declaration
import Scenarist.Proofs.Dependence
import Scenarist.Proofs.Document
import Scenarist.Proofs.Document.Edits
import Scenarist.Proofs.Document.Position
import Scenarist.Proofs.DuplicateCodes
import Scenarist.Proofs.Frame
import Scenarist.Proofs.Guard
import Scenarist.Proofs.Idempotence
import Scenarist.Proofs.Index
import Scenarist.Proofs.Index.Cached
import Scenarist.Proofs.Index.Distinct
import Scenarist.Proofs.Index.Journal
import Scenarist.Proofs.Index.Lookup
import Scenarist.Proofs.Index.Names
import Scenarist.Proofs.Index.Overlap
import Scenarist.Proofs.Index.Withdrawal
import Scenarist.Proofs.Layout
import Scenarist.Proofs.ListItem
import Scenarist.Proofs.Memory
import Scenarist.Proofs.MissingParameters
import Scenarist.Proofs.Nested
import Scenarist.Proofs.Outcome
import Scenarist.Proofs.Parameters
import Scenarist.Proofs.Presence
import Scenarist.Proofs.Record
import Scenarist.Proofs.Refresher
import Scenarist.Proofs.Refresher.Flush
import Scenarist.Proofs.Refresher.Log
import Scenarist.Proofs.Regeneration
import Scenarist.Proofs.Renaming
import Scenarist.Proofs.Repair
import Scenarist.Proofs.Replacement
import Scenarist.Proofs.Returns
import Scenarist.Proofs.Rollback
import Scenarist.Proofs.Scalar
import Scenarist.Proofs.Scalar.Inverse
import Scenarist.Proofs.Script
import Scenarist.Proofs.Section
import Scenarist.Proofs.Section.Splice
import Scenarist.Proofs.Session
import Scenarist.Proofs.Session.Exclusion
import Scenarist.Proofs.Similarity
import Scenarist.Proofs.Step.Fill
import Scenarist.Proofs.Step.Instance
import Scenarist.Proofs.Step.Keyword
import Scenarist.Proofs.Step.MissingQuotes
import Scenarist.Proofs.StepLine
import Scenarist.Proofs.Table
import Scenarist.Proofs.Text.Blank
import Scenarist.Proofs.Text.LineEnd
import Scenarist.Proofs.Text.Lines
import Scenarist.Proofs.Text.Order
import Scenarist.Proofs.Text.Paired
import Scenarist.Proofs.Text.Plain
import Scenarist.Proofs.UnknownScenario
import Scenarist.Proofs.Vacancy
import Scenarist.Proofs.Validation
import Scenarist.Proofs.Validation.Balance
import Scenarist.Proofs.Validation.History
import Scenarist.Proofs.Validation.Placement
import Scenarist.Proofs.Validation.Steps
import Scenarist.Proofs.Workspace
import Scenarist.Proofs.Workspace.Calm
import Scenarist.Proofs.Workspace.Fresh
import Scenarist.QuickFix
import Scenarist.Record
import Scenarist.Refresher
import Scenarist.Refresher.Timeline
import Scenarist.Regeneration
import Scenarist.Repair
import Scenarist.Report
import Scenarist.Scalar
import Scenarist.Section
import Scenarist.Session
import Scenarist.Similarity
import Scenarist.Step.Catalog
import Scenarist.Step.Template
import Scenarist.StepLine
import Scenarist.Store
import Scenarist.Table
import Scenarist.Text.Basic
import Scenarist.Text.Blank
import Scenarist.Text.Case
import Scenarist.Text.CaseTable
import Scenarist.Text.CodeTable
import Scenarist.Text.Digit
import Scenarist.Text.Order
import Scenarist.Text.Utf8
import Scenarist.Text.Word
import Scenarist.Text.WordTable
import Scenarist.Uid
import Scenarist.Validation
import Scenarist.Wording
import Scenarist.Workspace
import Scenarist.Workspace.Request
import Scenarist.Yaml.Block
import Scenarist.Yaml.Char
import Scenarist.Yaml.Cursor
import Scenarist.Yaml.Kind
import Scenarist.Yaml.Node
import Scenarist.Yaml.Plain
import Scenarist.Yaml.Quoted
import Scenarist.Yaml.Read
import Scenarist.Yaml.Tag
import Scenarist.Yaml.Timestamp
import Scenarist.Yaml.Token
import Scenarist.Yaml.Value
