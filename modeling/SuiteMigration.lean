import SuiteMigration.Action.Basic
import SuiteMigration.Action.Binding
import SuiteMigration.Action.Element
import SuiteMigration.Action.Extraction
import SuiteMigration.Action.StepDefinition
import SuiteMigration.Assoc
import SuiteMigration.Cli.Arguments
import SuiteMigration.Cli.Program
import SuiteMigration.Cli.Report
import SuiteMigration.Cli.Stamp
import SuiteMigration.Cli.Workplace
import SuiteMigration.Commit.Batch
import SuiteMigration.Commit.Writing
import SuiteMigration.Completion.Assistant
import SuiteMigration.Completion.Prompt
import SuiteMigration.Configuration.Basic
import SuiteMigration.Configuration.Printer
import SuiteMigration.Configuration.Reader
import SuiteMigration.Configuration.Source
import SuiteMigration.Engine
import SuiteMigration.Gherkin.Feature
import SuiteMigration.Gherkin.Parser
import SuiteMigration.Gherkin.Suite
import SuiteMigration.Git.Address
import SuiteMigration.Git.Clone
import SuiteMigration.Git.Reference
import SuiteMigration.Java.Argument
import SuiteMigration.Java.CallChain
import SuiteMigration.Java.Comment
import SuiteMigration.Java.Delimiter
import SuiteMigration.Java.Header
import SuiteMigration.Java.Literal
import SuiteMigration.Java.Outline
import SuiteMigration.Java.Region
import SuiteMigration.Java.Signature
import SuiteMigration.Java.Statement
import SuiteMigration.Json
import SuiteMigration.Keyword.Name
import SuiteMigration.Keyword.Pattern
import SuiteMigration.Keyword.StepCall
import SuiteMigration.Main
import SuiteMigration.Mode
import SuiteMigration.Path.Classification
import SuiteMigration.Path.FileName
import SuiteMigration.Path.Layout
import SuiteMigration.Path.Wildcard
import SuiteMigration.Reading.Limiter
import SuiteMigration.Reading.Pool
import SuiteMigration.Repository.Basic
import SuiteMigration.Repository.Command
import SuiteMigration.Repository.Error
import SuiteMigration.Repository.Faults
import SuiteMigration.Repository.Store
import SuiteMigration.Resource.Context
import SuiteMigration.Resource.Heuristic
import SuiteMigration.Resource.Locators
import SuiteMigration.Resource.PageObject
import SuiteMigration.Resource.Placeholder
import SuiteMigration.Resource.Steps
import SuiteMigration.Resource.Utility
import SuiteMigration.Robot.ActionRow
import SuiteMigration.Robot.Argument
import SuiteMigration.Robot.Cell
import SuiteMigration.Robot.File
import SuiteMigration.Robot.Line
import SuiteMigration.Robot.Marker
import SuiteMigration.Robot.Refresh
import SuiteMigration.Robot.Validation
import SuiteMigration.Role
import SuiteMigration.Run.Discovery
import SuiteMigration.Run.Execution
import SuiteMigration.Run.Json
import SuiteMigration.Run.Phase
import SuiteMigration.Run.Request
import SuiteMigration.Run.Result
import SuiteMigration.Run.Session
import SuiteMigration.Run.Transformation
import SuiteMigration.Skeleton
import SuiteMigration.Text.Basic
import SuiteMigration.Text.Case
import SuiteMigration.Text.Character
import SuiteMigration.Text.Chars
import SuiteMigration.Text.Decimal
import SuiteMigration.Text.Occurrence
import SuiteMigration.Text.Quoted
import SuiteMigration.Text.Table
import SuiteMigration.Text.Table.Alphabetic
import SuiteMigration.Text.Table.CaseMap
import SuiteMigration.Text.Table.Cased
import SuiteMigration.Text.Table.Connector
import SuiteMigration.Text.Table.Numeric
import SuiteMigration.Text.Table.Unprintable
import SuiteMigration.Toml.Document
import SuiteMigration.Toml.Number
import SuiteMigration.Toml.Quoted
import SuiteMigration.Toml.Value
import SuiteMigration.Proofs.Run.Frame
import SuiteMigration.Proofs.Action.Coverage
import SuiteMigration.Proofs.Assoc
import SuiteMigration.Proofs.Run.ResultTable
import SuiteMigration.Proofs.Commit.Batching
import SuiteMigration.Proofs.Reading.Completion
import SuiteMigration.Proofs.Reading.Schedule
import SuiteMigration.Proofs.Reading.Spacing
import SuiteMigration.Proofs.Reading.Independence
import SuiteMigration.Proofs.Repository.Faults
import SuiteMigration.Proofs.Run.Phases
import SuiteMigration.Proofs.Run.Conservation
import SuiteMigration.Proofs.Text.Occurrence
import SuiteMigration.Proofs.Keyword.Resolution
import SuiteMigration.Proofs.Repository.Store
import SuiteMigration.Proofs.Run.StoreRun
import SuiteMigration.Proofs.Run.CommittedContent
import SuiteMigration.Proofs.Run.Completion
import SuiteMigration.Proofs.Text.Case
import SuiteMigration.Proofs.Skeleton
import SuiteMigration.Proofs.Commit.LastBatch
import SuiteMigration.Proofs.Commit.Outcomes
import SuiteMigration.Proofs.Run.ProjectImports
import SuiteMigration.Proofs.Java.Delimiter
import SuiteMigration.Proofs.Java.Declaration
import SuiteMigration.Proofs.Java.Annotation
import SuiteMigration.Proofs.Action.StepRoundTrip
import SuiteMigration.Proofs.Run.Confinement
import SuiteMigration.Proofs.Run.Step
import SuiteMigration.Proofs.Run.DryRun
import SuiteMigration.Proofs.Run.Forecast
import SuiteMigration.Proofs.Text.Lines
import SuiteMigration.Proofs.Robot.Marker
import SuiteMigration.Proofs.Robot.TierHistory
import SuiteMigration.Proofs.Robot.HeaderRefresh
import SuiteMigration.Proofs.Robot.Rewriting
import SuiteMigration.Proofs.Robot.Reapplication
import SuiteMigration.Proofs.Completion.Usage
import SuiteMigration.Proofs.Java.Statement
import SuiteMigration.Proofs.Repository.History
import SuiteMigration.Proofs.Path.Imports
import SuiteMigration.Proofs.Java.Step
import SuiteMigration.Proofs.Java.Uncommented
import SuiteMigration.Proofs.Java.Members
import SuiteMigration.Proofs.Java.TypeSearch
import SuiteMigration.Proofs.Java.CommentRemoval
import SuiteMigration.Proofs.Java.NestedOutline
import SuiteMigration.Proofs.Action.PlainActions
import SuiteMigration.Proofs.Java.JoinedArguments
import SuiteMigration.Proofs.Java.MethodNames
import SuiteMigration.Proofs.Robot.Rendering
import SuiteMigration.Proofs.Keyword.UniqueNames
import SuiteMigration.Proofs.Keyword.StepNames
import SuiteMigration.Proofs.Robot.RowCells
import SuiteMigration.Proofs.Gherkin.CallLines
import SuiteMigration.Proofs.Gherkin.Expansion
import SuiteMigration.Proofs.Gherkin.Sections
import SuiteMigration.Proofs.Gherkin.StepsKept
import SuiteMigration.Proofs.Gherkin.TableColumns
import SuiteMigration.Proofs.Keyword.AlikeNames
import SuiteMigration.Proofs.Robot.Cell
import SuiteMigration.Proofs.Path.TargetPath
import SuiteMigration.Proofs.Path.Wildcard
import SuiteMigration.Proofs.Run.DiscoveredPaths
import SuiteMigration.Proofs.Run.Progress
import SuiteMigration.Proofs.Robot.HiddenHeader
import SuiteMigration.Proofs.Robot.BodyLines
import SuiteMigration.Proofs.Robot.ByteOrderMark
import SuiteMigration.Proofs.Robot.IssueCount
import SuiteMigration.Proofs.Robot.RecordedReport
import SuiteMigration.Proofs.Robot.TitleRow
import SuiteMigration.Proofs.Gherkin.SuiteTitle
import SuiteMigration.Proofs.Java.ArgumentPieces
import SuiteMigration.Proofs.Keyword.PlainPattern
import SuiteMigration.Proofs.Java.CallChain
import SuiteMigration.Proofs.Action.InlineLocator
import SuiteMigration.Proofs.Java.Concatenation
import SuiteMigration.Proofs.Robot.Argument
import SuiteMigration.Proofs.Robot.Operands
import SuiteMigration.Proofs.Robot.JoinedCells
import SuiteMigration.Proofs.Robot.Concatenation
import SuiteMigration.Proofs.Keyword.ConstantNames
import SuiteMigration.Proofs.Regeneration
import SuiteMigration.Proofs.Robot.LeakPatterns
import SuiteMigration.Proofs.Robot.ValidityRule
import SuiteMigration.Proofs.Robot.ActionKeywords
import SuiteMigration.Proofs.Robot.AuthoredLines
import SuiteMigration.Proofs.Completion.Fences
import SuiteMigration.Proofs.Java.Balance
import SuiteMigration.Proofs.Action.LocalElements
import SuiteMigration.Proofs.Java.BodyStatements
import SuiteMigration.Proofs.Java.InPlace.Scan
import SuiteMigration.Proofs.Java.InPlace.Header
import SuiteMigration.Proofs.Java.InPlace.Outline
import SuiteMigration.Proofs.Action.InPlace.Element
import SuiteMigration.Proofs.Action.InPlace.Extraction
