import Assay.Artifact
import Assay.Catalog
import Assay.Config.Arguments
import Assay.Config.Defaults
import Assay.Config.Error
import Assay.Config.Resolve
import Assay.Definition
import Assay.Disk
import Assay.Examples
import Assay.Failure
import Assay.Focal.Query
import Assay.Focal.Usage
import Assay.Generate
import Assay.Hash.Sha256
import Assay.Identity
import Assay.Journal
import Assay.Json.Parse
import Assay.Json.Value
import Assay.Main
import Assay.Path
import Assay.Process
import Assay.Program
import Assay.Prompt.Assemble
import Assay.Prompt.Conversation
import Assay.Proofs.Repair.Budget
import Assay.Proofs.Repair.Course
import Assay.Proofs.Repair.Followups
import Assay.Proofs.TestRun.Silence
import Assay.Proofs.Text.Blank
import Assay.Random.Sample
import Assay.Random.Stream
import Assay.Repair.Action
import Assay.Repair.Loop
import Assay.Service.Account
import Assay.Service.Exchange
import Assay.Service.GenerationError
import Assay.Service.Provider
import Assay.Shell.Run
import Assay.Shell.Script
import Assay.Shell.State
import Assay.Shell.Tools
import Assay.Source.File
import Assay.Source.Import
import Assay.Source.Load
import Assay.Source.Module
import Assay.Source.Package
import Assay.Syntax.Draft
import Assay.Syntax.Fault
import Assay.Syntax.Grammar.Declarations
import Assay.Syntax.Grammar.Expressions
import Assay.Syntax.Grammar.Goal
import Assay.Syntax.Grammar.Statements
import Assay.Syntax.Grammar.Types
import Assay.Syntax.Lexer
import Assay.Syntax.Parse
import Assay.Syntax.Reader
import Assay.Syntax.Token
import Assay.Syntax.Tree
import Assay.TestFile.Braces
import Assay.TestFile.Declared
import Assay.TestFile.Patch
import Assay.TestFile.Save
import Assay.TestFile.Stale
import Assay.TestPath
import Assay.TestRun.Diagnostics
import Assay.TestRun.GoTool
import Assay.TestRun.Invocation
import Assay.TestRun.Verdict
import Assay.Text.Blank
import Assay.Text.Digit
import Assay.Text.Identifier
import Assay.Text.LineDiff
import Assay.Text.Lines
import Assay.Text.Lower
import Assay.Text.Numeral
import Assay.Text.Ranges
import Assay.Text.Search
import Assay.Text.Utf8
import Assay.Text.Word
import Assay.Toml.Document
import Assay.Toml.Item
import Assay.Toml.Quoted
import Assay.Toml.Scalar
import Assay.Toml.Space
import Assay.Typing.Context
import Assay.Typing.Inference
import Assay.Typing.Member
import Assay.Typing.Scope
import Assay.Proofs.Syntax.Reading
import Assay.Proofs.Syntax.Productions
import Assay.Proofs.Text.Identifier
import Assay.Proofs.Syntax.Tiling
import Assay.Proofs.Syntax.TopLevel
import Assay.Proofs.Text.Rows
import Assay.Proofs.Disk
import Assay.Proofs.Path
import Assay.Proofs.TestFile.Cut
import Assay.Proofs.TestFile.Spans
import Assay.Proofs.TestFile.Unrelated
import Assay.Proofs.TestFile.Braces
import Assay.Proofs.TestFile.Again
import Assay.Proofs.Catalog
import Assay.Proofs.Focal.Levels
import Assay.Proofs.Focal.Naming
import Assay.Proofs.Focal.Origin
import Assay.Proofs.Focal.Reach
import Assay.Proofs.Repair.Saves
import Assay.Proofs.Repair.Cancellation
import Assay.Proofs.Typing.Declared
import Assay.Proofs.Identity
import Assay.Proofs.Focal.Bare
import Assay.Proofs.Focal.Blind
import Assay.Proofs.TestFile.Layout
import Assay.Proofs.TestFile.NormalForm
import Assay.Proofs.Typing.Nearest
import Assay.Proofs.Source.Directories
import Assay.Proofs.Source.Packages
import Assay.Proofs.Prompt.Decode
import Assay.Proofs.Syntax.Clauses
import Assay.Proofs.Focal.Direct
import Assay.Proofs.Syntax.Joining
import Assay.Proofs.Typing.Existence
import Assay.Proofs.Typing.Members
import Assay.Proofs.Focal.Shadowing
import Assay.Proofs.TestFile.Clauses
import Assay.Proofs.Typing.Budget
import Assay.Proofs.TestFile.Blocks
import Assay.Proofs.TestFile.Removal
import Assay.Proofs.Source.Values
import Assay.Proofs.Focal.Interfaces
import Assay.Proofs.Fence
import Assay.Proofs.Random.Sample
import Assay.Proofs.TestPath
import Assay.Proofs.Examples
import Assay.Proofs.Prompt.Groups
import Assay.Proofs.TestRun.Failures
import Assay.Proofs.Source.Faults
import Assay.Proofs.Focal.Choice
import Assay.Proofs.TestFile.Counts
import Assay.Proofs.Config
import Assay.Proofs.Focal.Keys
import Assay.Proofs.Source.ModulePath
