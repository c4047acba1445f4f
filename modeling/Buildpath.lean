import Buildpath.Archive.Location
import Buildpath.Check
import Buildpath.Classpath.Basic
import Buildpath.Classpath.Json
import Buildpath.CommandLine.Invocation
import Buildpath.CommandLine.Scan
import Buildpath.CommandLine.Usage
import Buildpath.Dependency
import Buildpath.Failure
import Buildpath.Files.Basic
import Buildpath.Files.Disk
import Buildpath.Files.Tree
import Buildpath.Glob.Match
import Buildpath.Glob.Pattern
import Buildpath.Json.Printer
import Buildpath.Json.Reader
import Buildpath.Json.Record
import Buildpath.Json.Value
import Buildpath.Logging.Filter
import Buildpath.Logging.Line
import Buildpath.Logging.Setup
import Buildpath.Main
import Buildpath.Path.Basic
import Buildpath.Path.Json
import Buildpath.Path.Parts
import Buildpath.Problem
import Buildpath.Program
import Buildpath.Rendering
import Buildpath.Report.Diagnostic
import Buildpath.Report.Progress
import Buildpath.Report.Traced
import Buildpath.Resolve.Assembly
import Buildpath.Resolve.Cache
import Buildpath.Resolve.Resolver
import Buildpath.Resolve.Validity
import Buildpath.Settings
import Buildpath.Text.Blank
import Buildpath.Text.Lowercase
import Buildpath.Text.Number
import Buildpath.Text.Quoted
import Buildpath.Text.Unprintable
import Buildpath.Text.Utf8
import Buildpath.Timestamp.Basic
import Buildpath.Timestamp.Text
import Buildpath.Tool.Aspect
import Buildpath.Tool.Basic
import Buildpath.Tool.Bazel
import Buildpath.Tool.Command
import Buildpath.Tool.Scripted
import Buildpath.Workspace.Index
import Buildpath.Workspace.Manifest
import Buildpath.Workspace.Module
import Buildpath.Workspace.Ownership
import Buildpath.Yaml.Cursor
import Buildpath.Yaml.Document
import Buildpath.Yaml.Lexer
import Buildpath.Yaml.Meaning
import Buildpath.Yaml.Node
import Buildpath.Yaml.Printer
import Buildpath.Yaml.Scalar
import Buildpath.Yaml.Token
import Buildpath.Proofs.Cache.Views
import Buildpath.Proofs.History
import Buildpath.Proofs.Cache.Guards
import Buildpath.Proofs.Cache.Run
import Buildpath.Proofs.Cache.Trace
import Buildpath.Proofs.Resolver.Steps
import Buildpath.Proofs.Resolver.Interleaving
import Buildpath.Proofs.Resolver.Origins
import Buildpath.Proofs.Resolver.Sections
import Buildpath.Proofs.Resolver.Stability
import Buildpath.Proofs.Resolver.Invalidation
import Buildpath.Proofs.Resolver.Imports
import Buildpath.Proofs.Assembly.Archives
import Buildpath.Proofs.Assembly.Contributions
import Buildpath.Proofs.Assembly.References
import Buildpath.Proofs.Resolver.SingleFlight
import Buildpath.Proofs.Resolver.Blur
import Buildpath.Proofs.Resolver.Omission
import Buildpath.Proofs.Resolver.Failures
import Buildpath.Proofs.Assembly.Staleness
import Buildpath.Proofs.Resolver.Independence
import Buildpath.Proofs.Tool.Queries
import Buildpath.Proofs.Tool.Runs
import Buildpath.Proofs.Tool.Recovery
import Buildpath.Proofs.Codec.Calendar
import Buildpath.Proofs.Codec.Records
import Buildpath.Proofs.Codec.Timestamps
import Buildpath.Proofs.Codec.Classpaths
import Buildpath.Proofs.Assembly.Placement
import Buildpath.Proofs.Assembly.Courses
import Buildpath.Proofs.Assembly.Flushing
import Buildpath.Proofs.Assembly.Obstacles
import Buildpath.Proofs.Resolver.Reports
import Buildpath.Proofs.Files.Writing
import Buildpath.Proofs.Program.Contract
import Buildpath.Proofs.Text.Cutting
import Buildpath.Proofs.Text.Digits
import Buildpath.Proofs.Path.Spelling
import Buildpath.Proofs.Ownership.Patterns
import Buildpath.Proofs.Ownership.Search
import Buildpath.Proofs.Ownership.Spelling
import Buildpath.Proofs.Ownership.Folders
import Buildpath.Proofs.Ownership.Sources
import Buildpath.Proofs.Files.Links
import Buildpath.Proofs.Archive.Location
import Buildpath.Proofs.Problem.Output
import Buildpath.Proofs.Tool.Validity
import Buildpath.Proofs.Assembly.ImportOrder
import Buildpath.Proofs.Path.Joining
import Buildpath.Proofs.Workspace.Runs
import Buildpath.Proofs.Workspace.Loading
import Buildpath.Proofs.Ownership.Directories
import Buildpath.Proofs.Program.Settings
import Buildpath.Proofs.Tool.Announcements
import Buildpath.Proofs.Files.Ends
import Buildpath.Proofs.Files.Listing
import Buildpath.Proofs.Files.Growth
import Buildpath.Proofs.Json.Reading
import Buildpath.Proofs.Codec.Repetitions
import Buildpath.Proofs.Rendering
import Buildpath.Proofs.Yaml.Outline
import Buildpath.Proofs.Documents
