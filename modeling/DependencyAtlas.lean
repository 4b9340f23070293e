import DependencyAtlas.CallSite
import DependencyAtlas.CommandLine.Options
import DependencyAtlas.CommandLine.Run
import DependencyAtlas.Crawl.Basic
import DependencyAtlas.Crawl.Config
import DependencyAtlas.Crawl.FileRecords
import DependencyAtlas.Declaration.Method
import DependencyAtlas.Declaration.Structure
import DependencyAtlas.Export.Dot
import DependencyAtlas.Export.Format
import DependencyAtlas.Export.Json
import DependencyAtlas.Export.Tree
import DependencyAtlas.FileTree.Basic
import DependencyAtlas.FileTree.Path
import DependencyAtlas.FileTree.Write
import DependencyAtlas.FirstSeen
import DependencyAtlas.Graph.Basic
import DependencyAtlas.Graph.Query
import DependencyAtlas.Graph.Relationship
import DependencyAtlas.Language
import DependencyAtlas.Ledger.Adoption
import DependencyAtlas.Ledger.Basic
import DependencyAtlas.Ledger.Record
import DependencyAtlas.Ledger.Release
import DependencyAtlas.Main
import DependencyAtlas.Parameter
import DependencyAtlas.Parameter.Dialect
import DependencyAtlas.Pattern.Basic
import DependencyAtlas.Pattern.Library
import DependencyAtlas.Pattern.Match
import DependencyAtlas.Pattern.Reader
import DependencyAtlas.Pattern.Rule
import DependencyAtlas.Proofs.CallSite.Literals
import DependencyAtlas.Proofs.CallSite.Patterns
import DependencyAtlas.Proofs.CallSite.Sites
import DependencyAtlas.Proofs.Crawl.BreakingOff
import DependencyAtlas.Proofs.Crawl.Completeness
import DependencyAtlas.Proofs.Crawl.Invariant
import DependencyAtlas.Proofs.Crawl.Isolation
import DependencyAtlas.Proofs.Crawl.Reachability
import DependencyAtlas.Proofs.Crawl.Repetition
import DependencyAtlas.Proofs.Crawl.Run
import DependencyAtlas.Proofs.Crawl.Visit
import DependencyAtlas.Proofs.Crawl.Walk
import DependencyAtlas.Proofs.Export.Dot
import DependencyAtlas.Proofs.Export.Json
import DependencyAtlas.Proofs.Export.JsonReader
import DependencyAtlas.Proofs.Export.Tree
import DependencyAtlas.Proofs.FileTree.Lookup
import DependencyAtlas.Proofs.FileTree.Path
import DependencyAtlas.Proofs.FirstSeen
import DependencyAtlas.Proofs.Graph.AddFile
import DependencyAtlas.Proofs.Graph.CallLinks
import DependencyAtlas.Proofs.Graph.Doubling
import DependencyAtlas.Proofs.Graph.Frame
import DependencyAtlas.Proofs.Graph.Groups
import DependencyAtlas.Proofs.Graph.Mentions
import DependencyAtlas.Proofs.Graph.Merge
import DependencyAtlas.Proofs.Graph.MergeLog
import DependencyAtlas.Proofs.Graph.Ownership
import DependencyAtlas.Proofs.Graph.Placement
import DependencyAtlas.Proofs.Graph.References
import DependencyAtlas.Proofs.Graph.Refusal
import DependencyAtlas.Proofs.Graph.Stamping
import DependencyAtlas.Proofs.Graph.Sweep
import DependencyAtlas.Proofs.Graph.Tables
import DependencyAtlas.Proofs.Graph.Teardown
import DependencyAtlas.Proofs.Graph.Transfer
import DependencyAtlas.Proofs.Ledger.Building
import DependencyAtlas.Proofs.Ledger.Editing
import DependencyAtlas.Proofs.Ledger.Entering
import DependencyAtlas.Proofs.Ledger.Granting
import DependencyAtlas.Proofs.Ledger.Lookup
import DependencyAtlas.Proofs.Ledger.Nesting
import DependencyAtlas.Proofs.Ledger.Ownership
import DependencyAtlas.Proofs.Ledger.Release
import DependencyAtlas.Proofs.Ledger.Sharing
import DependencyAtlas.Proofs.Ledger.Stamping
import DependencyAtlas.Proofs.Ledger.Teardown
import DependencyAtlas.Proofs.Parameter.Declarator
import DependencyAtlas.Proofs.Parameter.Grouping
import DependencyAtlas.Proofs.Parameter.Rendering
import DependencyAtlas.Proofs.Pattern.Captures
import DependencyAtlas.Proofs.Pattern.Indentation
import DependencyAtlas.Proofs.Pattern.Keeping
import DependencyAtlas.Proofs.Pattern.Search
import DependencyAtlas.Proofs.Session
import DependencyAtlas.Proofs.SourceFile.Bodies
import DependencyAtlas.Proofs.SourceFile.Extraction
import DependencyAtlas.Proofs.SourceFile.Faults
import DependencyAtlas.Proofs.SourceFile.GroupedImports
import DependencyAtlas.Proofs.SourceFile.Indentation
import DependencyAtlas.Proofs.SourceFile.Insertion
import DependencyAtlas.Proofs.SourceFile.Methods
import DependencyAtlas.Proofs.SourceFile.Naming
import DependencyAtlas.Proofs.SourceFile.Outline
import DependencyAtlas.Proofs.SourceFile.Renumbering
import DependencyAtlas.Proofs.SourceFile.Resolution
import DependencyAtlas.Proofs.SourceFile.Scope
import DependencyAtlas.Proofs.SourceFile.Scoping
import DependencyAtlas.Proofs.Text.Spacing
import DependencyAtlas.Proofs.Text.Splitting
import DependencyAtlas.Proofs.Text.TopLevel
import DependencyAtlas.Proofs.Text.Trim
import DependencyAtlas.Proofs.Text.Word
import DependencyAtlas.Rules
import DependencyAtlas.Rules.C
import DependencyAtlas.Rules.Go
import DependencyAtlas.Rules.Java
import DependencyAtlas.Rules.JavaScript
import DependencyAtlas.Rules.Php
import DependencyAtlas.Rules.Python
import DependencyAtlas.Rules.Ruby
import DependencyAtlas.Rules.Rust
import DependencyAtlas.SourceFile.Basic
import DependencyAtlas.SourceFile.Imports
import DependencyAtlas.SourceFile.Methods
import DependencyAtlas.SourceFile.Scope
import DependencyAtlas.SourceFile.Structures
import DependencyAtlas.Text.Basic
import DependencyAtlas.Text.Line
import DependencyAtlas.Text.Lower
import DependencyAtlas.Text.Number
import DependencyAtlas.Text.Plain
import DependencyAtlas.Text.Printable
import DependencyAtlas.Text.Quoted
import DependencyAtlas.Text.TopLevel
import DependencyAtlas.Text.Utf8
import DependencyAtlas.Text.Word
