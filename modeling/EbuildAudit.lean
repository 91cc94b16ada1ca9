import EbuildAudit.Addon.Basic
import EbuildAudit.Addon.Cache
import EbuildAudit.Addon.Catalog
import EbuildAudit.Addon.Store
import EbuildAudit.Advisory.Index
import EbuildAudit.Ascending
import EbuildAudit.Check.Basic
import EbuildAudit.Check.Catalog
import EbuildAudit.Check.Dependency
import EbuildAudit.Check.Profiles
import EbuildAudit.Check.Python
import EbuildAudit.Check.Shell
import EbuildAudit.CommandLine.Arguments
import EbuildAudit.CommandLine.Program
import EbuildAudit.Config.Effective
import EbuildAudit.Config.Settings
import EbuildAudit.Config.Toml
import EbuildAudit.Config.Yaml
import EbuildAudit.Dependency.Atom
import EbuildAudit.Dependency.Expr
import EbuildAudit.Dependency.Reference
import EbuildAudit.Ebuild.Assignment
import EbuildAudit.Ebuild.Metadata
import EbuildAudit.FileTree
import EbuildAudit.Glob.Pattern
import EbuildAudit.Hash.Sha256
import EbuildAudit.Issue
import EbuildAudit.Json.Basic
import EbuildAudit.Json.Parser
import EbuildAudit.Main
import EbuildAudit.Package.Index
import EbuildAudit.Path
import EbuildAudit.Profile.Codec
import EbuildAudit.Profile.Data
import EbuildAudit.Profile.Load
import EbuildAudit.Proofs.Addon.Agreement
import EbuildAudit.Proofs.Addon.Awaiting
import EbuildAudit.Proofs.Addon.Caching
import EbuildAudit.Proofs.Addon.Counting
import EbuildAudit.Proofs.Addon.Filling
import EbuildAudit.Proofs.Addon.Growth
import EbuildAudit.Proofs.Addon.Layered
import EbuildAudit.Proofs.Addon.Lockstep
import EbuildAudit.Proofs.Addon.Opening
import EbuildAudit.Proofs.Addon.Persistence
import EbuildAudit.Proofs.Addon.Propagation
import EbuildAudit.Proofs.Addon.Question
import EbuildAudit.Proofs.Addon.Recomputation
import EbuildAudit.Proofs.Addon.Session
import EbuildAudit.Proofs.Addon.Standing
import EbuildAudit.Proofs.Addon.Transparency
import EbuildAudit.Proofs.Advisory.Rendering
import EbuildAudit.Proofs.Advisory.Revisions
import EbuildAudit.Proofs.Ascending
import EbuildAudit.Proofs.Basic
import EbuildAudit.Proofs.Check.Candid
import EbuildAudit.Proofs.Check.LackingFlags
import EbuildAudit.Proofs.Check.Modest
import EbuildAudit.Proofs.Check.PythonFlags
import EbuildAudit.Proofs.Check.RepoProfiles
import EbuildAudit.Proofs.Check.Summary
import EbuildAudit.Proofs.Config.RootDetection
import EbuildAudit.Proofs.Dependency.Approx
import EbuildAudit.Proofs.Dependency.Expansion
import EbuildAudit.Proofs.Dependency.Grammar
import EbuildAudit.Proofs.Dependency.NormalForm
import EbuildAudit.Proofs.Dependency.Printing
import EbuildAudit.Proofs.Dependency.Qualified
import EbuildAudit.Proofs.Dependency.Tidying
import EbuildAudit.Proofs.Dependency.UseDep
import EbuildAudit.Proofs.Ebuild.Assignments
import EbuildAudit.Proofs.Ebuild.Quoting
import EbuildAudit.Proofs.FileTree
import EbuildAudit.Proofs.Glob.Pattern
import EbuildAudit.Proofs.Json.Lines
import EbuildAudit.Proofs.Json.Record
import EbuildAudit.Proofs.Json.RoundTrip
import EbuildAudit.Proofs.Json.Scalars
import EbuildAudit.Proofs.Package.Agreement
import EbuildAudit.Proofs.Package.Entries
import EbuildAudit.Proofs.Package.Index
import EbuildAudit.Proofs.Parent
import EbuildAudit.Proofs.Path
import EbuildAudit.Proofs.Profile.Directory
import EbuildAudit.Proofs.Profile.Eapi
import EbuildAudit.Proofs.Profile.Relative
import EbuildAudit.Proofs.Profile.Stack
import EbuildAudit.Proofs.Registry.Planning
import EbuildAudit.Proofs.Registry.Seeding
import EbuildAudit.Proofs.Registry.Validation
import EbuildAudit.Proofs.Registry.Walk
import EbuildAudit.Proofs.Report.HumanLines
import EbuildAudit.Proofs.Report.JsonLines
import EbuildAudit.Proofs.Repository.Ebuilds
import EbuildAudit.Proofs.Repository.Enumeration
import EbuildAudit.Proofs.Repository.Listing
import EbuildAudit.Proofs.Repository.Restricted
import EbuildAudit.Proofs.Repository.Search
import EbuildAudit.Proofs.Scan.Aggregation
import EbuildAudit.Proofs.Scan.Completion
import EbuildAudit.Proofs.Scan.Conservation
import EbuildAudit.Proofs.Scan.Credit
import EbuildAudit.Proofs.Scan.Deposit
import EbuildAudit.Proofs.Scan.Emission
import EbuildAudit.Proofs.Scan.Isolation
import EbuildAudit.Proofs.Scan.Merging
import EbuildAudit.Proofs.Scan.Numbering
import EbuildAudit.Proofs.Scan.Overtaking
import EbuildAudit.Proofs.Scan.Passage
import EbuildAudit.Proofs.Scan.Progress
import EbuildAudit.Proofs.Scan.Serial
import EbuildAudit.Proofs.Scan.Summarized
import EbuildAudit.Proofs.Scan.Tally
import EbuildAudit.Proofs.Scan.Trace
import EbuildAudit.Proofs.Scan.Unparseable
import EbuildAudit.Proofs.Shell.Continuation
import EbuildAudit.Proofs.Shell.Coverage
import EbuildAudit.Proofs.Shell.Detection
import EbuildAudit.Proofs.Shell.Glob
import EbuildAudit.Proofs.Shell.Layout
import EbuildAudit.Proofs.Shell.MissingSlash
import EbuildAudit.Proofs.Shell.Quoting
import EbuildAudit.Proofs.Shell.Stretch
import EbuildAudit.Proofs.Shell.Traversal
import EbuildAudit.Proofs.Shell.Tree
import EbuildAudit.Proofs.Steps
import EbuildAudit.Proofs.Text.ByteOrder
import EbuildAudit.Proofs.Text.Bytes
import EbuildAudit.Proofs.Text.Lines
import EbuildAudit.Proofs.Text.Pieces
import EbuildAudit.Proofs.Text.Search
import EbuildAudit.Proofs.Version.Base
import EbuildAudit.Proofs.Version.Order
import EbuildAudit.Proofs.Version.Reference
import EbuildAudit.Proofs.Version.Release
import EbuildAudit.Proofs.Version.Spelling
import EbuildAudit.Proofs.Version.Split
import EbuildAudit.Registry
import EbuildAudit.Report.Sink
import EbuildAudit.Repository.Identity
import EbuildAudit.Repository.Search
import EbuildAudit.Repository.Source
import EbuildAudit.Scan.Protocol
import EbuildAudit.Scan.Report
import EbuildAudit.ScanUnit
import EbuildAudit.Shell.Detector
import EbuildAudit.Shell.Lexeme
import EbuildAudit.Shell.Parser
import EbuildAudit.Shell.Phrase.Basic
import EbuildAudit.Shell.Phrase.Command
import EbuildAudit.Shell.Phrase.Expression
import EbuildAudit.Shell.Phrase.Word
import EbuildAudit.Shell.Rule
import EbuildAudit.Shell.Tree
import EbuildAudit.Shell.Word
import EbuildAudit.Text.Basic
import EbuildAudit.Text.Character
import EbuildAudit.Version
