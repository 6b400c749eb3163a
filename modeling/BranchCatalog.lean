import BranchCatalog.Command.Arguments
import BranchCatalog.Command.Console
import BranchCatalog.Command.Database
import BranchCatalog.Command.Fault
import BranchCatalog.Command.Footprint
import BranchCatalog.Command.Option
import BranchCatalog.Command.Run
import BranchCatalog.Disk.Basic
import BranchCatalog.Disk.Write
import BranchCatalog.Display.BoxTable
import BranchCatalog.Display.Style
import BranchCatalog.Event
import BranchCatalog.Fault
import BranchCatalog.Ignore.Glob
import BranchCatalog.Ignore.GlobText
import BranchCatalog.Ignore.Rule
import BranchCatalog.Load
import BranchCatalog.Main
import BranchCatalog.Path
import BranchCatalog.Proofs.Command.Effects
import BranchCatalog.Proofs.Command.Export
import BranchCatalog.Proofs.Command.Orphans
import BranchCatalog.Proofs.Command.Rebuild
import BranchCatalog.Proofs.Command.Steps
import BranchCatalog.Proofs.Composition
import BranchCatalog.Proofs.Disk.Companion
import BranchCatalog.Proofs.Disk.Creation
import BranchCatalog.Proofs.Disk.Follow
import BranchCatalog.Proofs.Disk.Listing
import BranchCatalog.Proofs.Disk.Parent
import BranchCatalog.Proofs.Disk.Replacement
import BranchCatalog.Proofs.Disk.Tree
import BranchCatalog.Proofs.Disk.Writing
import BranchCatalog.Proofs.Failure
import BranchCatalog.Proofs.Ignore.Glob
import BranchCatalog.Proofs.Ignore.Rule
import BranchCatalog.Proofs.Load.Agreement
import BranchCatalog.Proofs.Load.Atomicity
import BranchCatalog.Proofs.Load.Counting
import BranchCatalog.Proofs.Load.Declared
import BranchCatalog.Proofs.Load.Growth
import BranchCatalog.Proofs.Load.Independence
import BranchCatalog.Proofs.Load.Origin
import BranchCatalog.Proofs.Load.Outcome
import BranchCatalog.Proofs.Load.Position
import BranchCatalog.Proofs.Load.Progress
import BranchCatalog.Proofs.Load.Reference
import BranchCatalog.Proofs.Load.Refusal
import BranchCatalog.Proofs.Load.Resolution
import BranchCatalog.Proofs.Load.Scanned
import BranchCatalog.Proofs.Load.Soundness
import BranchCatalog.Proofs.Load.Succession
import BranchCatalog.Proofs.PathBytes
import BranchCatalog.Proofs.Provenance
import BranchCatalog.Proofs.Report.Completeness
import BranchCatalog.Proofs.Report.Csv
import BranchCatalog.Proofs.Report.Export
import BranchCatalog.Proofs.Report.Extension
import BranchCatalog.Proofs.Report.Growth
import BranchCatalog.Proofs.Report.Html
import BranchCatalog.Proofs.Report.Join
import BranchCatalog.Proofs.Report.Link
import BranchCatalog.Proofs.Report.Queries
import BranchCatalog.Proofs.Report.Reading
import BranchCatalog.Proofs.Report.Traversal
import BranchCatalog.Proofs.Scan.Acceptance
import BranchCatalog.Proofs.Scan.Assignment
import BranchCatalog.Proofs.Scan.BranchPass
import BranchCatalog.Proofs.Scan.CodeLine
import BranchCatalog.Proofs.Scan.Emission
import BranchCatalog.Proofs.Scan.Insertion
import BranchCatalog.Proofs.Scan.Laziness
import BranchCatalog.Proofs.Scan.Literal
import BranchCatalog.Proofs.Scan.MemberChain
import BranchCatalog.Proofs.Scan.NotePass
import BranchCatalog.Proofs.Scan.Order
import BranchCatalog.Proofs.Scan.Origin
import BranchCatalog.Proofs.Scan.Sequence
import BranchCatalog.Proofs.Scan.Token
import BranchCatalog.Proofs.Scan.Written
import BranchCatalog.Proofs.Scan.WrittenCall
import BranchCatalog.Proofs.Scan.WrittenTree
import BranchCatalog.Proofs.Settings
import BranchCatalog.Proofs.Sources.Exclude
import BranchCatalog.Proofs.Sources.Name
import BranchCatalog.Proofs.Sources.PassedOver
import BranchCatalog.Proofs.Sources.Seen
import BranchCatalog.Proofs.Sources.Visit
import BranchCatalog.Proofs.Sources.Walk
import BranchCatalog.Proofs.Store.Append
import BranchCatalog.Proofs.Store.Archive
import BranchCatalog.Proofs.Store.Calls
import BranchCatalog.Proofs.Store.Consistency
import BranchCatalog.Proofs.Store.Damage
import BranchCatalog.Proofs.Store.Integrity
import BranchCatalog.Proofs.Text.Cut
import BranchCatalog.Proofs.Text.Pieces
import BranchCatalog.Proofs.Text.Replace
import BranchCatalog.Proofs.Text.Utf8
import BranchCatalog.Proofs.Toml.Document
import BranchCatalog.Proofs.Toml.Quoted
import BranchCatalog.Report.Csv
import BranchCatalog.Report.Export
import BranchCatalog.Report.Html
import BranchCatalog.Report.LinkTemplate
import BranchCatalog.Report.Row
import BranchCatalog.Scan.BranchCall
import BranchCatalog.Scan.Declaration
import BranchCatalog.Scan.Note
import BranchCatalog.Scan.Pattern
import BranchCatalog.Scan.Source
import BranchCatalog.Scan.Stream
import BranchCatalog.Scan.Token
import BranchCatalog.Settings
import BranchCatalog.Sources.Basic
import BranchCatalog.Sources.Walk
import BranchCatalog.Store.Archive
import BranchCatalog.Store.Basic
import BranchCatalog.Store.Damage
import BranchCatalog.Store.Integrity
import BranchCatalog.Store.OnDisk
import BranchCatalog.Store.Query
import BranchCatalog.Store.Table
import BranchCatalog.Store.Tables
import BranchCatalog.Text.Basic
import BranchCatalog.Text.Duration
import BranchCatalog.Text.Utf8
import BranchCatalog.Text.Width
import BranchCatalog.Text.Word
import BranchCatalog.Toml.Document
import BranchCatalog.Toml.Quoted
import BranchCatalog.Toml.Scalar
import BranchCatalog.Toml.Table
