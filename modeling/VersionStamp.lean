import VersionStamp.CommandLine
import VersionStamp.Decimal.Binary64
import VersionStamp.Decimal.Signed
import VersionStamp.Deflate.Bits
import VersionStamp.Deflate.Block
import VersionStamp.Deflate.Code
import VersionStamp.Deflate.Stream
import VersionStamp.Execution
import VersionStamp.Failure
import VersionStamp.Files
import VersionStamp.Files.Path
import VersionStamp.Files.SystemError
import VersionStamp.Git.Abbreviation
import VersionStamp.Git.Checkout
import VersionStamp.Git.Commit
import VersionStamp.Git.CommitDate
import VersionStamp.Git.Configuration
import VersionStamp.Git.Configuration.File
import VersionStamp.Git.Configuration.Inclusion
import VersionStamp.Git.Database
import VersionStamp.Git.Delta
import VersionStamp.Git.Directory
import VersionStamp.Git.Grafts
import VersionStamp.Git.Number
import VersionStamp.Git.Object
import VersionStamp.Git.ObjectFile
import VersionStamp.Git.Pack
import VersionStamp.Git.PackedReferences
import VersionStamp.Git.Problem
import VersionStamp.Git.Reference
import VersionStamp.Git.References
import VersionStamp.Git.Sha1
import VersionStamp.Git.Signature
import VersionStamp.Git.Tag
import VersionStamp.Git.Tree
import VersionStamp.Git.Workshop
import VersionStamp.Host
import VersionStamp.Host.Session
import VersionStamp.Inquiry
import VersionStamp.Main
import VersionStamp.Report
import VersionStamp.Repository
import VersionStamp.Repository.Program
import VersionStamp.Repository.Rehearsal
import VersionStamp.Resolution
import VersionStamp.Settings
import VersionStamp.Settings.Load
import VersionStamp.Settings.Shape
import VersionStamp.TagSet
import VersionStamp.Text
import VersionStamp.Text.Blank
import VersionStamp.Text.Lines
import VersionStamp.Text.Octets
import VersionStamp.Text.Quoted
import VersionStamp.Text.Search
import VersionStamp.Text.Terminal
import VersionStamp.Text.Unprintable
import VersionStamp.Text.Utf8
import VersionStamp.Text.Wildcard
import VersionStamp.Toml.DateTime
import VersionStamp.Toml.Diagnostic
import VersionStamp.Toml.Document
import VersionStamp.Toml.Layout
import VersionStamp.Toml.Node
import VersionStamp.Toml.Number
import VersionStamp.Toml.Quoted
import VersionStamp.Toml.Value
import VersionStamp.Version
import VersionStamp.Version.Declaration
import VersionStamp.Proofs.Declaration.Reading
import VersionStamp.Proofs.Declaration.Value
import VersionStamp.Proofs.Resolution.Outcome
import VersionStamp.Proofs.Declaration.RoundTrip
import VersionStamp.Proofs.Repository.Printed
import VersionStamp.Proofs.Repository.Agreement
import VersionStamp.Proofs.Repository.LineFeeds
import VersionStamp.Proofs.Repository.Runs
import VersionStamp.Proofs.Repository.SeveralTags
import VersionStamp.Proofs.Repository.Opening
import VersionStamp.Proofs.Version.Precedence
import VersionStamp.Proofs.Version.ReadingBack
import VersionStamp.Proofs.Git.Number
import VersionStamp.Proofs.Git.Database
import VersionStamp.Proofs.Git.Identification
import VersionStamp.Proofs.Git.Abbreviation
import VersionStamp.Proofs.Git.AbbreviationLength
import VersionStamp.Proofs.Git.ShortHash
import VersionStamp.Proofs.Git.CommitDate
import VersionStamp.Proofs.Git.CommitHeader
import VersionStamp.Proofs.Git.Tags
import VersionStamp.Proofs.Git.TagReferences
import VersionStamp.Proofs.Rehearsal.Log
import VersionStamp.Proofs.Rehearsal.Replay
import VersionStamp.Proofs.Settings.Acceptance
import VersionStamp.Proofs.Settings.RoundTrip
import VersionStamp.Proofs.Execution
import VersionStamp.Proofs.Text.Overlap
import VersionStamp.Proofs.Declaration.Separate
import VersionStamp.Proofs.Declaration.Clean
import VersionStamp.Proofs.Declaration.Spellable
import VersionStamp.Proofs.Declaration.LineByLine
import VersionStamp.Proofs.Diagnostics
