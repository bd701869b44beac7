import CharmDepot.Bundle.Basic
import CharmDepot.Bundle.Deployment
import CharmDepot.Bundle.Endpoint
import CharmDepot.Bundle.Placement
import CharmDepot.Bundle.Problems
import CharmDepot.Calendar
import CharmDepot.Charm.Basic
import CharmDepot.Charm.Metadata
import CharmDepot.Charm.Packing
import CharmDepot.Digest.Sha256
import CharmDepot.Fault
import CharmDepot.FileTree.Basic
import CharmDepot.FileTree.Edit
import CharmDepot.FileTree.FilePath
import CharmDepot.FileTree.Walk
import CharmDepot.Identity.Basic
import CharmDepot.Identity.Branch
import CharmDepot.Identity.Draft
import CharmDepot.Identity.FileName
import CharmDepot.Identity.Grammar
import CharmDepot.Identity.Parser
import CharmDepot.Identity.Revision
import CharmDepot.Json.Reader
import CharmDepot.Json.Writer
import CharmDepot.Number.Binary64
import CharmDepot.Number.Decimal
import CharmDepot.Number.Integer
import CharmDepot.Number.Real
import CharmDepot.Number.Shortest
import CharmDepot.Proofs.Bundle.Archive
import CharmDepot.Proofs.Bundle.Arrangement
import CharmDepot.Proofs.Bundle.Consultation
import CharmDepot.Proofs.Bundle.Directive
import CharmDepot.Proofs.Bundle.Endpoint
import CharmDepot.Proofs.Bundle.Normal
import CharmDepot.Proofs.Bundle.Orphans
import CharmDepot.Proofs.Bundle.Reading
import CharmDepot.Proofs.Bundle.Report
import CharmDepot.Proofs.Bundle.Scalar
import CharmDepot.Proofs.Bundle.Stages
import CharmDepot.Proofs.Bundle.WellFormed
import CharmDepot.Proofs.Charm.Archive
import CharmDepot.Proofs.Charm.Contents
import CharmDepot.Proofs.Charm.Directory
import CharmDepot.Proofs.Charm.Faults
import CharmDepot.Proofs.Charm.Revised
import CharmDepot.Proofs.Fails
import CharmDepot.Proofs.FileTree.Edit
import CharmDepot.Proofs.FileTree.Erase
import CharmDepot.Proofs.FileTree.Files
import CharmDepot.Proofs.FileTree.Regular
import CharmDepot.Proofs.FileTree.Walk
import CharmDepot.Proofs.Identity.Branch
import CharmDepot.Proofs.Identity.Language
import CharmDepot.Proofs.Identity.Location
import CharmDepot.Proofs.Identity.Resolution
import CharmDepot.Proofs.Identity.RoundTrip
import CharmDepot.Proofs.Identity.Spelling
import CharmDepot.Proofs.Identity.Substitution
import CharmDepot.Proofs.Identity.Words
import CharmDepot.Proofs.Identity.Written
import CharmDepot.Proofs.Json.LongInteger
import CharmDepot.Proofs.Json.Refusals
import CharmDepot.Proofs.Repository.Corrupt
import CharmDepot.Proofs.Repository.Exact
import CharmDepot.Proofs.Repository.Latest
import CharmDepot.Proofs.Repository.Memory
import CharmDepot.Proofs.Runs
import CharmDepot.Proofs.Store.Address
import CharmDepot.Proofs.Store.Answers
import CharmDepot.Proofs.Store.Batch
import CharmDepot.Proofs.Store.Catalog
import CharmDepot.Proofs.Store.Conversation
import CharmDepot.Proofs.Store.Declared
import CharmDepot.Proofs.Store.Download
import CharmDepot.Proofs.Store.Faults
import CharmDepot.Proofs.Store.Fetch
import CharmDepot.Proofs.Store.Get
import CharmDepot.Proofs.Store.Interaction
import CharmDepot.Proofs.Store.Lookups
import CharmDepot.Proofs.Store.Places
import CharmDepot.Proofs.Store.Queries
import CharmDepot.Proofs.Store.Reading
import CharmDepot.Proofs.Store.Records
import CharmDepot.Proofs.Store.Table
import CharmDepot.Proofs.Store.Traffic
import CharmDepot.Proofs.Store.Visit
import CharmDepot.Proofs.Text.Numeral
import CharmDepot.Proofs.Text.PrefixCode
import CharmDepot.Proofs.Value.Foreign
import CharmDepot.Proofs.Value.Mapping
import CharmDepot.Proofs.Value.Sound
import CharmDepot.Proofs.Value.Written
import CharmDepot.Proofs.Yaml.Nodes
import CharmDepot.Proofs.Yaml.Values
import CharmDepot.Release
import CharmDepot.Repository.Choice
import CharmDepot.Repository.Disk
import CharmDepot.Repository.Latest
import CharmDepot.Repository.Memory
import CharmDepot.Repository.Notice
import CharmDepot.Repository.Sample
import CharmDepot.Store.Basic
import CharmDepot.Store.Client
import CharmDepot.Store.Download
import CharmDepot.Store.Index
import CharmDepot.Store.Queries
import CharmDepot.Store.Record
import CharmDepot.Store.Settings
import CharmDepot.Text.AlphaNumeric
import CharmDepot.Text.Blank
import CharmDepot.Text.Cased
import CharmDepot.Text.DecimalDigit
import CharmDepot.Text.Hex
import CharmDepot.Text.LowerCase
import CharmDepot.Text.Percent
import CharmDepot.Text.Pieces
import CharmDepot.Text.Printable
import CharmDepot.Text.Quoted
import CharmDepot.Text.Ranges
import CharmDepot.Text.Utf
import CharmDepot.Value.Basic
import CharmDepot.Value.Convert
import CharmDepot.Value.Slots
import CharmDepot.Value.Text
import CharmDepot.Yaml.Base64
import CharmDepot.Yaml.Cell
import CharmDepot.Yaml.Cursor
import CharmDepot.Yaml.Document
import CharmDepot.Yaml.Node.Basic
import CharmDepot.Yaml.Node.Merge
import CharmDepot.Yaml.Node.Parser
import CharmDepot.Yaml.Scalar
import CharmDepot.Yaml.Schema
import CharmDepot.Yaml.Timestamp
import CharmDepot.Yaml.Token.Basic
import CharmDepot.Yaml.Token.Lexer
import CharmDepot.Yaml.Token.Marker
import CharmDepot.Yaml.Token.Scalar
