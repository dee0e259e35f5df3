import Reroute.Attempt
import Reroute.Balance
import Reroute.Batch
import Reroute.CallRule
import Reroute.Command
import Reroute.Config
import Reroute.Diff.Block
import Reroute.Diff.Matching
import Reroute.Diff.Unified
import Reroute.Disk.Basic
import Reroute.Disk.Error
import Reroute.Disk.Files
import Reroute.Disk.Path
import Reroute.Fingerprint
import Reroute.Fingerprint.Base91
import Reroute.Fingerprint.XxHash
import Reroute.Flag.Basic
import Reroute.Flag.Usage
import Reroute.Helper
import Reroute.Job
import Reroute.Keyed
import Reroute.Landmarks
import Reroute.Main
import Reroute.Number.Calendar
import Reroute.Number.Literal
import Reroute.Number.Rounding
import Reroute.Output.Colour
import Reroute.Output.Sink
import Reroute.Pass
import Reroute.PatchError
import Reroute.Profile.Basic
import Reroute.Profile.Load
import Reroute.Profile.Toml
import Reroute.Profile.Yaml
import Reroute.Report
import Reroute.Route
import Reroute.Session
import Reroute.Snapshot.Basic
import Reroute.Snapshot.Frame
import Reroute.Snapshot.MessagePack
import Reroute.Snapshot.Standard
import Reroute.Store.Archive
import Reroute.Store.Basic
import Reroute.Store.Metrics
import Reroute.Text.Base64
import Reroute.Text.Basic
import Reroute.Text.Binary
import Reroute.Text.Blank
import Reroute.Text.Lowercase
import Reroute.Text.Printable
import Reroute.Text.Quoted
import Reroute.Text.Rune
import Reroute.Toml.Scalar
import Reroute.Toml.Statement
import Reroute.Toml.Table
import Reroute.Vault
import Reroute.Workspace
import Reroute.Yaml.Glyph
import Reroute.Yaml.Kind
import Reroute.Yaml.Node
import Reroute.Yaml.Scalar
import Reroute.Yaml.Tag
import Reroute.Yaml.Token
import Reroute.Proofs.Signature
import Reroute.Proofs.Outline
import Reroute.Proofs.Rerouting
import Reroute.Proofs.Pass
import Reroute.Proofs.Idempotence
import Reroute.Proofs.Plan
import Reroute.Proofs.Attribution
import Reroute.Proofs.Convergence
import Reroute.Proofs.Snapshot
import Reroute.Proofs.Vault
import Reroute.Proofs.Workspace
import Reroute.Proofs.Patching
import Reroute.Proofs.Undo
import Reroute.Proofs.Recovery
import Reroute.Proofs.Installation
import Reroute.Proofs.Edits
import Reroute.Proofs.Leftover
import Reroute.Proofs.Preview
import Reroute.Proofs.Interleaving
import Reroute.Proofs.Links
import Reroute.Proofs.Independence
import Reroute.Proofs.Accounting
import Reroute.Proofs.Scanning
import Reroute.Proofs.Path
import Reroute.Proofs.Text.Order
import Reroute.Proofs.Keys
import Reroute.Proofs.Disk.Basic
import Reroute.Proofs.Disk.Files
import Reroute.Proofs.Archive
import Reroute.Proofs.Restoring
import Reroute.Proofs.Disk.Workspace
import Reroute.Proofs.RestoreAll
import Reroute.Proofs.RestoreModes
import Reroute.Proofs.Failure
import Reroute.Proofs.FirstSignature
import Reroute.Proofs.ReportedLines
import Reroute.Proofs.InstallOnce
import Reroute.Proofs.AllOrNothing
import Reroute.Proofs.Preparation
import Reroute.Proofs.Spelling
import Reroute.Proofs.Arguments
import Reroute.Proofs.RouteTable
import Reroute.Proofs.Text.Lines
import Reroute.Proofs.LimitedOutput
import Reroute.Proofs.FreshStart
import Reroute.Proofs.SeparateBodies
import Reroute.Proofs.OverlappingBodies
import Reroute.Proofs.Text.Decimal
import Reroute.Proofs.Patch
import Reroute.Proofs.TruePatch
import Reroute.Proofs.Fingerprint
