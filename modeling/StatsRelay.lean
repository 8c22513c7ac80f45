import StatsRelay.Sorted
import StatsRelay.Text.Blank
import StatsRelay.Text.Utf8
import StatsRelay.Text.Segments
import StatsRelay.Text.Visible
import StatsRelay.Text.Lines
import StatsRelay.Decimal.Binary
import StatsRelay.Decimal.Shortest
import StatsRelay.Decimal.Layout
import StatsRelay.Json.Value
import StatsRelay.Json.Writer
import StatsRelay.Document
import StatsRelay.Json.Literal
import StatsRelay.Json.Reader
import StatsRelay.Schema.Codec
import StatsRelay.Schema.Label
import StatsRelay.Schema.Table
import StatsRelay.Stats.Code
import StatsRelay.Stats.Kind
import StatsRelay.Stats.Payload
import StatsRelay.Stats.Record
import StatsRelay.Failure
import StatsRelay.FileSystem
import StatsRelay.Cabin.Zone
import StatsRelay.Cabin.Profile
import StatsRelay.Cabin.Draft
import StatsRelay.Cabin.Description
import StatsRelay.Toml.Quoted
import StatsRelay.Toml.Scalar
import StatsRelay.Toml.Node
import StatsRelay.Toml.Reader
import StatsRelay.Config.Backend
import StatsRelay.Config.Settings
import StatsRelay.Config.Environment
import StatsRelay.Config.Layers
import StatsRelay.Config.Writer
import StatsRelay.Log.Sink
import StatsRelay.Log.Event
import StatsRelay.Log.Filter
import StatsRelay.Log.Journal
import StatsRelay.Log.Line
import StatsRelay.Log.Logger
import StatsRelay.Log.Stack
import StatsRelay.Log.Replay
import StatsRelay.Log.LiveReplay
import StatsRelay.Command.Arguments
import StatsRelay.Command.Build
import StatsRelay.Command.ProfileText
import StatsRelay.Command.ReplayText
import StatsRelay.Command.Run
import StatsRelay.Main
import StatsRelay.Proofs.SortedMap
import StatsRelay.Proofs.Utf8
import StatsRelay.Proofs.Lines
import StatsRelay.Proofs.Rows
import StatsRelay.Proofs.Documents
import StatsRelay.Proofs.Fields
import StatsRelay.Proofs.Grammar
import StatsRelay.Proofs.Literals
import StatsRelay.Proofs.Strings
import StatsRelay.Proofs.Denotes
import StatsRelay.Proofs.Compact
import StatsRelay.Proofs.Behind
import StatsRelay.Proofs.Joined
import StatsRelay.Proofs.Readable
import StatsRelay.Proofs.Accepted
import StatsRelay.Proofs.Validation
import StatsRelay.Proofs.Journal
import StatsRelay.Proofs.OutputLines
import StatsRelay.Proofs.Trace
import StatsRelay.Proofs.Replaying
import StatsRelay.Proofs.Accounting
import StatsRelay.Proofs.Streams
import StatsRelay.Proofs.LinesOfText
import StatsRelay.Proofs.RecordLines
import StatsRelay.Proofs.Capture
import StatsRelay.Proofs.Framing
import StatsRelay.Proofs.Counting
import StatsRelay.Proofs.Codecs
import StatsRelay.Proofs.Indented
import StatsRelay.Proofs.Layers
import StatsRelay.Proofs.Reloading
import StatsRelay.Proofs.Quoted
import StatsRelay.Proofs.Statements
import StatsRelay.Proofs.Tables
import StatsRelay.Proofs.TomlSettings
import StatsRelay.Proofs.Drafts
import StatsRelay.Proofs.FanOut
import StatsRelay.Proofs.Rounding
import StatsRelay.Proofs.Numerals
import StatsRelay.Proofs.Written
import StatsRelay.Proofs.Descriptions
import StatsRelay.Proofs.Appending
import StatsRelay.Proofs.LiveReplaying
import StatsRelay.Proofs.SelfReplaying
import StatsRelay.Proofs.Opening
import StatsRelay.Proofs.Paths
import StatsRelay.Proofs.ReplayEnds
import StatsRelay.Proofs.JsonOutput
import StatsRelay.Proofs.Covering
import StatsRelay.Proofs.Decoders
import StatsRelay.Proofs.ExitCodes
import StatsRelay.Proofs.Stages
import StatsRelay.Proofs.Outcomes
import StatsRelay.Proofs.StandardOutput
import StatsRelay.Proofs.ValidSettings
import StatsRelay.Proofs.Environments
import StatsRelay.Proofs.Envelopes
import StatsRelay.Proofs.BackendLists
import StatsRelay.Proofs.StackBuilding
import StatsRelay.Proofs.ZoneRanges
import StatsRelay.Proofs.EmptyGroups
import StatsRelay.Proofs.SteppedValues
