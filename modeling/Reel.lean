import Reel.Clip
import Reel.Clip.Custom
import Reel.CommandLine
import Reel.CommandLine.Arguments
import Reel.CommandLine.Dashboard
import Reel.CommandLine.Reader
import Reel.Dashboard
import Reel.Dashboard.Duration
import Reel.Dashboard.Highlight
import Reel.Dashboard.Live
import Reel.Dashboard.Palette
import Reel.Dashboard.Styled
import Reel.Dashboard.Summary
import Reel.Encode
import Reel.Error
import Reel.FileName
import Reel.Graph
import Reel.Graph.Build
import Reel.Graph.Command
import Reel.Graph.Describe
import Reel.Graph.Filter
import Reel.Graph.Label
import Reel.Graph.Offsets
import Reel.Host
import Reel.Host.Files
import Reel.Host.Probe
import Reel.Host.Process
import Reel.Inspect
import Reel.Invocation
import Reel.Main
import Reel.Number.Decimal
import Reel.Number.Double
import Reel.Number.Numeral
import Reel.Number.Rounding
import Reel.Number.Shortest
import Reel.Path
import Reel.Pipeline
import Reel.Project
import Reel.Project.PassLog
import Reel.Proofs.CommandLine.Effects
import Reel.Proofs.Graph.Anonymous
import Reel.Proofs.Graph.Arity
import Reel.Proofs.Graph.Assembly
import Reel.Proofs.Graph.Commands
import Reel.Proofs.Graph.Defects
import Reel.Proofs.Graph.Draft
import Reel.Proofs.Graph.Fades
import Reel.Proofs.Graph.Label
import Reel.Proofs.Graph.Lanes
import Reel.Proofs.Graph.Length
import Reel.Proofs.Graph.Notation
import Reel.Proofs.Graph.Offsets
import Reel.Proofs.Graph.Overlap
import Reel.Proofs.Graph.Refusals
import Reel.Proofs.Graph.Shape
import Reel.Proofs.Graph.WellFormed
import Reel.Proofs.Graph.Wiring
import Reel.Proofs.Graph.Written
import Reel.Proofs.Host.Commands
import Reel.Proofs.Host.Effects
import Reel.Proofs.Host.Gives
import Reel.Proofs.Host.Probe
import Reel.Proofs.Number.Order
import Reel.Proofs.Number.Plain
import Reel.Proofs.Project.Compile
import Reel.Proofs.Project.Render
import Reel.Proofs.Timeline.Asking
import Reel.Proofs.Timeline.Pool
import Reel.Proofs.Timeline.Probing
import Reel.Proofs.Timeline.Resolve
import Reel.Proofs.Value.Reading
import Reel.Proofs.Yields
import Reel.Seconds
import Reel.Settings
import Reel.Shell.Words
import Reel.Text.Alphanumeric
import Reel.Text.Blank
import Reel.Text.Case
import Reel.Text.Digit
import Reel.Text.Lines
import Reel.Text.Printable
import Reel.Text.Quoted
import Reel.Text.Ranges
import Reel.Text.Replace
import Reel.Text.Utf8
import Reel.Timecode
import Reel.Timeline
import Reel.Timeline.File
import Reel.Timeline.Geometry
import Reel.Timeline.Record
import Reel.Timeline.Resolve
import Reel.Timeline.Spec
import Reel.Value
import Reel.Value.Key
import Reel.Value.Number
import Reel.Value.Spelling
import Reel.Value.Text
import Reel.Yaml.Document
import Reel.Yaml.Node
import Reel.Yaml.Printer
import Reel.Yaml.Problem
import Reel.Yaml.Scalar
import Reel.Yaml.Token
import Reel.Proofs.Clip.Spared
import Reel.Proofs.CommandLine.Destination
import Reel.Proofs.CommandLine.Logs
import Reel.Proofs.Project.Words
import Reel.Proofs.Timeline.Repeats
import Reel.Proofs.Project.Plan
import Reel.Proofs.Project.Bounds
import Reel.Proofs.Pipeline.Rows
import Reel.Proofs.Graph.Soundtrack
import Reel.Proofs.Host.Failures
import Reel.Proofs.Number.Signed
import Reel.Proofs.Number.Sums
import Reel.Proofs.Timeline.Uses
import Reel.Proofs.Timeline.Stops
import Reel.Proofs.Graph.Crossfades
import Reel.Proofs.Graph.Inputs
import Reel.Proofs.Project.Twins
import Reel.Proofs.Dashboard.Calls
import Reel.Proofs.Pipeline.Numbering
import Reel.Proofs.Project.Loading
import Reel.Proofs.Dashboard.Sequence
import Reel.Proofs.CommandLine.Shared
import Reel.Proofs.CommandLine.Spelling
import Reel.Proofs.CommandLine.FrontEnds
import Reel.Proofs.Number.Positional
import Reel.Proofs.Number.Places
import Reel.Proofs.Number.Texts
import Reel.Proofs.Number.Exact
import Reel.Proofs.Timecode.Written
import Reel.Proofs.Timecode.Fields
import Reel.Proofs.Clip.Words
import Reel.Proofs.Clip.Times
import Reel.Proofs.Clip.Requests
import Reel.Proofs.Text.Occurrences
import Reel.Proofs.Clip.Templates
import Reel.Proofs.Timeline.Entries
import Reel.Proofs.Timeline.Singles
import Reel.Proofs.Timeline.Spellings
import Reel.Proofs.Graph.Frames
import Reel.Proofs.Timeline.Normal
import Reel.Proofs.Timeline.Settled
import Reel.Proofs.Pipeline.Sessions
import Reel.Proofs.Pipeline.Faults
import Reel.Proofs.Project.Cleanup
import Reel.Proofs.Number.Remainders
import Reel.Proofs.Dashboard.Faces
import Reel.Proofs.Dashboard.Durations
import Reel.Proofs.Dashboard.Panel
import Reel.Proofs.Dashboard.Summaries
import Reel.Proofs.Project.Folders
import Reel.Proofs.Graph.Issue
