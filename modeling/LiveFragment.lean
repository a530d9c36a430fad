import LiveFragment.Backend.Basic
import LiveFragment.Backend.Device
import LiveFragment.Backend.Error
import LiveFragment.Backend.Headless
import LiveFragment.Backend.Scheduled
import LiveFragment.Backend.Texture
import LiveFragment.Bytes
import LiveFragment.Channel.Fourier
import LiveFragment.Channel.Library
import LiveFragment.Channel.Noise
import LiveFragment.Channel.Playback
import LiveFragment.Channel.Rack
import LiveFragment.Channel.Request
import LiveFragment.Channel.Slot
import LiveFragment.Channel.Spectrum
import LiveFragment.CommandLine.Arguments
import LiveFragment.CommandLine.Assignment
import LiveFragment.CommandLine.ConfigFile
import LiveFragment.CommandLine.Failure
import LiveFragment.CommandLine.Host
import LiveFragment.CommandLine.Invocation
import LiveFragment.CommandLine.Rendering
import LiveFragment.CommandLine.Report
import LiveFragment.CommandLine.Run
import LiveFragment.CommandLine.Schedule
import LiveFragment.CommandLine.Size
import LiveFragment.Config.Basic
import LiveFragment.Config.Decode
import LiveFragment.Config.Encode
import LiveFragment.Directive.Encoding
import LiveFragment.Directive.Item
import LiveFragment.Directive.Line
import LiveFragment.Directive.Param
import LiveFragment.Directive.Source
import LiveFragment.Directive.Texture
import LiveFragment.Document
import LiveFragment.Duration.Basic
import LiveFragment.Duration.Text
import LiveFragment.Engine.Basic
import LiveFragment.Engine.Clock
import LiveFragment.Engine.Pointer
import LiveFragment.Files.Path
import LiveFragment.Files.Tree
import LiveFragment.Json.Printer
import LiveFragment.Json.Reader
import LiveFragment.Json.Token
import LiveFragment.Main
import LiveFragment.Media.Devices
import LiveFragment.Media.Error
import LiveFragment.Media.Frame
import LiveFragment.Media.Handoff
import LiveFragment.Number.Format
import LiveFragment.Number.Literal
import LiveFragment.Number.Shortest
import LiveFragment.Number.Single
import LiveFragment.Number.Style
import LiveFragment.Parameter.Definition
import LiveFragment.Parameter.Encoding
import LiveFragment.Parameter.Store
import LiveFragment.Parameter.Value
import LiveFragment.Picture.Bmp
import LiveFragment.Picture.Decode
import LiveFragment.Picture.Gif
import LiveFragment.Picture.Png
import LiveFragment.Program.Assembly
import LiveFragment.Program.Compile
import LiveFragment.Program.Diagnostic
import LiveFragment.Text.Blank
import LiveFragment.Text.Lines
import LiveFragment.Text.Numeral
import LiveFragment.Text.Split
import LiveFragment.Toml.Printer
import LiveFragment.Toml.Quoted
import LiveFragment.Toml.Reader
import LiveFragment.Toml.Scalar
import LiveFragment.Toml.Tree
import LiveFragment.Uniform.Block
import LiveFragment.Uniform.Layout
import LiveFragment.Uniform.Standard
import LiveFragment.Proofs.Backend.Books
import LiveFragment.Proofs.Backend.ReadBack
import LiveFragment.Proofs.Backend.Simulation
import LiveFragment.Proofs.Backend.Rows
import LiveFragment.Proofs.Channel.Ownership
import LiveFragment.Proofs.Channel.Run
import LiveFragment.Proofs.Channel.Owned
import LiveFragment.Proofs.Channel.Apart
import LiveFragment.Proofs.Picture.Whole
import LiveFragment.Proofs.Channel.Coherence
import LiveFragment.Proofs.Channel.Textures
import LiveFragment.Proofs.Channel.Custody
import LiveFragment.Proofs.Channel.Resources
import LiveFragment.Proofs.Directive.Declared
import LiveFragment.Proofs.Engine.Compile
import LiveFragment.Proofs.Backend.Alive
import LiveFragment.Proofs.Backend.Issued
import LiveFragment.Proofs.Backend.Pixels
import LiveFragment.Proofs.Backend.Programs
import LiveFragment.Proofs.Engine.Coherence
import LiveFragment.Proofs.Engine.Session
import LiveFragment.Proofs.Text.Reading
import LiveFragment.Proofs.Uniform.Std140
import LiveFragment.Proofs.Uniform.Words
import LiveFragment.Proofs.Uniform.Members
import LiveFragment.Proofs.Uniform.Writes
import LiveFragment.Proofs.Uniform.Image
import LiveFragment.Proofs.Engine.Image
import LiveFragment.Proofs.Number.Finite
import LiveFragment.Proofs.Directive.Numeric
import LiveFragment.Proofs.Engine.Restored
import LiveFragment.Proofs.Engine.Resumed
import LiveFragment.Proofs.Channel.Reported
import LiveFragment.Proofs.Clock.Elapsed
import LiveFragment.Proofs.Clock.Begun
import LiveFragment.Proofs.Clock.Windows
import LiveFragment.Proofs.Files.Extension
import LiveFragment.Proofs.Channel.Told
import LiveFragment.Proofs.Channel.Journal
import LiveFragment.Proofs.Channel.Motion
import LiveFragment.Proofs.Channel.Moved
import LiveFragment.Proofs.Channel.Forgotten
import LiveFragment.Proofs.Channel.Superseded
import LiveFragment.Proofs.Channel.Awaited
import LiveFragment.Proofs.Channel.Chronicle
import LiveFragment.Proofs.Channel.Display
import LiveFragment.Proofs.Channel.Aside
import LiveFragment.Proofs.Channel.Feed
import LiveFragment.Proofs.Channel.Stream
import LiveFragment.Proofs.Channel.Streamed
import LiveFragment.Proofs.Channel.Played
import LiveFragment.Proofs.Channel.Heard
import LiveFragment.Proofs.Channel.Attuned
import LiveFragment.Proofs.Channel.Spoiled
import LiveFragment.Proofs.Channel.Located
import LiveFragment.Proofs.Directive.WellFormed
import LiveFragment.Proofs.Media.Exchange
import LiveFragment.Proofs.Media.Once
import LiveFragment.Proofs.Number.Pattern
import LiveFragment.Proofs.Duration.Limit
import LiveFragment.Proofs.Config.Fault
import LiveFragment.Proofs.Number.Rounding
import LiveFragment.Proofs.Number.Shortest
import LiveFragment.Proofs.Number.Exact
import LiveFragment.Proofs.Number.Written
import LiveFragment.Proofs.Number.Bounded
import LiveFragment.Proofs.Number.Unpacked
import LiveFragment.Proofs.Number.Reciprocal
import LiveFragment.Proofs.Toml.Scalar
import LiveFragment.Proofs.Toml.Quoted
import LiveFragment.Proofs.Toml.Printed
import LiveFragment.Proofs.Duration.Written
import LiveFragment.Proofs.Config.Written
import LiveFragment.Proofs.Program.Lines
import LiveFragment.Proofs.Uniform.Standard
import LiveFragment.Proofs.Engine.Shown
import LiveFragment.Proofs.Directive.Marks
import LiveFragment.Proofs.Directive.Grammar
import LiveFragment.Proofs.Parameter.Writes
import LiveFragment.Proofs.CommandLine.Assigned
import LiveFragment.Proofs.Directive.Encoded
import LiveFragment.Proofs.CommandLine.Overflow
import LiveFragment.Proofs.CommandLine.Scheduled
import LiveFragment.Proofs.Directive.Scanned
import LiveFragment.Proofs.Engine.Followed
import LiveFragment.Proofs.Text.Lines
import LiveFragment.Proofs.Directive.Spelled
import LiveFragment.Proofs.Program.Logged
import LiveFragment.Proofs.Directive.Balanced
import LiveFragment.Proofs.Channel.Stored
