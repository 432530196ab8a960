import EffectHost.Audio.Wav
import EffectHost.Bytes.Base64
import EffectHost.Bytes.Words
import EffectHost.Code.Expr
import EffectHost.Code.Machine
import EffectHost.Code.Parser
import EffectHost.Code.Run
import EffectHost.Code.Store
import EffectHost.Code.Token
import EffectHost.CommandLine.Assignment
import EffectHost.CommandLine.Command
import EffectHost.CommandLine.Describe
import EffectHost.CommandLine.Json
import EffectHost.CommandLine.Options
import EffectHost.CommandLine.Run
import EffectHost.DataFile.Handle
import EffectHost.DataFile.Open
import EffectHost.DataFile.Streams
import EffectHost.DataFile.Table
import EffectHost.Disk.Basic
import EffectHost.Disk.Path
import EffectHost.Disk.Search
import EffectHost.Effect.Basic
import EffectHost.Effect.Config
import EffectHost.Effect.Lifecycle
import EffectHost.Effect.Painting
import EffectHost.Effect.Process
import EffectHost.Effect.SavedState
import EffectHost.Effect.Script
import EffectHost.Effect.Sections
import EffectHost.Effect.Settings
import EffectHost.Failure
import EffectHost.Host.Alias
import EffectHost.Host.FileFunctions
import EffectHost.Host.Function
import EffectHost.Host.Keys
import EffectHost.Host.MidiFunctions
import EffectHost.Host.SliderFunctions
import EffectHost.Host.Surroundings
import EffectHost.Host.Variable
import EffectHost.Main
import EffectHost.Mask
import EffectHost.Midi.Log
import EffectHost.Number.Binary
import EffectHost.Number.Layout
import EffectHost.Number.Numeral
import EffectHost.Number.Power
import EffectHost.Number.Shortest
import EffectHost.Number.Whole
import EffectHost.Preset.Bank
import EffectHost.Preset.BankReader
import EffectHost.Preset.BankWriter
import EffectHost.Preset.State
import EffectHost.Role
import EffectHost.Script.Header
import EffectHost.Script.Imports
import EffectHost.Script.Line
import EffectHost.Script.Section
import EffectHost.Script.Slider
import EffectHost.Script.Unit
import EffectHost.Text.Blank
import EffectHost.Text.CaseTable
import EffectHost.Text.LowerCase
import EffectHost.Text.Utf8
import EffectHost.Transport
import EffectHost.Proofs.Midi.Record
import EffectHost.Proofs.Midi.History
import EffectHost.Proofs.Midi.Cursors
import EffectHost.Proofs.Code.Programs
import EffectHost.Proofs.Code.Cells
import EffectHost.Proofs.Midi.Forward
import EffectHost.Proofs.Host.Frame
import EffectHost.Proofs.Host.Variables
import EffectHost.Proofs.Script.Slots
import EffectHost.Proofs.Effect.Sections
import EffectHost.Proofs.Code.Run
import EffectHost.Proofs.Effect.Actions
import EffectHost.Proofs.Effect.Kinds
import EffectHost.Proofs.Effect.Lifecycle
import EffectHost.Proofs.Effect.Steps
import EffectHost.Proofs.Effect.Moments
import EffectHost.Proofs.Effect.Grounded
import EffectHost.Proofs.Effect.DueWork
import EffectHost.Proofs.Effect.Channels
import EffectHost.Proofs.Effect.Bypass
import EffectHost.Proofs.Code.Agreement
import EffectHost.Proofs.Host.Agreement
import EffectHost.Proofs.Effect.Slices
import EffectHost.Proofs.Effect.Alike
import EffectHost.Proofs.Effect.Chunks
import EffectHost.Proofs.Effect.Names
import EffectHost.Proofs.CommandLine.Render
import EffectHost.Proofs.Number.Bits
import EffectHost.Proofs.DataFile.Serializer
import EffectHost.Proofs.Host.Rounding
import EffectHost.Proofs.Host.SavedItems
import EffectHost.Proofs.Effect.RoundTrip
import EffectHost.Proofs.Effect.SliderValues
import EffectHost.Proofs.Effect.Sources
import EffectHost.Proofs.Host.Exchange
import EffectHost.Proofs.Bytes.Base64
import EffectHost.Proofs.Number.Nearest
import EffectHost.Proofs.Number.PlainText
import EffectHost.Proofs.Number.Scientific
import EffectHost.Proofs.Number.Shortest
import EffectHost.Proofs.Number.Unpacked
import EffectHost.Proofs.Preset.BankText
import EffectHost.Proofs.Preset.Blob
import EffectHost.Proofs.Preset.StateBytes
import EffectHost.Proofs.Preset.Tokens
import EffectHost.Proofs.Host.Roles
import EffectHost.Proofs.Script.Imports
import EffectHost.Proofs.Script.Sections
import EffectHost.Proofs.Code.Grammar
import EffectHost.Proofs.Code.Layout
import EffectHost.Proofs.Code.Linking
import EffectHost.Proofs.Code.Printing
import EffectHost.Proofs.DataFile.Table
import EffectHost.Proofs.Midi.Received
import EffectHost.Proofs.Host.IdleSerializer
import EffectHost.Proofs.Code.Mirror
import EffectHost.Proofs.Code.Trace
import EffectHost.Proofs.Effect.Calls
import EffectHost.Proofs.Effect.ClosedCode
import EffectHost.Proofs.Effect.IdleSerializer
import EffectHost.Proofs.Effect.Deliveries
import EffectHost.Proofs.Effect.NextScript
import EffectHost.Proofs.Midi.Pieces
import EffectHost.Proofs.Host.Reception
import EffectHost.Proofs.Host.MessageMemory
import EffectHost.Proofs.Effect.HostNames
import EffectHost.Proofs.Number.Comparable
import EffectHost.Proofs.Effect.Enumerations
import EffectHost.Proofs.Number.Whole
import EffectHost.Proofs.Host.Sending
import EffectHost.Proofs.Host.Exclusive
import EffectHost.Proofs.Host.Relay
import EffectHost.Proofs.Host.Draining
import EffectHost.Proofs.DataFile.Reading
import EffectHost.Proofs.Host.Blocks
import EffectHost.Proofs.Host.BlockLoops
import EffectHost.Proofs.Preset.UnknownContent
import EffectHost.Proofs.Effect.Pins
import EffectHost.Proofs.Host.Targets
import EffectHost.Proofs.Effect.Writes
import EffectHost.Proofs.Effect.Fills
import EffectHost.Proofs.Effect.SampleRuns
import EffectHost.Proofs.Effect.StaleSamples
import EffectHost.Proofs.Effect.InitSettings
import EffectHost.Proofs.Script.Header
import EffectHost.Proofs.Effect.PathSliders
import EffectHost.Proofs.Effect.FaultLines
import EffectHost.Proofs.Number.Rounded
import EffectHost.Proofs.Number.Spelled
import EffectHost.Proofs.Number.LongestNumeral
import EffectHost.Proofs.Text.Padded
import EffectHost.Proofs.Script.WrittenSliders
import EffectHost.Proofs.Effect.RestoredSliders
import EffectHost.Proofs.DataFile.Available
import EffectHost.Proofs.Effect.FreshPasses
import EffectHost.Proofs.Code.ByteScan
import EffectHost.Proofs.Code.MemoryRuns
import EffectHost.Proofs.Effect.Scoping
import EffectHost.Proofs.DataFile.TextReadings
import EffectHost.Proofs.Effect.KeyRuns
