import VoiceBench.Analysis.Basic
import VoiceBench.Analysis.Coherence
import VoiceBench.Analysis.Correlation
import VoiceBench.Analysis.Delay
import VoiceBench.Analysis.Error
import VoiceBench.Analysis.FilterResponse
import VoiceBench.Analysis.Pairs
import VoiceBench.Binary.Format
import VoiceBench.Binary.Fused
import VoiceBench.Binary.Text
import VoiceBench.Bytes
import VoiceBench.Cli.Error
import VoiceBench.Cli.Parse
import VoiceBench.Cli.Spec
import VoiceBench.Cli.Usage
import VoiceBench.Codegen.Comments
import VoiceBench.Codegen.Enum
import VoiceBench.Codegen.Table
import VoiceBench.Config.Basic
import VoiceBench.Config.Load
import VoiceBench.Control.Args
import VoiceBench.Control.Command
import VoiceBench.Control.CommandMap
import VoiceBench.Control.Device
import VoiceBench.Control.Error
import VoiceBench.Control.FileDevice
import VoiceBench.Control.Host
import VoiceBench.Control.MapFile
import VoiceBench.Control.Session
import VoiceBench.Control.Status
import VoiceBench.Control.Tools
import VoiceBench.Control.Value
import VoiceBench.Control.ValueType
import VoiceBench.Decimal.Basic
import VoiceBench.Decimal.Places
import VoiceBench.Decimal.Read
import VoiceBench.Decimal.Shortest
import VoiceBench.Dfu.Basic
import VoiceBench.Dfu.Client
import VoiceBench.Dfu.Commands
import VoiceBench.Dfu.Servicer
import VoiceBench.Dfu.Session
import VoiceBench.Libraries
import VoiceBench.Main
import VoiceBench.Media.AecFilter
import VoiceBench.Media.Dump
import VoiceBench.Media.Error
import VoiceBench.Media.NlModel
import VoiceBench.Media.Recording
import VoiceBench.Media.Wav
import VoiceBench.Media.WavCodec
import VoiceBench.PathName
import VoiceBench.Plot.Grid
import VoiceBench.Program
import VoiceBench.Programs
import VoiceBench.Proofs.Plot.Addressing
import VoiceBench.Ratio
import VoiceBench.Spectrum.Complex32
import VoiceBench.Spectrum.Fft
import VoiceBench.Spectrum.Magnitude
import VoiceBench.Spectrum.Transform
import VoiceBench.Spectrum.Window
import VoiceBench.Text.Blank
import VoiceBench.Text.Search
import VoiceBench.Text.EditDistance
import VoiceBench.Text.Similarity
import VoiceBench.Toml.Codec
import VoiceBench.Toml.Decode
import VoiceBench.Toml.Lexical
import VoiceBench.Toml.Read
import VoiceBench.Toml.Value
import VoiceBench.Toml.Write
import VoiceBench.Tool.Commands
import VoiceBench.Tool.Failure
import VoiceBench.Tool.Grammar
import VoiceBench.Tool.Run
import VoiceBench.WorkDir
import VoiceBench.Proofs.Checks
import VoiceBench.Proofs.Control.Codec
import VoiceBench.Proofs.Files.ReadBack
import VoiceBench.Proofs.Control.Requests
import VoiceBench.Proofs.Control.Retries
import VoiceBench.Proofs.Control.Registers
import VoiceBench.Proofs.Control.Lookup
import VoiceBench.Proofs.Media.Reshape
import VoiceBench.Proofs.Text.Search
import VoiceBench.Proofs.Media.Naming
import VoiceBench.Proofs.Dfu.Answers
import VoiceBench.Proofs.Dfu.Transfer
import VoiceBench.Proofs.Dfu.IdleTransfers
import VoiceBench.Proofs.Dfu.Phases
import VoiceBench.Proofs.Dfu.Bounds
import VoiceBench.Proofs.Codegen.Scan
import VoiceBench.Proofs.Codegen.Uncomment
import VoiceBench.Proofs.Codegen.Values
import VoiceBench.Proofs.Codegen.Blocks
import VoiceBench.Proofs.Codegen.Table
import VoiceBench.Proofs.Binary.FloatBits
import VoiceBench.Proofs.Toml.Laws
import VoiceBench.Proofs.Control.MapText
import VoiceBench.Proofs.Decimal.Literals
import VoiceBench.Proofs.Control.ArgumentText
import VoiceBench.Proofs.Analysis.Windows
import VoiceBench.Proofs.Codegen.Header
import VoiceBench.Proofs.Text.Alignment
import VoiceBench.Proofs.Control.Suggestion
import VoiceBench.Proofs.Control.CommandLine
import VoiceBench.Proofs.Media.Dumps
import VoiceBench.Proofs.Binary.Order
import VoiceBench.Proofs.Analysis.Peaks
import VoiceBench.Proofs.Binary.Encoding
import VoiceBench.Proofs.Binary.Rounding
import VoiceBench.Proofs.Binary.Arithmetic
import VoiceBench.Proofs.Binary.UnitInterval
import VoiceBench.Proofs.Analysis.Welch
import VoiceBench.Proofs.Analysis.Reversal
import VoiceBench.Proofs.Binary.Share
import VoiceBench.Proofs.Config.Derived
import VoiceBench.Proofs.Binary.Scaling
import VoiceBench.Proofs.Media.WavCodec
import VoiceBench.Proofs.Media.Quantize
import VoiceBench.Proofs.Media.RoundTrip
