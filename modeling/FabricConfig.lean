import FabricConfig.Binary64.Basic
import FabricConfig.Binary64.Shortest
import FabricConfig.Board.Basic
import FabricConfig.Board.Encoding
import FabricConfig.Catalog
import FabricConfig.Command.Basic
import FabricConfig.Command.FileSystem
import FabricConfig.Command.Line
import FabricConfig.Command.Outcome
import FabricConfig.Command.Surroundings
import FabricConfig.Json.DecodeError
import FabricConfig.Json.Decoder
import FabricConfig.Json.Document
import FabricConfig.Json.Number
import FabricConfig.Json.Printer
import FabricConfig.Json.Record
import FabricConfig.Json.Token
import FabricConfig.Json.Value
import FabricConfig.Log.Event
import FabricConfig.Log.Format
import FabricConfig.Main
import FabricConfig.Named
import FabricConfig.Outcome
import FabricConfig.Precision.Alignment
import FabricConfig.Precision.Basic
import FabricConfig.Precision.Encoding
import FabricConfig.Precision.Spec
import FabricConfig.Precision.Spelling
import FabricConfig.Proofs.Command.FileStore
import FabricConfig.Proofs.Command.FileSystem
import FabricConfig.Proofs.Command.Files
import FabricConfig.Proofs.Command.Following
import FabricConfig.Proofs.Command.Frame
import FabricConfig.Proofs.Command.Nulls
import FabricConfig.Proofs.Command.Paths
import FabricConfig.Proofs.Command.Precision
import FabricConfig.Proofs.Command.Respelling
import FabricConfig.Proofs.Command.Running
import FabricConfig.Proofs.Command.WriteBack
import FabricConfig.Proofs.Json.Acceptance
import FabricConfig.Proofs.Json.Denotation
import FabricConfig.Proofs.Json.Filling
import FabricConfig.Proofs.Json.Grammar
import FabricConfig.Proofs.Json.Integers
import FabricConfig.Proofs.Json.Omission
import FabricConfig.Proofs.Json.Reading
import FabricConfig.Proofs.Json.Record
import FabricConfig.Proofs.Json.Scanning
import FabricConfig.Proofs.Json.Splicing
import FabricConfig.Proofs.Json.Tree
import FabricConfig.Proofs.Named
import FabricConfig.Proofs.Precision.Alignment
import FabricConfig.Proofs.Precision.Blanks
import FabricConfig.Proofs.Precision.Encoding
import FabricConfig.Proofs.Precision.Grammar
import FabricConfig.Proofs.Precision.RoundTrip
import FabricConfig.Proofs.Precision.Saturation
import FabricConfig.Proofs.Precision.Tagging
import FabricConfig.Proofs.Precision.Values
import FabricConfig.Proofs.Registry
import FabricConfig.Proofs.Registry.History
import FabricConfig.Proofs.Resolution.Corrections
import FabricConfig.Proofs.Resolution.Dependence
import FabricConfig.Proofs.Resolution.Events
import FabricConfig.Proofs.Resolution.Printed
import FabricConfig.Proofs.Resolution.Stages
import FabricConfig.Proofs.Resolution.Symmetry
import FabricConfig.Proofs.Resolution.Verdict
import FabricConfig.Proofs.Resolution.WellFormed
import FabricConfig.Proofs.Resolution.WriteBack
import FabricConfig.Proofs.Settings.Nulls
import FabricConfig.Proofs.Settings.RoundTrip
import FabricConfig.Proofs.Settings.Source
import FabricConfig.Proofs.Settings.Uninterpreted
import FabricConfig.Proofs.Table
import FabricConfig.Proofs.Text
import FabricConfig.Resolution.Basic
import FabricConfig.Resolution.Encoding
import FabricConfig.Resolution.Resolver
import FabricConfig.Settings.Basic
import FabricConfig.Settings.Encoding
import FabricConfig.Table
import FabricConfig.Text.Blank
import FabricConfig.Text.ByteOrder
import FabricConfig.Text.Decimal
import FabricConfig.Text.Printable
import FabricConfig.Text.Quoted
import FabricConfig.Text.Split
