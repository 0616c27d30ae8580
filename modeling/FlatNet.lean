import FlatNet.Outcome
import FlatNet.Size
import FlatNet.Table
import FlatNet.Binary
import FlatNet.Decimal
import FlatNet.Json.Basic
import FlatNet.Json.Grammar
import FlatNet.Json.Reader
import FlatNet.Bytes
import FlatNet.Scalar
import FlatNet.Tensor.Basic
import FlatNet.Tensor.Spec
import FlatNet.Feature.Basic
import FlatNet.Feature.Pointwise
import FlatNet.Feature.Resize
import FlatNet.Feature.Window
import FlatNet.Graph.Interpreter
import FlatNet.Archive.Basic
import FlatNet.Archive.Reader
import FlatNet.Archive.Writer
import FlatNet.Graph.Text
import FlatNet.Quoted
import FlatNet.Container.Basic
import FlatNet.Container.Codec
import FlatNet.Graph.Samples
import FlatNet.Flat.Basic
import FlatNet.Flat.Decode
import FlatNet.Flat.Description
import FlatNet.Flat.Fragment
import FlatNet.Flat.Lowering
import FlatNet.Flat.Interpreter
import FlatNet.Fidelity
import FlatNet.Files.Path
import FlatNet.Files.Store
import FlatNet.Artifact.Convert
import FlatNet.Artifact.Save
import FlatNet.Artifact.Verify
import FlatNet.Toml.Numeral
import FlatNet.Toml.Document
import FlatNet.Files.Alias
import FlatNet.Pipeline.Config
import FlatNet.Pipeline.Intermediate
import FlatNet.Pipeline.Run
import FlatNet.Command.Arguments
import FlatNet.Command.LogFilter
import FlatNet.Command.Values
import FlatNet.Command.Run
import FlatNet.Main
import FlatNet.Bytes.Hex
import FlatNet.Character.Blank
import FlatNet.Character.Letter
import FlatNet.Proofs.Flat.RoundTrip
import FlatNet.Proofs.Flat.Simulation
import FlatNet.Proofs.Artifact.Persistence
import FlatNet.Proofs.Artifact.Intermediate
import FlatNet.Proofs.Flat.Accepted
import FlatNet.Proofs.Flat.Stored
import FlatNet.Proofs.Pipeline.Effects
import FlatNet.Proofs.Flat.Opening
import FlatNet.Proofs.Flat.Running
import FlatNet.Proofs.Fidelity
import FlatNet.Proofs.Flat.Parameters
import FlatNet.Proofs.Graph.WellFormed
import FlatNet.Proofs.Graph.Dependence
import FlatNet.Proofs.Flat.Declared
import FlatNet.Proofs.Graph.Batch
import FlatNet.Proofs.Graph.Overflow
import FlatNet.Proofs.Graph.Running
import FlatNet.Proofs.Container.Regular
import FlatNet.Proofs.Artifact.Erasure
import FlatNet.Proofs.Flat.Quantized
import FlatNet.Proofs.Order
import FlatNet.Proofs.Flat.Truncation
import FlatNet.Proofs.Flat.Trailing
import FlatNet.Proofs.Flat.DataSection
import FlatNet.Proofs.Flat.Assignment
import FlatNet.Proofs.Flat.Refusals
import FlatNet.Proofs.Comparison
import FlatNet.Proofs.Feature.Pooling
import FlatNet.Proofs.Container.Sizes
import FlatNet.Proofs.Feature.Corners
import FlatNet.Proofs.Feature.Concatenation
