import CenterOfMass.Analysis.Basic
import CenterOfMass.Analysis.Package
import CenterOfMass.Analysis.ResultSet
import CenterOfMass.Analysis.Settings
import CenterOfMass.Command.Arguments
import CenterOfMass.Command.Run
import CenterOfMass.Decimal.Literal
import CenterOfMass.Decimal.Shortest
import CenterOfMass.Exchange.Input
import CenterOfMass.Exchange.Parameters
import CenterOfMass.Exchange.RawData
import CenterOfMass.Exchange.Scan
import CenterOfMass.Exchange.Settings
import CenterOfMass.Export
import CenterOfMass.Failure
import CenterOfMass.Field.Basic
import CenterOfMass.Field.Derivative
import CenterOfMass.Field.Shift
import CenterOfMass.Files.Basic
import CenterOfMass.Files.Tree
import CenterOfMass.Grid
import CenterOfMass.Image.Basic
import CenterOfMass.Image.ColorTable
import CenterOfMass.Image.Colormap
import CenterOfMass.Image.Render
import CenterOfMass.Image.Wheel
import CenterOfMass.Json.Basic
import CenterOfMass.Json.Decode
import CenterOfMass.Json.Draft
import CenterOfMass.Json.Parser
import CenterOfMass.Json.Printer
import CenterOfMass.Json.Text
import CenterOfMass.Main
import CenterOfMass.Maps.Element
import CenterOfMass.Maps.Frames
import CenterOfMass.Maps.Mask
import CenterOfMass.Maps.Reduction
import CenterOfMass.Numeric.Complex
import CenterOfMass.Numeric.Double
import CenterOfMass.Numeric.Hypot
import CenterOfMass.Numeric.Scalar
import CenterOfMass.Numeric.Sizes
import CenterOfMass.Numeric.Word
import CenterOfMass.Png.Bytes
import CenterOfMass.Png.Checksum
import CenterOfMass.Png.Chunk
import CenterOfMass.Png.Encoder
import CenterOfMass.Png.Palette
import CenterOfMass.Png.Reader
import CenterOfMass.Png.Writer
import CenterOfMass.Png.Zlib
import CenterOfMass.Proofs.Analysis.Basic
import CenterOfMass.Proofs.Analysis.CenterOfMass
import CenterOfMass.Proofs.Analysis.Disc
import CenterOfMass.Proofs.Analysis.NoMass
import CenterOfMass.Proofs.Analysis.Presentation
import CenterOfMass.Proofs.Analysis.ResultSet
import CenterOfMass.Proofs.Analysis.SetUp
import CenterOfMass.Proofs.Analysis.Shown
import CenterOfMass.Proofs.Analysis.Stack
import CenterOfMass.Proofs.Command.Images
import CenterOfMass.Proofs.Command.Run
import CenterOfMass.Proofs.Command.Values
import CenterOfMass.Proofs.Exchange.Parameters
import CenterOfMass.Proofs.Exchange.RawData
import CenterOfMass.Proofs.Export
import CenterOfMass.Proofs.Field.Accuracy
import CenterOfMass.Proofs.Field.CenterEquation
import CenterOfMass.Proofs.Field.ComplexShift
import CenterOfMass.Proofs.Field.Embedding
import CenterOfMass.Proofs.Field.Kernel
import CenterOfMass.Proofs.Field.Locality
import CenterOfMass.Proofs.Field.Potential
import CenterOfMass.Proofs.Field.Transpose
import CenterOfMass.Proofs.Files.Path
import CenterOfMass.Proofs.Files.Tree
import CenterOfMass.Proofs.Image.AutoScale
import CenterOfMass.Proofs.Image.Logarithm
import CenterOfMass.Proofs.Image.Neutral
import CenterOfMass.Proofs.Image.Rearranged
import CenterOfMass.Proofs.Image.Rows
import CenterOfMass.Proofs.Image.Stretch
import CenterOfMass.Proofs.Json.Compact
import CenterOfMass.Proofs.Json.Record
import CenterOfMass.Proofs.Keyed
import CenterOfMass.Proofs.Maps.DiscMasks
import CenterOfMass.Proofs.Numeric.DoubleExact
import CenterOfMass.Proofs.Numeric.DoubleOrder
import CenterOfMass.Proofs.Numeric.DoubleValue
import CenterOfMass.Proofs.Numeric.Order
import CenterOfMass.Proofs.Numeric.Rounding
import CenterOfMass.Proofs.Numeric.Single
import CenterOfMass.Proofs.Numeric.Unpacked
import CenterOfMass.Proofs.Png.Admitted
import CenterOfMass.Proofs.Png.Buffer
import CenterOfMass.Proofs.Png.Container
import CenterOfMass.Proofs.Png.Palette
import CenterOfMass.Proofs.Png.RoundTrip
import CenterOfMass.Proofs.Png.Sizes
import CenterOfMass.Proofs.Png.Zlib
import CenterOfMass.Scan.Parameters
import CenterOfMass.Scan.Shape
