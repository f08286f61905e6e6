import ShaderIntake.Container.Build
import ShaderIntake.Container.Checksum
import ShaderIntake.Container.Summary
import ShaderIntake.Float4
import ShaderIntake.Folder
import ShaderIntake.Inspection
import ShaderIntake.Main
import ShaderIntake.Program.Build
import ShaderIntake.Proofs.Bytes
import ShaderIntake.Proofs.Container.Grammar
import ShaderIntake.Proofs.Container.Chunks
import ShaderIntake.Proofs.Container.RoundTrip
import ShaderIntake.Proofs.Md5.Streaming
import ShaderIntake.Proofs.Container.Checksum
import ShaderIntake.Proofs.Loader.Diagnosis
import ShaderIntake.Proofs.Container.Extent
import ShaderIntake.Proofs.Container.Directory
import ShaderIntake.Proofs.Container.Signing
import ShaderIntake.Proofs.Container.BuildSigned
import ShaderIntake.Proofs.Loader.Signing
import ShaderIntake.Proofs.Binary32.Nearest
import ShaderIntake.Proofs.Binary32.Rounding
import ShaderIntake.Proofs.Float4.MulAdd
import ShaderIntake.Proofs.Binary32.SpecialValues
import ShaderIntake.Proofs.Float4.SpecialValues
import ShaderIntake.Proofs.Float4.Registers
import ShaderIntake.Proofs.Binary32.Order
import ShaderIntake.Proofs.Float4.Monotone
import ShaderIntake.Proofs.Binary32.Negation
import ShaderIntake.Proofs.Float4.Symmetry
import ShaderIntake.Proofs.Loader.Message
import ShaderIntake.Proofs.Report.Agreement
import ShaderIntake.Proofs.Container.Inspected
import ShaderIntake.Proofs.Container.Locality
import ShaderIntake.Proofs.Loader.Opaque
import ShaderIntake.Proofs.Faulting.Container
import ShaderIntake.Proofs.Faulting.Program
import ShaderIntake.Proofs.Faulting.Inspection
import ShaderIntake.Proofs.Program.FirstFault
import ShaderIntake.Proofs.Program.RoundTrip
import ShaderIntake.Proofs.Loader.Recognition
import ShaderIntake.Proofs.FourCC.Text
import ShaderIntake.Proofs.Report.Containment
import ShaderIntake.Proofs.Report.Layout
import ShaderIntake.Proofs.Json.Grammar
import ShaderIntake.Proofs.Json.Unambiguous
import ShaderIntake.Proofs.Json.Digits
import ShaderIntake.Proofs.Json.Pretty
import ShaderIntake.Proofs.Json.Numerals
import ShaderIntake.Proofs.Decimal.Value
import ShaderIntake.Proofs.Decimal.Layout
import ShaderIntake.Proofs.Binary32.Reading
import ShaderIntake.Proofs.Binary32.Shortest
import ShaderIntake.Proofs.Binary32.Text
import ShaderIntake.Proofs.Float4.Text
import ShaderIntake.Proofs.Report.Lossless
import ShaderIntake.Proofs.Report.Summary
import ShaderIntake.Proofs.Container.Patching
import ShaderIntake.Proofs.Container.Reordering
import ShaderIntake.Proofs.Loader.Reordering
import ShaderIntake.Proofs.Report.Trace
import ShaderIntake.Proofs.Text
import ShaderIntake.Proofs.FourCC.Escapes
import ShaderIntake.Proofs.Container.Summary
import ShaderIntake.Proofs.Loader.Printable
import ShaderIntake.Proofs.Report.Lines
import ShaderIntake.Proofs.Loader.Version
import ShaderIntake.Proofs.CommandLine.Size
import ShaderIntake.Proofs.CommandLine.Items
import ShaderIntake.Proofs.CommandLine.Judging
import ShaderIntake.Proofs.CommandLine.Order
