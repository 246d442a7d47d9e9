import PropertyWeaver.Code.Opcode
import PropertyWeaver.Number.Shortest
import PropertyWeaver.Text.Quoted
import PropertyWeaver.Signature.Binding
import PropertyWeaver.Signature.Member
import PropertyWeaver.Module.Basic
import PropertyWeaver.Image.Reader
import PropertyWeaver.Image.Checksum
import PropertyWeaver.Image.Digest
import PropertyWeaver.Image.Basic
import PropertyWeaver.Code.Assembly
import PropertyWeaver.Code.Literal
import PropertyWeaver.Verification.Depth
import PropertyWeaver.Module.Comparison
import PropertyWeaver.Configuration.Reading
import PropertyWeaver.Metadata.Member
import PropertyWeaver.Weaving.File
import PropertyWeaver.Proofs.Image.RoundTrip
import PropertyWeaver.Proofs.Image.Bounds
import PropertyWeaver.Proofs.Image.Corruption
import PropertyWeaver.Proofs.Image.Delimitation
import PropertyWeaver.Proofs.Image.NormalForm
import PropertyWeaver.Proofs.Image.Varints
import PropertyWeaver.Proofs.Verification.Diagnosis
import PropertyWeaver.Proofs.Code.ControlFlow
import PropertyWeaver.Proofs.Code.Labels
import PropertyWeaver.Proofs.Code.Fixups
import PropertyWeaver.Proofs.Execution.Literals
import PropertyWeaver.Proofs.Weaving.SetterSemantics
import PropertyWeaver.Proofs.Weaving.VerifiedBodies
import PropertyWeaver.Proofs.Weaving.Initialisation
import PropertyWeaver.Proofs.Metadata.Extension
import PropertyWeaver.Proofs.Metadata.References
import PropertyWeaver.Proofs.Weaving.Extension
import PropertyWeaver.Proofs.Weaving.Links
import PropertyWeaver.Proofs.Weaving.Composition
import PropertyWeaver.Proofs.Weaving.EmittedReferences
import PropertyWeaver.Proofs.Weaving.MappingFields
import PropertyWeaver.Proofs.Weaving.Replay
import PropertyWeaver.Proofs.Weaving.Queries
import PropertyWeaver.Proofs.Weaving.Planning
import PropertyWeaver.Proofs.Weaving.Reweaving
import PropertyWeaver.Proofs.Weaving.PassFrame
import PropertyWeaver.Proofs.Weaving.RoutedProperties
import PropertyWeaver.Proofs.Weaving.ConstructorPreludes
import PropertyWeaver.Proofs.Weaving.FieldReferences
import PropertyWeaver.Proofs.Weaving.QueryOverrides
import PropertyWeaver.Proofs.Weaving.ReferenceTable
import PropertyWeaver.Proofs.Storage.Names
import PropertyWeaver.Proofs.Storage.Files
import PropertyWeaver.Proofs.Weaving.WovenFiles
import PropertyWeaver.Proofs.Metadata.Within
import PropertyWeaver.Proofs.Metadata.Levels
import PropertyWeaver.Proofs.Weaving.EmittedScopes
import PropertyWeaver.Proofs.Weaving.WovenImages
import PropertyWeaver.Proofs.Storage.Preloading
import PropertyWeaver.Proofs.Weaving.SecondCall
import PropertyWeaver.Proofs.Weaving.DeclarationOrder
import PropertyWeaver.Proofs.Weaving.Precedence
import PropertyWeaver.Proofs.Weaving.BaseChains
import PropertyWeaver.Weaving.Run
import PropertyWeaver.Proofs.Weaving.Range
import PropertyWeaver.Proofs.Storage.Closure
import PropertyWeaver.Proofs.Weaving.Trace
import PropertyWeaver.Proofs.Module.Renewal
import PropertyWeaver.Proofs.Weaving.Reports
import PropertyWeaver.Proofs.Signature.Qualification
