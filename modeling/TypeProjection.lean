import TypeProjection.Descriptor.Basic
import TypeProjection.Descriptor.Decoding
import TypeProjection.Flags
import TypeProjection.Metadata.Attributes
import TypeProjection.Metadata.Handle
import TypeProjection.Metadata.Image
import TypeProjection.Metadata.Kind
import TypeProjection.Metadata.Registry
import TypeProjection.Persist.Forms
import TypeProjection.Persist.Value
import TypeProjection.Projection.Enclosure
import TypeProjection.Projection.Error
import TypeProjection.Projection.Naming
import TypeProjection.Projection.Policy
import TypeProjection.Projection.PrimitiveType
import TypeProjection.Projection.Rendering
import TypeProjection.Projection.Request
import TypeProjection.Projection.Substitutes
import TypeProjection.Projection.Trace
import TypeProjection.Proofs.Signature.IntegerForm
import TypeProjection.Proofs.Signature.Passage
import TypeProjection.Session
import TypeProjection.Signature.Bookmark
import TypeProjection.Signature.Builder
import TypeProjection.Signature.Compressed
import TypeProjection.Signature.Construct
import TypeProjection.Signature.Cursor
import TypeProjection.Signature.Decoder
import TypeProjection.Signature.Dimensions
import TypeProjection.Signature.ElementType
import TypeProjection.Signature.Error
import TypeProjection.Signature.Method
import TypeProjection.Signature.Primitive
import TypeProjection.Signature.Run
import TypeProjection.Signature.Spelling
import TypeProjection.Signature.Step
import TypeProjection.Source.DottedName
import TypeProjection.Source.Keyword
import TypeProjection.Source.TypeExpr
import TypeProjection.Text.Blank
import TypeProjection.Text.Numeral
import TypeProjection.Proofs.Signature.Exactness
import TypeProjection.Proofs.Signature.Simulation
import TypeProjection.Proofs.Signature.Faults
import TypeProjection.Proofs.Signature.Attribution
import TypeProjection.Proofs.Projection.LeafRendering
import TypeProjection.Proofs.Projection.Accounting
import TypeProjection.Proofs.Projection.Qualification
import TypeProjection.Proofs.Signature.SelfDelimiting
import TypeProjection.Proofs.Descriptor.RoundTrip
import TypeProjection.Proofs.Projection.Orthogonality
import TypeProjection.Proofs.Signature.Displacement
import TypeProjection.Proofs.Signature.Resumption
import TypeProjection.Proofs.Projection.Visibility
import TypeProjection.Proofs.Projection.Failure
import TypeProjection.Proofs.Metadata.Growth
import TypeProjection.Proofs.Projection.InOrder
import TypeProjection.Proofs.Metadata.Refinement
import TypeProjection.Proofs.Projection.Persistence
import TypeProjection.Proofs.Signature.EntryPoints
import TypeProjection.Proofs.Projection.Wrapping
import TypeProjection.Proofs.Signature.IntegerReading
import TypeProjection.Proofs.Signature.Answers
import TypeProjection.Proofs.Signature.Callbacks
import TypeProjection.Proofs.Signature.Annotation
import TypeProjection.Proofs.Signature.Scanning
import TypeProjection.Proofs.Signature.Refusals
import TypeProjection.Proofs.Signature.SignedReading
import TypeProjection.Proofs.Text.Joining
import TypeProjection.Proofs.Source.NameReading
import TypeProjection.Proofs.Projection.Unambiguity
import TypeProjection.Proofs.Projection.Tracing
import TypeProjection.Proofs.Projection.RequestHistory
import TypeProjection.Proofs.Projection.LastEntry
import TypeProjection.Proofs.Text.Hexadecimal
import TypeProjection.Proofs.Metadata.Tokens
import TypeProjection.Proofs.Persist.FlagTexts
import TypeProjection.Proofs.Text.Trimming
import TypeProjection.Proofs.Signature.Bookmarking
import TypeProjection.Proofs.Descriptor.Identification
import TypeProjection.Proofs.Session
