import FirebirdSchema.Interchange.Store
import FirebirdSchema.Json.Printer
import FirebirdSchema.Main
import FirebirdSchema.Proofs.Table
import FirebirdSchema.Proofs.ForeignKey
import FirebirdSchema.Proofs.Content
import FirebirdSchema.Proofs.Characters
import FirebirdSchema.Proofs.Separable
import FirebirdSchema.Proofs.ColumnTypeText
import FirebirdSchema.Proofs.StoreTypes
import FirebirdSchema.Proofs.UniqueReading
import FirebirdSchema.Proofs.ServerFaults
import FirebirdSchema.Proofs.Culprit
import FirebirdSchema.Proofs.Quotation
import FirebirdSchema.Proofs.Validity
import FirebirdSchema.Proofs.Upgrade
import FirebirdSchema.Proofs.Sections
import FirebirdSchema.Proofs.Wording
import FirebirdSchema.Proofs.Growth
import FirebirdSchema.Proofs.Reordering
import FirebirdSchema.Proofs.SelfContained
import FirebirdSchema.Proofs.InternalNames
import FirebirdSchema.Proofs.LineEnding
import FirebirdSchema.Proofs.FullForm
import FirebirdSchema.Proofs.Spelling
import FirebirdSchema.Proofs.SchemaSpelling
import FirebirdSchema.Proofs.Refusal
import FirebirdSchema.Proofs.PairedColumns
import FirebirdSchema.Proofs.Lookup
import FirebirdSchema.Proofs.Markings
import FirebirdSchema.Proofs.OrderedMarkers
import FirebirdSchema.Proofs.Comments
import FirebirdSchema.Proofs.Forms
import FirebirdSchema.Proofs.Replacement
import FirebirdSchema.Proofs.TableSteps
import FirebirdSchema.Proofs.BoundEnds
import FirebirdSchema.Proofs.Numerals
import FirebirdSchema.Proofs.ManifestToken
import FirebirdSchema.Proofs.QuotedNames
import FirebirdSchema.Proofs.Attribution
import FirebirdSchema.Proofs.KeyMembers
