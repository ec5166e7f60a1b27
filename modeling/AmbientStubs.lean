import AmbientStubs.Main
import AmbientStubs.Proofs.Catalog
import AmbientStubs.Proofs.Package.Insertion
import AmbientStubs.Proofs.Text.Pieces
import AmbientStubs.Proofs.Package.Growth
import AmbientStubs.Proofs.Package.Uses
import AmbientStubs.Proofs.Package.Model
import AmbientStubs.Proofs.Package.Exactness
import AmbientStubs.Proofs.Declaration.Outline
import AmbientStubs.Proofs.Declaration.Reading
import AmbientStubs.Proofs.Declaration.Legible
import AmbientStubs.Proofs.Declaration.File
import AmbientStubs.Proofs.Declaration.Entries
import AmbientStubs.Proofs.Package.Legible
import AmbientStubs.Proofs.Declaration.Groups
import AmbientStubs.Proofs.Declaration.Unambiguous
import AmbientStubs.Proofs.Access.Chain
import AmbientStubs.Proofs.Import.Legible
import AmbientStubs.Proofs.Package.Collected
import AmbientStubs.Proofs.Declaration.Paths
import AmbientStubs.Proofs.Package.Survival
import AmbientStubs.Proofs.Package.Origins
import AmbientStubs.Proofs.Package.StaticCalls
import AmbientStubs.Proofs.Declaration.Bodies
import AmbientStubs.Proofs.Declaration.Location
import AmbientStubs.Proofs.Package.MethodBodies
import AmbientStubs.Proofs.Declaration.References
import AmbientStubs.Proofs.Package.References
import AmbientStubs.Proofs.Package.Attribution
import AmbientStubs.Proofs.Declaration.Levels
import AmbientStubs.Proofs.Declaration.Renaming
import AmbientStubs.Proofs.Declaration.RenamedLayout
import AmbientStubs.Proofs.Package.RenamedUses
import AmbientStubs.Proofs.Package.Aliases
import AmbientStubs.Proofs.Package.FileOrder
import AmbientStubs.Proofs.Package.RepeatedFiles
import AmbientStubs.Proofs.Package.ImportedOwners
import AmbientStubs.Proofs.Declaration.Scopes
import AmbientStubs.Proofs.Package.MergedDeclarations
import AmbientStubs.Proofs.Access.WellFormed
import AmbientStubs.Proofs.Package.Intake
import AmbientStubs.Proofs.JsonValue.Scalar
import AmbientStubs.Proofs.JsonValue.Tokens
import AmbientStubs.Proofs.JsonValue.RoundTrip
import AmbientStubs.Proofs.FileTree
import AmbientStubs.Proofs.PathText
import AmbientStubs.Proofs.FileStore
import AmbientStubs.Proofs.FileAction
import AmbientStubs.Proofs.StubPackage
import AmbientStubs.Proofs.Manifest
import AmbientStubs.Proofs.Run.Effects
import AmbientStubs.Proofs.Run.Containment
import AmbientStubs.Proofs.Run.Stubs
import AmbientStubs.Proofs.Run.ModuleManifest
import AmbientStubs.Proofs.Binary64
import AmbientStubs.Proofs.JsonValue.Double
import AmbientStubs.Proofs.JsonValue.Separators
import AmbientStubs.Proofs.FileStore.Growth
import AmbientStubs.Proofs.FileTree.Listing
import AmbientStubs.Proofs.Discovery
import AmbientStubs.Proofs.StubPackage.Repetition
import AmbientStubs.Proofs.Manifest.Patch
import AmbientStubs.Proofs.Run.Options
import AmbientStubs.Proofs.Run.Repetition
import AmbientStubs.Proofs.Text.Readers
import AmbientStubs.Proofs.Import.Grammar
import AmbientStubs.Proofs.Access.Recording
import AmbientStubs.Proofs.Access.Places
import AmbientStubs.Proofs.Access.StrongestUses
import AmbientStubs.Proofs.SourceSummary.References
import AmbientStubs.Proofs.SourceSummary.ImportLines
import AmbientStubs.Proofs.Text.Tidy
import AmbientStubs.Proofs.Export.Grammar
import AmbientStubs.Proofs.Export.Signatures
import AmbientStubs.Proofs.Text.ByteOrder
import AmbientStubs.Proofs.PathText.Components
import AmbientStubs.Proofs.Discovery.Distinct
import AmbientStubs.Proofs.Discovery.Order
import AmbientStubs.Proofs.Discovery.Thinning
import AmbientStubs.Proofs.FileStore.Removal
import AmbientStubs.Proofs.Run.Unreadable
import AmbientStubs.Proofs.Run.References
import AmbientStubs.Proofs.Declaration.Depth
import AmbientStubs.Proofs.Declaration.Nesting
import AmbientStubs.Proofs.Package.Index
import AmbientStubs.Proofs.Package.Nesting
import AmbientStubs.Proofs.Export.Forms
import AmbientStubs.Proofs.Export.Patterns
