import StubNames.Config.Load
import StubNames.Naming.Table
import StubNames.Schema.Workspace
import StubNames.Proofs.Casing.Cut
import StubNames.Proofs.Casing.Pointwise
import StubNames.Proofs.Schema.Growth
import StubNames.Proofs.Schema.Declaration
import StubNames.Proofs.Schema.Run
import StubNames.Proofs.Schema.Lineage
import StubNames.Proofs.Naming.Nesting
import StubNames.Proofs.Casing.Alphabet
import StubNames.Proofs.Except
import StubNames.Proofs.Identifier.Grammar
import StubNames.Proofs.Naming.TypePath
import StubNames.Proofs.Casing.Image
import StubNames.Proofs.Config.Acceptance
import StubNames.Proofs.Naming.Escape
import StubNames.Proofs.Naming.Legality
import StubNames.Proofs.Schema.FullName
import StubNames.Proofs.Naming.Collision
import StubNames.Proofs.Schema.Catalogue
import StubNames.Proofs.Schema.Closure
import StubNames.Proofs.Schema.Renumbering
import StubNames.Proofs.Schema.Interleaving
import StubNames.Proofs.Naming.Canonical
import StubNames.Proofs.Naming.Alike
import StubNames.Proofs.Naming.Tabulation
import StubNames.Proofs.Naming.Isolation
import StubNames.Proofs.Naming.Failure
import StubNames.Proofs.Naming.OnRequest
import StubNames.Proofs.Schema.Extension
import StubNames.Proofs.Naming.Persistence
import StubNames.Proofs.Schema.Commutation
import StubNames.Proofs.Naming.Reordering
import StubNames.Proofs.Schema.Children
import StubNames.Proofs.Casing.Boundary
import StubNames.Proofs.Casing.Runs
import StubNames.Proofs.Casing.Cutting
import StubNames.Proofs.Casing.Idempotence
import StubNames.Proofs.Casing.Locality
import StubNames.Proofs.Casing.Conservation
import StubNames.Proofs.Config.Reading
import StubNames.Proofs.Config.Validation
import StubNames.Proofs.Toml.Sorted
import StubNames.Proofs.Config.Setting
import StubNames.Proofs.Config.Section
import StubNames.Proofs.Config.Shape
import StubNames.Proofs.Convention
import StubNames.Proofs.Naming.Confinement
import StubNames.Proofs.Identifier.Provenance
import StubNames.Proofs.Config.NormalForm
import StubNames.Proofs.Identifier.Fault
import StubNames.Proofs.Text.Search
import StubNames.Proofs.Suffix
import StubNames.Proofs.Config.Label
