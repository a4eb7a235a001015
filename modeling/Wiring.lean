import Wiring.Main
import Wiring.Proofs.OwnerIndependence
import Wiring.Proofs.Injection
import Wiring.Proofs.Sessions
import Wiring.Proofs.Reruns
import Wiring.Proofs.OwnerFiles
import Wiring.Proofs.FieldLines
import Wiring.Proofs.FirstMisuse
import Wiring.Proofs.DeclarationOrder
import Wiring.Proofs.ManifestForms
import Wiring.Proofs.EmissionOrder
import Wiring.Proofs.Interchange
import Wiring.Proofs.HandingOver
import Wiring.Proofs.Identifiers
import Wiring.Proofs.BareNames
import Wiring.Proofs.LeastClaims
import Wiring.Proofs.TypeNotation
import Wiring.Proofs.Scopes
import Wiring.Proofs.InsideRoot
import Wiring.Proofs.GroupTables
import Wiring.Proofs.MarkedSymbols
import Wiring.Proofs.Batches
import Wiring.Proofs.ImportUse
import Wiring.Proofs.Indentation
import Wiring.Proofs.Capabilities
import Wiring.Proofs.Relisting
import Wiring.Proofs.LayeredSettings
import Wiring.Proofs.ColourCodes
import Wiring.Proofs.LiteralTexts
import Wiring.Proofs.NameTokens
import Wiring.Proofs.WalkOrder
