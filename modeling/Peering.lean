import Peering.Config.File
import Peering.Diagnostic
import Peering.Lookup.Cursor
import Peering.Session.Step
import Peering.Proofs.PortNumbers
import Peering.Proofs.LetterCase
import Peering.Proofs.ServiceNames
import Peering.Proofs.FlagNames
import Peering.Proofs.EqualTexts
import Peering.Proofs.AddressText
import Peering.Proofs.EndpointText
import Peering.Proofs.ConfigDocument
import Peering.Proofs.OverrideStack
import Peering.Proofs.Deliveries
import Peering.Proofs.Agreement
import Peering.Proofs.SessionSteps
import Peering.Proofs.Completions
import Peering.Proofs.AskedQueries
import Peering.Proofs.LiteralEndpoints
import Peering.Proofs.ContactResolution
import Peering.Proofs.JsonGrammar
import Peering.Proofs.SocketText
import Peering.Proofs.SkippedValues
import Peering.Proofs.TypedReaders
import Peering.Proofs.PartialDocuments
import Peering.Proofs.SkippedTexts
import Peering.Proofs.ShapedAddresses
import Peering.Proofs.FlagDependence
import Peering.Proofs.NumericHostnames
import Peering.Proofs.RefusedEndpoints
import Peering.Proofs.CursorRuns
import Peering.Proofs.GuardRuns
