import Peering.Endpoint.Text
import Peering.Lookup.Options

/-!
# Peer configurations
-/

namespace Peering

/-- Where a peer listens, whom it contacts, and how names are resolved. -/
structure PeerConfig where
  listenOn : Endpoint
  contacts : List Endpoint
  resolve : ResolveOptions
deriving DecidableEq

namespace PeerConfig

/-- The endpoint to listen on where none is given: every local interface, at the standard port. -/
def standardListenOn : Endpoint := .ipv4 .unspecified none

/-- The configuration that holds where nothing else is said. -/
def default : PeerConfig := ⟨standardListenOn, [], .default⟩

instance : Inhabited PeerConfig := ⟨default⟩

end PeerConfig

end Peering
