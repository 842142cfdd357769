import Peering.Lookup.Query

/-!
# Options of a resolution
-/

namespace Peering

/-- What a resolution needs to know beyond the endpoint. -/
structure ResolveOptions where
  /-- The address family to ask for. -/
  protocol : Protocol
  /-- The hints for the lookup. -/
  flags : FlagSet
  /-- The service of an endpoint that names none. -/
  defaultService : String
deriving DecidableEq

namespace ResolveOptions

/-- The service of endpoints and configurations that name none. -/
def standardService : String := "12000"

/-- The options that hold where nothing else is said. -/
def default : ResolveOptions := ⟨.unspecified, .default, standardService⟩

instance : Inhabited ResolveOptions := ⟨default⟩

end ResolveOptions

end Peering
