import Peering.Resolver.HostSystem
import Peering.Resolver.NameServer
import Peering.Resolver.Overrides
import Peering.Resolver.Scripted

/-!
# Resolvers

A resolver is a stack of layers over a bottom. A layer is a table of overrides or a handle that shares the resolver
below it and changes nothing. The source of a resolver (`Resolver.source`) depends on what is outside: the network, the
client of a name server, and the script that stands at the moment.
-/

namespace Peering

/-- What the bottom of a resolver is. -/
inductive Bottom where
  | system
  | nameServer
  /-- A script that can only be awaited. -/
  | scripted
  /-- A script that keeps completions. -/
  | holding
deriving DecidableEq

/-- A layer of a resolver. -/
inductive Layer where
  | overrides (table : OverrideTable)
  | shared

/-- Layers, the outermost first, over a bottom. -/
structure Resolver where
  layers : List Layer
  bottom : Bottom

/-- What is outside of a resolver. -/
structure Surroundings where
  network : Network
  client : NameServer.Client
  script : Script

/-- The bottom as a source. -/
def Bottom.source {κ : Type} (env : Surroundings) : Bottom → Source κ
  | system => HostSystem.source env.network
  | nameServer => NameServer.source env.client
  | scripted => env.script.source
  | holding => env.script.holdingSource

/-- A source with a layer over it. -/
def Layer.over {κ : Type} : Layer → Source κ → Source κ
  | overrides t, s => s.overriding t
  | shared, s => s

namespace Resolver

/-- The resolver as a source. -/
def source {κ : Type} (env : Surroundings) (r : Resolver) : Source κ := r.layers.foldr Layer.over (r.bottom.source env)

/-- The outermost table of overrides. -/
def outerTable? (r : Resolver) : Option OverrideTable :=
  r.layers.findSome? fun
    | .overrides t => some t
    | .shared => none

end Resolver

end Peering
