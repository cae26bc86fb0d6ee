import AlternatorClient.Foundation.Bytes

/-! Routing scopes, each with the scope to fall back to. -/
namespace AlternatorClient
open Foundation

/-- `std::shared_ptr<const RoutingScope>`: null, or a scope that owns its fallback. -/
inductive RoutingScopePtr where
  | null
  | cluster
  | datacenter (dc : Bytes) (fallback : RoutingScopePtr)
  | rack (dc rackName : Bytes) (fallback : RoutingScopePtr)
  deriving DecidableEq, Repr

namespace RoutingScopePtr

def isCluster : RoutingScopePtr → Bool
  | .cluster => true
  | _ => false

def toString : RoutingScopePtr → Bytes
  | .null => []
  | .cluster => bytes "Cluster()"
  | .datacenter dc _ => bytes "Datacenter(dc=" ++ dc ++ bytes ")"
  | .rack dc rackName _ => bytes "Rack(dc=" ++ dc ++ bytes ", rack=" ++ rackName ++ bytes ")"

def localNodesQuery : RoutingScopePtr → Bytes
  | .null => []
  | .cluster => []
  | .datacenter dc _ => bytes "dc=" ++ dc
  | .rack dc rackName _ => bytes "dc=" ++ dc ++ bytes "&rack=" ++ rackName

def fallback : RoutingScopePtr → RoutingScopePtr
  | .null => .null
  | .cluster => .null
  | .datacenter _ next => next
  | .rack _ _ next => next

/-- The scopes that `while (scope) { ...; scope = scope->Fallback(); }` visits. -/
def chain : RoutingScopePtr → List RoutingScopePtr
  | .null => []
  | .cluster => [.cluster]
  | .datacenter dc next => .datacenter dc next :: next.chain
  | .rack dc rackName next => .rack dc rackName next :: next.chain

end RoutingScopePtr
end AlternatorClient
