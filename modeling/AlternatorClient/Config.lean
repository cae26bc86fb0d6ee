import AlternatorClient.HttpCompression
import AlternatorClient.NodeHealth
import AlternatorClient.RoutingScope

/-! `Config` and `ValidateConfig`. Periods are in milliseconds, the session
timeout in seconds. -/
namespace AlternatorClient
open Foundation

structure KeyRouteAffinityConfig where
  partitionKeyDiscoveryAttempts : UInt32 := 3
  partitionKeyDiscoveryInitialBackoff : Int := 100

structure Config where
  port : UInt16 := 8080
  scheme : Bytes := bytes "http"
  routingScope : RoutingScopePtr := .cluster
  nodesListUpdatePeriod : Int := 1000
  idleNodesListUpdatePeriod : Int := 60000
  tlsSessionCacheEnabled : Bool := true
  tlsSessionCacheSize : UInt32 := 1024
  tlsSessionTimeout : Int := 86400
  maxConnections : UInt32 := 100
  requestCompressor : Option HttpRequestCompressor := none
  contentEncodingDecoders : List (Option HttpContentEncodingDecoder) := []
  nodeHealth : NodeHealthStoreConfig := {}
  keyRouteAffinity : KeyRouteAffinityConfig := {}

def Config.nodeUrl (config : Config) (node : Bytes) : Url :=
  { scheme := config.scheme, host := node, port := config.port }

def validateTlsSessionCache (config : Config) : Except Error Unit :=
  if config.tlsSessionCacheEnabled then
    if config.tlsSessionCacheSize = 0 then
      .error (.invalidArgument
        (bytes "tls_session_cache_size must be > 0 when TLS session cache is enabled"))
    else if config.tlsSessionTimeout ≤ 0 then
      .error (.invalidArgument
        (bytes "tls_session_timeout must be > 0 when TLS session cache is enabled"))
    else .ok ()
  else .ok ()

def validateConfig (config : Config) : Except Error Unit :=
  if config.scheme ≠ bytes "http" ∧ config.scheme ≠ bytes "https" then
    .error (.invalidArgument (bytes "scheme must be http or https"))
  else if config.port = 0 then .error (.invalidArgument (bytes "port must be > 0"))
  else if config.routingScope = .null then
    .error (.invalidArgument (bytes "routing_scope must not be null"))
  else if config.maxConnections = 0 then
    .error (.invalidArgument (bytes "max_connections must be > 0"))
  else
    match buildRequestContentEncodingValue config.requestCompressor with
    | .error error => .error error
    | .ok _ =>
      match buildAcceptEncodingValue config.contentEncodingDecoders with
      | .error error => .error error
      | .ok _ =>
        if config.keyRouteAffinity.partitionKeyDiscoveryAttempts = 0 then
          .error (.invalidArgument (bytes "partition_key_discovery_attempts must be > 0"))
        else if config.keyRouteAffinity.partitionKeyDiscoveryInitialBackoff < 0 then
          .error (.invalidArgument (bytes "partition_key_discovery_initial_backoff must be >= 0"))
        else validateTlsSessionCache config

/-- What the routing logic relies on: the scheme is one of two, the port is set
and there is a scope to ask. -/
theorem validateConfig_routing {config : Config} (valid : validateConfig config = .ok ()) :
    (config.scheme = bytes "http" ∨ config.scheme = bytes "https") ∧ config.port ≠ 0 ∧
      config.routingScope ≠ .null := by
  simp only [validateConfig] at valid
  split at valid
  · contradiction
  · rename_i scheme
    split at valid
    · contradiction
    · rename_i port
      split at valid
      · contradiction
      · rename_i scope
        exact ⟨by tauto, port, scope⟩

/-- The defaults are a valid configuration. -/
example : (validateConfig {}).isOk = true := by decide +kernel

end AlternatorClient
