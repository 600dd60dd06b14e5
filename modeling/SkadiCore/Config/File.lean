import SkadiCore.Server.AuthRateLimit
import SkadiCore.Server.Store
import SkadiCore.Xhttp.Request

/-!
# The configuration file

Model of the data types that the configuration file is deserialised to
(`crates/skadi-config/src/lib.rs`, lines 17-696), with the values of `Default`.

`ProtocolConfig` and `AuthRateLimitConfig` are those of the store and of the limiter.
-/

namespace SkadiCore.Config

open SkadiCore.Server (ProtocolConfig AuthRateLimitConfig)

structure MetricsConfig where
  enabled : Bool := false
  listen : String := "127.0.0.1:9090"

structure ApiTlsConfig where
  enabled : Bool := false
  cert : Option String := none
  key : Option String := none

structure ApiConfig where
  enabled : Bool := false
  listen : String := "127.0.0.1:10085"
  token : Option String := none
  tls : ApiTlsConfig := {}
  rateLimitPerSec : Option UInt32 := none

structure ListenAddrs where
  addrs : List String := ["127.0.0.1:0"]

structure ServerTimeoutsConfig where
  connectTimeoutSecs : UInt64 := 10
  idleTimeoutSecs : Option UInt64 := none
  maxSessionLifetimeSecs : Option UInt64 := none

def defaultAuthRateLimit : AuthRateLimitConfig where
  enabled := true
  maxFailures := some 10
  windowSecs := 600
  banBaseSecs := 60
  banMaxSecs := 3600

structure ServerConfig where
  listen : ListenAddrs := {}
  timeouts : ServerTimeoutsConfig := {}
  maxConnections : Option UInt32 := none
  authRateLimit : AuthRateLimitConfig := defaultAuthRateLimit

def defaultProtocol : ProtocolConfig where
  socks5Enabled := false
  socks5 := ⟨.noAuth, [], false, false⟩
  vless := ⟨false, []⟩

structure OutboundTlsConfig where
  enabled : Bool := false
  caFile : Option String := none
  cert : Option String := none
  key : Option String := none
  kexMode : String := "classic"

structure OutboundConfig where
  tls : OutboundTlsConfig := {}
  allowPrivate : Bool := false

structure XhttpFileConfig where
  enabled : Bool := false
  path : String := "/xhttp"
  host : Option String := none
  mode : String := "auto"
  noSseHeader : Bool := false
  xPaddingBytes : Option (UInt32 × UInt32) := none

structure AwgNatFileConfig where
  enabled : Bool := false
  egressInterface : Option String := none
  subnet : String := ""

structure AwgPeerFileConfig where
  publicKey : String
  allowedIps : List String := []
  presharedKey : Option String := none
  endpoint : Option String := none
  persistentKeepalive : Option UInt16 := none

structure AwgFileConfig where
  enabled : Bool := false
  listen : String := "0.0.0.0:51820"
  interface : String := "skadiwg0"
  privateKey : Option String := none
  address : String := "10.8.0.1/24"
  mtu : Option UInt16 := some 1420
  jc : UInt8 := 8
  jmin : UInt16 := 64
  jmax : UInt16 := 1024
  s1 : UInt8 := 32
  s2 : UInt8 := 32
  s3 : UInt8 := 16
  s4 : UInt8 := 16
  h1 : String := "1-10000000"
  h2 : String := "10000001-20000000"
  h3 : String := "20000001-30000000"
  h4 : String := "30000001-40000000"
  peers : List AwgPeerFileConfig := []
  nat : AwgNatFileConfig := {}

structure Hysteria2FileConfig where
  enabled : Bool := false
  listen : String := ":443"
  password : Option String := none
  cert : Option String := none
  key : Option String := none
  masqueradeUrl : Option String := none

structure TuicFileConfig where
  enabled : Bool := false
  listen : String := "0.0.0.0:8443"
  uuid : Option String := none
  password : Option String := none
  certificate : Option String := none
  privateKey : Option String := none
  congestionControl : String := "bbr"
  alpn : List String := ["h3"]

structure TlsSniCertConfig where
  serverNames : List String
  cert : String
  key : String

structure TlsConfig where
  enabled : Bool := false
  cert : Option String := none
  key : Option String := none
  alpn : List String := []
  certificates : List TlsSniCertConfig := []
  kexMode : String := "classic"

structure RealityConfig where
  enabled : Bool := false
  dest : Option String := none
  serverNames : List String := []
  privateKey : Option String := none
  shortIds : List String := []
  impersonateCert : Option String := none
  fetchImpersonateCert : Bool := true
  kexMode : String := "classic"

structure TransportConfig where
  tls : TlsConfig := {}
  reality : RealityConfig := {}
  xhttp : XhttpFileConfig := {}
  awg : AwgFileConfig := {}
  hysteria2 : Hysteria2FileConfig := {}
  tuic : TuicFileConfig := {}

end SkadiCore.Config

namespace SkadiCore

structure Config where
  server : Config.ServerConfig := {}
  protocol : Server.ProtocolConfig := Config.defaultProtocol
  transport : Config.TransportConfig := {}
  api : Config.ApiConfig := {}
  metrics : Config.MetricsConfig := {}
  outbound : Config.OutboundConfig := {}

end SkadiCore
