import Mathlib.Data.List.Lattice
import Mathlib.Data.List.Nodup
import Mathlib.Data.List.Sort
import Mathlib.Data.String.Basic
import Mathlib.Tactic.Common
import Mathlib.Tactic.Linarith

/-! # Constants and enumerations -/

namespace HexRift

/-! ## Schema enumerations -/

inductive RegionType where
  | exit
  | hub
  deriving DecidableEq, Repr

def RegionType.value : RegionType → String
  | .exit => "exit"
  | .hub => "hub"

/-- User access types, used in `users[].access`. -/
inductive AccessType where
  | xhttp
  | tls
  | server
  | cdn
  | proxy
  | wireguard
  | xdns
  | hysteria
  deriving DecidableEq, Repr

def AccessType.value : AccessType → String
  | .xhttp => "xhttp"
  | .tls => "tls"
  | .server => "server"
  | .cdn => "cdn"
  | .proxy => "proxy"
  | .wireguard => "wireguard"
  | .xdns => "xdns"
  | .hysteria => "hysteria"

/-- Access types whose inbound identity carries `userEmail` for routing rules to match on. -/
def routableAccess : List AccessType :=
  [.xhttp, .tls, .cdn, .xdns, .wireguard, .hysteria]

inductive ExitProtocol where
  | vless
  | hysteria
  deriving DecidableEq, Repr

def ExitProtocol.value : ExitProtocol → String
  | .vless => "vless"
  | .hysteria => "hysteria"

inductive HysteriaKeyType where
  | ed25519
  | ecdsaP256
  deriving DecidableEq, Repr

def HysteriaKeyType.supportsChromeParrot (k : HysteriaKeyType) : Bool :=
  k ≠ .ed25519

inductive HysteriaCongestion where
  | bbr
  | brutal
  deriving DecidableEq, Repr

/-- Load balancer node roles; a node without one is a primary. -/
inductive LbRole where
  | backup
  deriving DecidableEq, Repr

def LbRole.value : LbRole → String
  | .backup => "backup"

inductive LbStrategy where
  | random
  | roundRobin
  | leastPing
  | leastLoad
  deriving DecidableEq, Repr

def LbStrategy.value : LbStrategy → String
  | .random => "random"
  | .roundRobin => "roundRobin"
  | .leastPing => "leastPing"
  | .leastLoad => "leastLoad"

inductive TlsFingerprint where
  | chrome
  | firefox
  | safari
  | ios
  | android
  | edge
  | fp360
  | qq
  | random
  | randomized
  deriving DecidableEq, Repr

inductive AuthMethod where
  | mlkem768
  | x25519
  deriving DecidableEq, Repr

inductive HandshakeMethod where
  | mlkem768
  deriving DecidableEq, Repr

inductive LogLevel where
  | none
  | debug
  | info
  | warning
  | error
  deriving DecidableEq, Repr

/-! ## Transports -/

/-- Layer-4 transport a listener occupies. -/
inductive Transport where
  | tcp
  | udp
  deriving DecidableEq, Repr

def Transport.value : Transport → String
  | .tcp => "tcp"
  | .udp => "udp"

/-- Transports a published portal port forwards. -/
inductive PublishNetwork where
  | tcp
  | udp
  | tcpUdp
  deriving DecidableEq, Repr

/-- Individual transports this network occupies. -/
def PublishNetwork.transports : PublishNetwork → List Transport
  | .tcp => [.tcp]
  | .udp => [.udp]
  | .tcpUdp => [.tcp, .udp]

inductive XrayProtocol where
  | vless
  | freedom
  | blackhole
  | mixed
  | wireguard
  | dokodemo
  | hysteria
  deriving DecidableEq, Repr

inductive XrayNetwork where
  | xhttp
  | mkcp
  | hysteria
  deriving DecidableEq, Repr

inductive XraySecurity where
  | none
  | reality
  | tls
  deriving DecidableEq, Repr

inductive UplinkHttpMethod where
  | patch
  | post
  deriving DecidableEq, Repr

def UplinkHttpMethod.value : UplinkHttpMethod → String
  | .patch => "PATCH"
  | .post => "POST"

/-- When the router resolves a domain destination to match `ip` rules. -/
inductive DomainStrategy where
  | asIs
  | ipIfNonMatch
  | ipOnDemand
  deriving DecidableEq, Repr

/-! ## Tags -/

/-- Special routing destinations (non-region, non-node). -/
inductive SpecialDestination where
  | direct
  | blocked
  | warp
  deriving DecidableEq, Repr

def SpecialDestination.value : SpecialDestination → String
  | .direct => "direct"
  | .blocked => "blocked"
  | .warp => "warp"

def specialDestinations : List String :=
  [SpecialDestination.direct.value, SpecialDestination.blocked.value,
    SpecialDestination.warp.value]

namespace TagPrefix

def none : String := ""
def backup : String := "backup-"
def warp : String := "warp-"
def lb : String := "lb-"
def lbWarp : String := "lb-warp-"

end TagPrefix

namespace TagSuffix

def portal : String := "-portal"
def publish : String := "-publish"

end TagSuffix

namespace UserSuffix

def server : String := "-server"

end UserSuffix

/-! ## Ports, sockets and fixed values -/

namespace Socket

def vlessReality : String := "/dev/shm/xhttp_vless_reality.sock"
def vlessTls : String := "/dev/shm/xhttp_vless_tls.sock"
def mixed : String := "0.0.0.0"
def haproxyCdn : String := "/dev/shm/haproxy_cdn_https_local.sock"

end Socket

/-- Header HAProxy forwards the real client address in. -/
def defaultTrustedHeader : String := "X-Real-IP"

/-- Port the direct inbound (Reality or TLS) binds, directly or behind HAProxy. -/
def realityInboundPort : ℕ := 443

/-- Port the mixed proxy inbound binds. -/
def proxyInboundPort : ℕ := 80

/-- Default UDP port the Hysteria inbound binds. -/
def hysteriaInboundPort : ℕ := 443

/-- ALPN of the TLS-secured direct inbound. -/
def xhttpTlsAlpn : List String := ["h2", "http/1.1"]

/-- ALPN the Hysteria listener must advertise. -/
def hysteriaAlpn : List String := ["h3"]

/-- Concurrent QUIC streams an exit accepts per hub trunk. -/
def hysteriaTrunkMaxIncomingStreams : ℕ := 16384

/-- QUIC keepalive period hubs use on exit trunks. -/
def hysteriaTrunkKeepaliveSecs : ℕ := 10

/-- Per-stream receive window cap on exit trunks. -/
def hysteriaTrunkStreamReceiveWindow : ℕ := 16 * 1024 * 1024

/-- Connection receive window cap on exit trunks. -/
def hysteriaTrunkConnReceiveWindow : ℕ := 64 * 1024 * 1024

/-- DNS resolver placed in generated WireGuard client configs. -/
def wireguardClientDns : String := "1.1.1.1"

def hysteriaDerivedKeyType : HysteriaKeyType := .ed25519

/-- Third UUID segment of the warp variant of a hub-exit identity. -/
def warpUuidSegment : BitVec 16 := 0xffff

def warpVlessRoute : ℕ := 65535

def shortIdLength : ℕ := 16

/-- Inbound client flow. -/
def vlessFlow : String := "xtls-rprx-vision"

/-- Outbound client flow. -/
def vlessClientFlow : String := "xtls-rprx-vision-udp443"

/-- Inclusive range new exit regions draw their `vlessRoute` from. -/
def vlessRouteRange : ℕ × ℕ := (2000, 60000)

end HexRift
