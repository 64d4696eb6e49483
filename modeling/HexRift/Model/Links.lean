import HexRift.Model.Keys

/-! # Hub-to-exit links -/

namespace HexRift

/-- Inputs for dialing one exit node from one hub node. -/
structure LinkEnv where
  crypto : Crypto
  cfg : ConglomerateConfig
  hub : HubNode
  exitRegion : ExitRegion
  exitNode : ExitNode
  exitKeys : NodeKeys
  exitConnections : ExitConnectionsConfig

namespace LinkEnv

variable (env : LinkEnv)

def ns : Namespace := env.cfg.ns

def address : String := env.exitNode.id.val ++ "." ++ env.cfg.global.aphelionDomain.val

def reality : Except Error RealityConfig :=
  resolveNodeReality (.exit env.exitNode) (.exit env.exitRegion) env.cfg.defaults

end LinkEnv

structure VlessDial where
  address : String
  userId : UUID
  encryption : String
  publicKey : String
  fingerprint : TlsFingerprint
  serverName : String
  shortId : String
  xhttpHost : String
  xhttpPath : String
  flow : String
  deriving DecidableEq

structure HysteriaDial where
  address : String
  port : ℕ
  auth : UUID
  sni : String
  pin : Option String
  obfsPassword : Option String
  congestion : HysteriaCongestion
  brutalUp : Option String
  brutalDown : Option String
  chromeParrot : Bool
  deriving DecidableEq

/-- The protocol a link dials with, and its data. -/
inductive LinkDial where
  | vless (dial : VlessDial)
  | hysteria (dial : HysteriaDial)
  deriving DecidableEq

/-- Port of the exit that the outbound dials. -/
def LinkDial.port : LinkDial → ℕ
  | .vless _ => 443
  | .hysteria dial => dial.port

/-- Resolved data for one hub-to-exit outbound. -/
structure LinkContext where
  exitId : String
  tagPrefix : String
  dial : LinkDial
  deriving DecidableEq

def LinkContext.tag (link : LinkContext) : String := link.tagPrefix ++ link.exitId

def LinkContext.protocol (link : LinkContext) : XrayProtocol :=
  match link.dial with
  | .vless _ => .vless
  | .hysteria _ => .hysteria

def buildVlessDial (env : LinkEnv) (identity : UUID) : Except Error VlessDial := do
  let reality ← env.reality
  let xhttp ← resolveNodeXhttp (.exit env.exitNode) (.exit env.exitRegion) env.cfg.defaults
  pure {
    address := env.address
    userId := identity
    encryption := env.exitKeys.encryption
    publicKey := env.exitKeys.realityPublicKey
    fingerprint := env.exitConnections.fingerprint
    serverName := ← firstName (← deriveServerNames reality)
    shortId := env.ns.exitShortId env.crypto env.exitNode.id.val
    xhttpHost := ← deriveXhttpHost reality xhttp
    xhttpPath := xhttp.path.val
    flow := env.exitKeys.clientFlow }

def buildHysteriaDial (env : LinkEnv) (identity : UUID) : Except Error HysteriaDial :=
  match resolveNodeHysteria (.exit env.exitNode) (.exit env.exitRegion) env.cfg.defaults with
  | none =>
      .error (.renderError
        s!"Exit node {Python.repr env.exitNode.id.val} renders no hysteria listener for hubs to dial")
  | some hysteria => do
      let reality ← env.reality
      let ep ← deriveHysteriaEndpoint env.crypto hysteria reality env.exitKeys.realityPrivateKey
        env.ns.name
      pure {
        address := env.address
        port := hysteria.port.val
        auth := identity
        sni := ep.sni
        pin := ep.pin
        obfsPassword := ep.obfsPassword
        congestion := hysteria.congestion
        brutalUp := hysteria.down
        brutalDown := hysteria.up
        chromeParrot := ep.chromeParrot }

/-- Dial data for one hub-exit pair, using the exit region's protocol. -/
def buildDial (env : LinkEnv) (identity : UUID) : Except Error LinkDial :=
  match resolveLinkProtocol env.exitRegion with
  | .vless => (buildVlessDial env identity).map .vless
  | .hysteria => (buildHysteriaDial env identity).map .hysteria

def buildLink (env : LinkEnv) (identity : UUID) (tagPrefix : String) :
    Except Error LinkContext := do
  let dial ← buildDial env identity
  pure { exitId := env.exitNode.id.val, tagPrefix := tagPrefix, dial := dial }

end HexRift
