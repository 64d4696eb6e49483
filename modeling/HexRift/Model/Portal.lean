import HexRift.Model.Render

/-! # The bridge config of a portal

A portal dials every hub node and opens a reverse tunnel through each. Its rules decide what
traffic emerging from the tunnels may reach. -/

namespace HexRift

open Checks

/-! ## Outbounds -/

/-- Security settings a VLESS outbound dials with. -/
inductive DialSecurity where
  | reality (publicKey fingerprint serverName shortId : String)
  | tls (serverName : String) (alpn : List String) (fingerprint : String)
  deriving DecidableEq

/-- VLESS outbound that dials a hub node and opens the reverse tunnel. -/
structure ReverseDial where
  tag : String
  address : String
  port : ℕ
  identity : UUID
  flow : String
  encryption : String
  security : DialSecurity
  xhttpHost : String
  xhttpPath : String
  reverseTag : String
  /-- Routes on the client-supplied SNI, not on the destination the hub sent. -/
  sniffing : Bool
  deriving DecidableEq

inductive PortalOutbound where
  | reverse (dial : ReverseDial)
  | direct
  | blocked
  deriving DecidableEq

def PortalOutbound.tag : PortalOutbound → String
  | .reverse dial => dial.tag
  | .direct => SpecialDestination.direct.value
  | .blocked => SpecialDestination.blocked.value

/-- How a portal secures its dial of a hub node, by the security of the direct inbound. -/
def dialSecurity (ns : Namespace) (crypto : Crypto) (portal : Portal) (node : HubNode)
    (keys : NodeKeys) (fingerprint : String) : DirectSecurity → Except Error DialSecurity
  | .tls _ => .ok (.tls node.hostname.val xhttpTlsAlpn fingerprint)
  | .reality _ _ serverNames _ _ => do
      pure (.reality keys.realityPublicKey fingerprint (← firstName serverNames)
        (ns.portalShortId crypto portal.id.val))

def reverseDialOutbound (crypto : Crypto) (cfg : ConglomerateConfig) (portal : Portal)
    (region : HubRegion) (node : HubNode) (keys : NodeKeys) (fingerprint : String) :
    Except Error ReverseDial := do
  let ns := cfg.ns
  let ctx ← buildXhttp (hubEnv crypto cfg region node keys)
  let security ← dialSecurity ns crypto portal node keys fingerprint ctx.security
  pure {
    tag := "portal-" ++ node.id.val
    address := node.hostname.val
    port := 443
    identity := ns.portalUuid crypto.uuid5 portal.id.val portal.uuid
    flow := keys.clientFlow
    encryption := keys.encryption
    security := security
    xhttpHost := ctx.xhttpHost
    xhttpPath := ctx.xhttpPath
    reverseTag := portalTag portal.id
    sniffing := !portal.strict }

/-! ## Rules -/

/-- Allows one publish target: an address by `ip`, a name in full by `domain`. -/
def publishTargetRule (reverseTag : String) (entry : PortalPublish) : Rule :=
  let (host, port) := entry.target.hostPort
  let literal := Python.isIpAddress host.toList
  { inboundTag := some [reverseTag]
    ip := if literal then some [host] else none
    domain := if literal then none else some ["full:" ++ host]
    port := some port
    outTag := SpecialDestination.direct.value }

/-- Portal-side rules for traffic emerging from the reverse tunnel. -/
def buildPortalRules (portal : Portal) (reverseTag : String) : List Rule :=
  let inbound := some [reverseTag]
  let direct := SpecialDestination.direct.value
  if portal.strict then
    (if given portal.routes.domains then
        [{ inboundTag := inbound, domain := portal.routes.domains, outTag := direct }]
      else []) ++
    (if given portal.routes.ips then
        [{ inboundTag := inbound, ip := portal.routes.ips, outTag := direct }]
      else []) ++
    portal.publish.map (publishTargetRule reverseTag) ++
    [{ inboundTag := inbound, outTag := SpecialDestination.blocked.value }]
  else [{ inboundTag := inbound, outTag := direct }]

/-- Unmatched traffic would otherwise fall to the first outbound, looping back in. -/
def safetyPin : Rule := { network := some "TCP,UDP", outTag := SpecialDestination.direct.value }

/-! ## Config -/

structure PortalConfig where
  outbounds : List PortalOutbound
  domainStrategy : DomainStrategy
  rules : List Rule

/-- The hub nodes, each with its region. -/
def hubNodePairs (cfg : ConglomerateConfig) : List (HubRegion × HubNode) :=
  cfg.hubRegions.flatMap fun r => r.nodes.map fun n => (r, n)

/-- The outbound that dials one hub node, by the keys handed over for it. -/
def dialHub (crypto : Crypto) (cfg : ConglomerateConfig) (portal : Portal)
    (hubNodeKeys : String → Option NodeKeys) (fingerprint : String) (region : HubRegion)
    (node : HubNode) : Except Error ReverseDial :=
  match hubNodeKeys node.id.val with
  | none => .error (.keyError node.id.val)
  | some keys => reverseDialOutbound crypto cfg portal region node keys fingerprint

def buildPortalConfig (crypto : Crypto) (cfg : ConglomerateConfig) (portalId : String)
    (hubNodeKeys : String → Option NodeKeys) (fingerprint : String) :
    Except Error PortalConfig :=
  match cfg.portals.find? fun p => p.id.val = portalId with
  | none => .error (.renderError s!"Portal not found: {Python.repr portalId}")
  | some portal => do
      let dials ← mapEach (hubNodePairs cfg) fun p =>
        dialHub crypto cfg portal hubNodeKeys fingerprint p.1 p.2
      pure {
        outbounds := dials.map .reverse ++ [.direct] ++ if portal.strict then [.blocked] else []
        domainStrategy := if portal.strict then .ipOnDemand else .ipIfNonMatch
        rules := buildPortalRules portal (portalTag portal.id) ++ [safetyPin] }

/-- The bridge config of a portal, from the stored keys of every hub node. -/
def genPortal (crypto : Crypto) (cfg : ConglomerateConfig) (store : KeyStore) (portalId : String)
    (fingerprint : String) : Except Error PortalConfig := do
  ensure (portalId ∈ cfg.portals.map (·.id.val))
    (.renderError s!"Portal not found: {Python.repr portalId}")
  let hubNodeKeys ← mapEach (hubNodePairs cfg) fun p => do
    pure (p.2.id.val, ← loadNodeKeys store p.2.id.val)
  buildPortalConfig crypto cfg portalId (fun id => hubNodeKeys.lookup id) fingerprint

end HexRift
