import HexRift.Library.Relays
import HexRift.Model.Haproxy
import HexRift.Verification.KeySharing
import HexRift.Verification.LinkEnds

/-! # The edge of a node

What arrives on port 443 of a node, by HAProxy or by Xray itself, and the inbound it ends on. -/

namespace HexRift

open Checks Relays

variable {cfg : ConglomerateConfig} {crypto : Crypto} {store : KeyStore} {p : Placed}
  {config : XrayConfig} {proxy : HaproxyConfig}

/-! ## What a config does with a connection -/

/-- Letters of either case count as one. -/
def foldCase (name : String) : List Char := name.toList.map Char.toLower

def sniMatches (byEnd : Bool) (value : String) (sni : Option String) : Bool :=
  sni.any fun name =>
    if byEnd then (foldCase value).isSuffixOf (foldCase name) else foldCase name = foldCase value

namespace Directive

def address? : Directive → Option String
  | bind address _ => some address
  | _ => none

/-- Whether the line is a condition of that name that holds. -/
def holds (sni : Option String) (acl : String) : Directive → Bool
  | aclSni name byEnd value => name = acl && sniMatches byEnd value sni
  | _ => false

def chosen? (holds : String → Bool) : Directive → Option String
  | useBackend backend acl => if holds acl then some backend else none
  | _ => none

def default? : Directive → Option String
  | defaultBackend backend => some backend
  | _ => none

def server? : Directive → Option String
  | server _ address _ => some address
  | _ => none

end Directive

namespace HaproxySection

variable (s : HaproxySection) (sni : Option String)

def addresses : List String := s.directives.filterMap Directive.address?

def aclHolds (acl : String) : Bool := s.directives.any (Directive.holds sni acl)

/-- The first backend whose condition holds, else the default one. -/
def chosenBackend : Option String :=
  (s.directives.findSome? (Directive.chosen? (s.aclHolds sni))).or
    (s.directives.findSome? Directive.default?)

def serverAddress : Option String := s.directives.findSome? Directive.server?

end HaproxySection

def HaproxyConfig.backendAddress (config : HaproxyConfig) (backend : String) : Option String :=
  (config.find? fun s => s.kind = .backend && s.name = backend).bind (·.serverAddress)

/-- The frontends, with the server each hands a connection to by its server name. -/
def HaproxyConfig.fronts (config : HaproxyConfig) : List (Front String (Option String)) :=
  (config.filter fun s => s.kind = .frontend).map fun s =>
    { binds := s.addresses
      next := fun sni => (s.chosenBackend sni).bind config.backendAddress }

/-! ## The template -/

def HaproxyCdn.takes (cdn : HaproxyCdn) (sni : Option String) : Bool :=
  sniMatches cdn.byEnd (if cdn.byEnd then "." ++ cdn.domain else cdn.domain) sni

def cdnFront : Front String (Option String) :=
  { binds := [unixAddress Socket.haproxyCdn]
    next := fun _ => some (unixAddress Socket.vlessTls) }

def edgeFront (ipv6 : Bool) (cdn : Option HaproxyCdn) : Front String (Option String) :=
  { binds := edgeAddresses ipv6
    next := fun sni => some (unixAddress (if cdn.any (·.takes sni) then Socket.haproxyCdn
      else Socket.vlessReality)) }

theorem addresses_edgeSection (ipv6 : Bool) (cdn : Option HaproxyCdn) :
    (edgeSection ipv6 cdn).addresses = edgeAddresses ipv6 := by
  cases ipv6 <;> cases cdn <;> rfl

theorem aclHolds_edgeSection (ipv6 : Bool) (cdn : HaproxyCdn) (sni : Option String) :
    (edgeSection ipv6 (some cdn)).aclHolds sni "sni_cdn" = cdn.takes sni := by
  cases ipv6 <;> simp [HaproxySection.aclHolds, edgeSection, edgeAddresses, edgeCdnDirectives,
    Directive.holds, HaproxyCdn.takes]

theorem chosenBackend_edgeSection (ipv6 : Bool) (cdn : Option HaproxyCdn) (sni : Option String) :
    (edgeSection ipv6 cdn).chosenBackend sni =
      some (if cdn.any (·.takes sni) then "bk_local_tls_front" else "bk_reality") := by
  cases cdn with
  | none => cases ipv6 <;> rfl
  | some cdn =>
      rw [Option.any_some, ← aclHolds_edgeSection ipv6, HaproxySection.chosenBackend]
      generalize (edgeSection ipv6 (some cdn)).aclHolds sni = holds
      cases ipv6 <;> cases hholds : holds "sni_cdn" <;>
        simp [edgeSection, edgeAddresses, edgeCdnDirectives, List.findSome?_cons,
          Directive.chosen?, Directive.default?, hholds]

theorem backendAddress_haproxyTemplate (ipv6 : Bool) (cdn : Option HaproxyCdn) :
    HaproxyConfig.backendAddress (haproxyTemplate ipv6 cdn) "bk_reality" =
      some (unixAddress Socket.vlessReality) ∧
    ∀ c ∈ cdn, HaproxyConfig.backendAddress (haproxyTemplate ipv6 cdn) "bk_cdn_xhttp" =
        some (unixAddress Socket.vlessTls) ∧
      HaproxyConfig.backendAddress (haproxyTemplate ipv6 cdn) "bk_local_tls_front" =
        some (unixAddress Socket.haproxyCdn) := by
  cases cdn with
  | none => exact ⟨rfl, by simp⟩
  | some cdn => exact ⟨rfl, fun c _ => ⟨rfl, rfl⟩⟩

theorem fronts_haproxyTemplate (ipv6 : Bool) (cdn : Option HaproxyCdn) :
    HaproxyConfig.fronts (haproxyTemplate ipv6 cdn) =
      edgeFront ipv6 cdn :: cdn.elim [] fun _ => [cdnFront] := by
  obtain ⟨hreality, hcdn⟩ := backendAddress_haproxyTemplate ipv6 cdn
  have hedge : ∀ sni, ((edgeSection ipv6 cdn).chosenBackend sni).bind
      (HaproxyConfig.backendAddress (haproxyTemplate ipv6 cdn)) =
        (edgeFront ipv6 cdn).next sni := by
    intro sni
    rw [chosenBackend_edgeSection, Option.bind_some]
    cases cdn with
    | none => exact hreality
    | some cdn =>
        simp only [edgeFront, Option.any_some]
        by_cases htakes : cdn.takes sni = true
        · rw [if_pos htakes, if_pos htakes]
          exact (hcdn cdn rfl).2
        · rw [if_neg htakes, if_neg htakes]
          exact hreality
  cases cdn with
  | none =>
      have hsections : (haproxyTemplate ipv6 none).filter (fun s => s.kind = .frontend) =
          [edgeSection ipv6 none] := rfl
      rw [HaproxyConfig.fronts, hsections, List.map_singleton, addresses_edgeSection]
      simp only [hedge]
      rfl
  | some cdn =>
      have hsections : (haproxyTemplate ipv6 (some cdn)).filter (fun s => s.kind = .frontend) =
          [edgeSection ipv6 (some cdn), cdnFrontSection cdn] := rfl
      have hfront : ∀ sni, ((cdnFrontSection cdn).chosenBackend sni).bind
          (HaproxyConfig.backendAddress (haproxyTemplate ipv6 (some cdn))) = cdnFront.next sni :=
        fun sni => (hcdn cdn rfl).1
      rw [HaproxyConfig.fronts, hsections, List.map_cons, List.map_singleton,
        addresses_edgeSection]
      simp only [hedge, hfront]
      rfl

theorem front_edge {ipv6 : Bool} {cdn : Option HaproxyCdn} {address : String}
    (h : address ∈ edgeAddresses ipv6) (rest : List (Front String (Option String))) :
    front? (edgeFront ipv6 cdn :: rest) address = some (edgeFront ipv6 cdn) := by
  rw [front?, List.find?_cons_of_pos]
  exact decide_eq_true h

theorem unix_not_edge (ipv6 : Bool) (socket : String) :
    unixAddress socket ∉ edgeAddresses ipv6 := by
  have hne : ∀ address ∈ edgeAddresses true, unixAddress socket ≠ address := by
    intro address haddress heq
    have hhead := congrArg (fun s => s.toList.head?) heq
    simp only [edgeAddresses, if_true, List.mem_cons, List.not_mem_nil, or_false] at haddress
    rcases haddress with rfl | rfl <;> simp [unixAddress] at hhead
  have hsub : ∀ address ∈ edgeAddresses ipv6, address ∈ edgeAddresses true := by
    cases ipv6 <;> simp [edgeAddresses]
  exact fun h => hne _ (hsub _ h) rfl

theorem front_unix (ipv6 : Bool) (cdn : Option HaproxyCdn) (socket : String)
    (rest : List (Front String (Option String))) :
    front? (edgeFront ipv6 cdn :: rest) (unixAddress socket) =
      front? rest (unixAddress socket) := by
  rw [front?, List.find?_cons_of_neg]
  · rfl
  · exact fun hbound => unix_not_edge ipv6 socket (of_decide_eq_true hbound)

/-- The edge hands a connection to the CDN inbound by its name, and to the direct one else. -/
theorem delivers_haproxyTemplate {ipv6 : Bool} (cdn : Option HaproxyCdn) {address : String}
    (h : address ∈ edgeAddresses ipv6) (sni : Option String) (socket : String) :
    Delivers (HaproxyConfig.fronts (haproxyTemplate ipv6 cdn)) sni address socket ↔
      socket = unixAddress (if cdn.any (·.takes sni) then Socket.vlessTls
        else Socket.vlessReality) := by
  rw [fronts_haproxyTemplate, Delivers.relay_iff (front_edge h _) rfl]
  by_cases htakes : cdn.any (·.takes sni) = true
  · rw [if_pos htakes, if_pos htakes]
    cases cdn with
    | none => cases htakes
    | some cdn =>
        have hrelay : front? (edgeFront ipv6 (some cdn) :: [cdnFront])
            (unixAddress Socket.haproxyCdn) = some cdnFront := by
          rw [front_unix]
          rfl
        have hends : front? (edgeFront ipv6 (some cdn) :: [cdnFront])
            (unixAddress Socket.vlessTls) = none := by
          rw [front_unix]
          rfl
        rw [Option.elim_some, Delivers.relay_iff hrelay rfl, Delivers.outside_iff hends]
  · rw [if_neg htakes, if_neg htakes, Delivers.outside_iff]
    rw [front_unix]
    cases cdn <;> rfl

/-! ## Rendered nodes -/

def Placed.env (crypto : Crypto) (cfg : ConglomerateConfig) (keys : NodeKeys) :
    Placed → InboundEnv
  | exit region node => exitEnv crypto cfg region node keys
  | hub region node => hubEnv crypto cfg region node keys

/-- What both rendered files of a node are built from. -/
structure NodeRendered (crypto : Crypto) (cfg : ConglomerateConfig) (store : KeyStore)
    (p : Placed) (config : XrayConfig) where
  keys : NodeKeys
  slots : Slots
  published : List PublishedPort
  published_tag : ∀ pub ∈ published, ∃ id, pub.tag = publishTag id pub.port
  stored : store p.node.id.val = some keys
  ctx : NodeContext
  context : buildContext crypto cfg store p = .ok ctx
  shared : ctx.shared = makeShared cfg p.region p.node keys
  ctx_slots : ctx.slots = slots
  nodeType : ctx.nodeType = p.role
  built : buildSlots (p.env crypto cfg keys) = .ok slots
  inbounds : config.inbounds = buildInbounds slots (makeShared cfg p.region p.node keys) ++
    published.map fun pub => forwardFragment pub (makeShared cfg p.region p.node keys)
  haproxy : config.haproxy = resolveNodeHaproxy p.node p.region cfg.defaults

theorem renderNode_eq_ok (h : renderNode crypto cfg store p = .ok config) :
    Nonempty (NodeRendered crypto cfg store p config) := by
  cases p with
  | exit region node =>
      simp only [renderNode, renderExit, bind_eq_ok, pure_eq_ok] at h
      obtain ⟨keys, hkeys, ctx, hctx, rfl⟩ := h
      have hcontext : buildContext crypto cfg store (.exit region node) = .ok (.exit ctx) := by
        simp only [buildContext, bind_eq_ok, pure_eq_ok]
        exact ⟨keys, hkeys, ctx, hctx, rfl⟩
      simp only [buildExitContext, bind_eq_ok, pure_eq_ok] at hctx
      obtain ⟨slots, hslots, rfl⟩ := hctx
      exact ⟨{
        keys := keys
        slots := slots
        published := []
        published_tag := by simp
        stored := loadNodeKeys_eq_ok.mp hkeys
        ctx := _
        context := hcontext
        shared := rfl
        ctx_slots := rfl
        nodeType := rfl
        built := hslots
        inbounds := (List.append_nil _).symm
        haproxy := rfl }⟩
  | hub region node =>
      simp only [renderNode, renderHub, bind_eq_ok, pure_eq_ok] at h
      obtain ⟨keys, hkeys, exitKeys, hexitKeys, ctx, hctx, rfl⟩ := h
      have hcontext : buildContext crypto cfg store (.hub region node) = .ok (.hub ctx) := by
        simp only [buildContext, bind_eq_ok, pure_eq_ok]
        exact ⟨keys, hkeys, exitKeys, hexitKeys, ctx, hctx, rfl⟩
      simp only [buildHubContext, bind_eq_ok, pure_eq_ok] at hctx
      obtain ⟨links, -, slots, hslots, balancers, -, rules, -, rfl⟩ := hctx
      exact ⟨{
        keys := keys
        slots := slots
        published := resolveNodePublishes cfg node
        published_tag := fun _ => publishes_tag
        stored := loadNodeKeys_eq_ok.mp hkeys
        ctx := _
        context := hcontext
        shared := rfl
        ctx_slots := rfl
        nodeType := rfl
        built := hslots
        inbounds := rfl
        haproxy := rfl }⟩

/-- The domain the CDN inbound of a node is reached under. -/
def Placed.cdnDomain (cfg : ConglomerateConfig) (p : Placed) : Option String :=
  cfg.global.cdn.bind fun cdn => p.region.cdnXhttpPath.map fun _ =>
    if p.role = .exit then cdn.exitDomain.val else cdn.hubDomain.val

/-- Whether the name is one the node serves its CDN inbound under. -/
def Placed.takesCdn (cfg : ConglomerateConfig) (p : Placed) (sni : Option String) : Bool :=
  (p.cdnDomain cfg).any fun domain =>
    sniMatches (p.role = .exit) (if p.role = .exit then "." ++ domain else domain) sni

theorem Placed.cdnDomain_of_some {cdn : CdnConfig} {path : XrayPath}
    (hcdn : cfg.global.cdn = some cdn) (hpath : p.region.cdnXhttpPath = some path) :
    p.cdnDomain cfg = some (if p.role = .exit then cdn.exitDomain.val else cdn.hubDomain.val) := by
  rw [Placed.cdnDomain, hcdn, hpath]
  rfl

theorem Placed.cdnDomain_of_none
    (h : ∀ cdn path, cfg.global.cdn = some cdn → p.region.cdnXhttpPath = some path → False) :
    p.cdnDomain cfg = none := by
  rw [Placed.cdnDomain, Option.bind_eq_none_iff]
  intro cdn hcdn
  rw [Option.map_eq_none_iff]
  by_contra hpath
  obtain ⟨path, hpath⟩ := Option.ne_none_iff_exists'.mp hpath
  exact h cdn path hcdn hpath

theorem buildCdn_domain {keys : NodeKeys} {slot : Option CdnContext}
    (h : buildCdn (p.env crypto cfg keys) = .ok slot) :
    slot.map (·.domain) = p.cdnDomain cfg := by
  cases p with
  | exit region node =>
      simp only [buildCdn, Placed.env, exitEnv] at h
      split at h
      · rename_i cdn path hcdn hpath
        cases h
        exact (Placed.cdnDomain_of_some (p := .exit region node) hcdn hpath).symm
      · rename_i hnone
        cases h
        exact (Placed.cdnDomain_of_none hnone).symm
  | hub region node =>
      simp only [buildCdn, Placed.env, hubEnv] at h
      split at h
      · rename_i cdn path hcdn hpath
        cases h
        exact (Placed.cdnDomain_of_some (p := .hub region node) hcdn hpath).symm
      · rename_i hnone
        cases h
        exact (Placed.cdnDomain_of_none hnone).symm

theorem buildSlots_cdn {env : InboundEnv} {slots : Slots} (h : buildSlots env = .ok slots) :
    buildCdn env = .ok slots.cdn := by
  simp only [buildSlots, bind_eq_ok] at h
  obtain ⟨xhttp, -, cdn, hcdn, h⟩ := h
  split at h
  · simp only [bind_eq_ok, pure_eq_ok] at h
    obtain ⟨hysteria, -, rfl⟩ := h
    exact hcdn
  · simp only [bind_eq_ok, pure_eq_ok] at h
    obtain ⟨proxy, -, xdns, -, wireguard, -, hysteria, -, rfl⟩ := h
    exact hcdn

/-- Where an inbound of a slot listens, when it is the direct one or that of the CDN. -/
theorem mem_buildInbounds {slots : Slots} {shared : SharedContext} {inbound : Inbound}
    (h : inbound ∈ buildInbounds slots shared) :
    inbound = slots.xhttp.fragment shared ∨
      (∃ cdn ∈ slots.cdn, inbound = cdn.fragment shared) ∨
        inbound.port.isSome = true ∧ inbound.tag ≠ "direct-xhttp" ∧ inbound.tag ≠ "cdn-xhttp" := by
  simp only [buildInbounds, List.mem_append, List.mem_singleton, List.mem_map,
    Option.mem_toList] at h
  rcases h with ((((hxhttp | ⟨cdn, hcdn, rfl⟩) | ⟨ctx, -, rfl⟩) | ⟨ctx, -, rfl⟩) |
    ⟨ctx, -, rfl⟩) | ⟨ctx, -, rfl⟩
  · exact .inl hxhttp
  · exact .inr (.inl ⟨cdn, hcdn, rfl⟩)
  · exact .inr (.inr ⟨rfl, by simp [ProxyContext.fragment], by simp [ProxyContext.fragment]⟩)
  · exact .inr (.inr ⟨rfl, by simp [XdnsContext.fragment], by simp [XdnsContext.fragment]⟩)
  · exact .inr (.inr ⟨rfl, by simp [WireguardContext.fragment],
      by simp [WireguardContext.fragment]⟩)
  · exact .inr (.inr ⟨rfl, by simp [HysteriaContext.fragment],
      by simp [HysteriaContext.fragment]⟩)

theorem NodeRendered.mem_inbounds (hn : NodeRendered crypto cfg store p config)
    {inbound : Inbound} (h : inbound ∈ config.inbounds) :
    inbound = hn.slots.xhttp.fragment (makeShared cfg p.region p.node hn.keys) ∨
      (∃ cdn ∈ hn.slots.cdn,
        inbound = cdn.fragment (makeShared cfg p.region p.node hn.keys)) ∨
        inbound.port.isSome = true ∧ inbound.tag ≠ "direct-xhttp" ∧ inbound.tag ≠ "cdn-xhttp" := by
  rw [hn.inbounds, List.mem_append, List.mem_map] at h
  rcases h with hslot | ⟨pub, hpub, rfl⟩
  · exact mem_buildInbounds hslot
  · obtain ⟨id, hid⟩ := hn.published_tag pub hpub
    have hfixed : pub.tag ∉ fixedInboundTags := hid ▸ (publishTag_not_fixed id pub.port).1
    refine .inr (.inr ⟨rfl, ?_, ?_⟩)
    · intro htag
      have hdirect : pub.tag = "direct-xhttp" := htag
      exact hfixed (by rw [hdirect]; decide)
    · intro htag
      have hcdn : pub.tag = "cdn-xhttp" := htag
      exact hfixed (by rw [hcdn]; decide)

/-! ## The edge -/

/-- Port 443 of a node, seen from outside: which inbound a connection ends on by the server name
it asks for, and that none is left without one. -/
structure EdgeExact (cfg : ConglomerateConfig) (p : Placed) (config : XrayConfig)
    (proxy : HaproxyConfig) : Prop where
  delivered : config.haproxy = true →
    ∀ address ∈ edgeAddresses (resolveNodeIpv6 p.node p.region cfg.defaults),
      ∀ sni socket, Delivers proxy.fronts sni address socket ↔
        ∃ inbound ∈ config.inbounds, socket = unixAddress inbound.listen ∧
          inbound.tag = if p.takesCdn cfg sni then "cdn-xhttp" else "direct-xhttp"
  reached : config.haproxy = true → ∀ inbound ∈ config.inbounds, inbound.port = none →
    ∃ sni, ∀ address ∈ edgeAddresses (resolveNodeIpv6 p.node p.region cfg.defaults),
      Delivers proxy.fronts sni address (unixAddress inbound.listen)
  disabled : config.haproxy = false → proxy.fronts = [] ∧
    ∀ inbound ∈ config.inbounds, inbound.port.isSome = true

theorem nodeHaproxy_eq_ok (hn : NodeRendered crypto cfg store p config)
    (h : nodeHaproxy crypto cfg store p = .ok proxy) : haproxyConfig hn.ctx = .ok proxy := by
  rw [nodeHaproxy, hn.context] at h
  exact h

theorem NodeRendered.cdnDomain (hn : NodeRendered crypto cfg store p config) :
    hn.slots.cdn.map (·.domain) = p.cdnDomain cfg :=
  buildCdn_domain (buildSlots_cdn hn.built)

/-- The template's view of the CDN inbound of a node. -/
def haproxyCdnOf (role : RegionType) (header : String) (cdn : CdnContext) : HaproxyCdn :=
  { certAlias := cdn.certAlias, domain := cdn.domain, trustedHeader := header
    byEnd := role = .exit }

theorem NodeRendered.takesCdn (hn : NodeRendered crypto cfg store p config) (header : String)
    (sni : Option String) :
    (hn.slots.cdn.map (haproxyCdnOf p.role header)).any (·.takes sni) = p.takesCdn cfg sni := by
  rw [Placed.takesCdn, ← hn.cdnDomain]
  cases hn.slots.cdn with
  | none => rfl
  | some cdn => simp [haproxyCdnOf, HaproxyCdn.takes]

theorem haproxyConfig_enabled (hn : NodeRendered crypto cfg store p config)
    (hon : hn.ctx.shared.haproxy = true) (h : haproxyConfig hn.ctx = .ok proxy) :
    ∃ header, proxy = haproxyTemplate (resolveNodeIpv6 p.node p.region cfg.defaults)
      (hn.slots.cdn.map (haproxyCdnOf p.role header)) := by
  rw [haproxyConfig, if_pos hon, bind_eq_ok] at h
  obtain ⟨header, -, h⟩ := h
  refine ⟨header, (pure_eq_ok.mp h).symm.trans ?_⟩
  rw [hn.shared, hn.ctx_slots, hn.nodeType]
  rfl

theorem sniMatches_self (byEnd : Bool) (value : String) :
    sniMatches byEnd value (some value) = true := by
  cases byEnd <;> simp [sniMatches]

theorem EdgeExact.of_enabled (hn : NodeRendered crypto cfg store p config)
    (hon : config.haproxy = true) (h : nodeHaproxy crypto cfg store p = .ok proxy) :
    EdgeExact cfg p config proxy := by
  have hshared : (makeShared cfg p.region p.node hn.keys).haproxy = true :=
    hn.haproxy.symm.trans hon
  obtain ⟨header, rfl⟩ := haproxyConfig_enabled hn (by rw [hn.shared]; exact hshared)
    (nodeHaproxy_eq_ok hn h)
  have hdelivers : ∀ address ∈ edgeAddresses (resolveNodeIpv6 p.node p.region cfg.defaults),
      ∀ sni socket, Delivers (HaproxyConfig.fronts (haproxyTemplate
        (resolveNodeIpv6 p.node p.region cfg.defaults)
          (hn.slots.cdn.map (haproxyCdnOf p.role header)))) sni address socket ↔
        socket = unixAddress (if p.takesCdn cfg sni then Socket.vlessTls
          else Socket.vlessReality) := by
    intro address haddress sni socket
    rw [delivers_haproxyTemplate _ haddress, hn.takesCdn header]
  have hdirect : hn.slots.xhttp.fragment (makeShared cfg p.region p.node hn.keys) ∈
      config.inbounds := by
    rw [hn.inbounds, buildInbounds]
    simp
  constructor
  · intro _ address haddress sni socket
    refine (hdelivers address haddress sni socket).trans ⟨?_, ?_⟩
    · intro hsocket
      by_cases htakes : p.takesCdn cfg sni = true
      · rw [if_pos htakes] at hsocket ⊢
        have hsome : hn.slots.cdn.isSome = true := by
          rw [← Option.isSome_map (f := (·.domain)), hn.cdnDomain]
          by_contra hnone
          simp [Placed.takesCdn, Option.not_isSome_iff_eq_none.mp hnone] at htakes
        obtain ⟨cdn, hcdn⟩ := Option.isSome_iff_exists.mp hsome
        refine ⟨cdn.fragment (makeShared cfg p.region p.node hn.keys), ?_, hsocket, rfl⟩
        rw [hn.inbounds, buildInbounds, hcdn]
        simp
      · rw [if_neg htakes] at hsocket ⊢
        refine ⟨_, hdirect, ?_, rfl⟩
        rw [hsocket, XhttpContext.fragment, hshared, if_pos rfl]
    · rintro ⟨inbound, hinbound, rfl, htag⟩
      by_cases htakes : p.takesCdn cfg sni = true
      · rw [if_pos htakes] at htag ⊢
        rcases hn.mem_inbounds hinbound with rfl | ⟨cdn, -, rfl⟩ | ⟨-, -, hother⟩
        · exact absurd htag (by simp [XhttpContext.fragment])
        · rfl
        · exact absurd htag hother
      · rw [if_neg htakes] at htag ⊢
        rcases hn.mem_inbounds hinbound with rfl | ⟨cdn, -, rfl⟩ | ⟨-, hother, -⟩
        · rw [XhttpContext.fragment, hshared, if_pos rfl]
        · exact absurd htag (by simp [CdnContext.fragment])
        · exact absurd htag hother
  · intro _ inbound hinbound hport
    rcases hn.mem_inbounds hinbound with rfl | ⟨cdn, hcdn, rfl⟩ | ⟨hsome, -⟩
    · refine ⟨none, fun address haddress => (hdelivers address haddress _ _).mpr ?_⟩
      have htakes : p.takesCdn cfg none = false := by
        rw [Placed.takesCdn]
        cases p.cdnDomain cfg <;> rfl
      rw [htakes, XhttpContext.fragment, hshared]
      rfl
    · refine ⟨some (if p.role = .exit then "." ++ cdn.domain else cdn.domain),
        fun address haddress => (hdelivers address haddress _ _).mpr ?_⟩
      have htakes : p.takesCdn cfg
          (some (if p.role = .exit then "." ++ cdn.domain else cdn.domain)) = true := by
        rw [Placed.takesCdn, ← hn.cdnDomain, Option.mem_def.mp hcdn, Option.map_some,
          Option.any_some]
        exact sniMatches_self _ _
      rw [htakes]
      rfl
    · rw [hport] at hsome
      cases hsome
  · intro hoff
    rw [hon] at hoff
    cases hoff

theorem EdgeExact.of_disabled (hacc : Accepted cfg) (hp : p ∈ cfg.placed)
    (hn : NodeRendered crypto cfg store p config) (hoff : config.haproxy = false)
    (h : nodeHaproxy crypto cfg store p = .ok proxy) : EdgeExact cfg p config proxy := by
  have hresolved : resolveNodeHaproxy p.node p.region cfg.defaults = false :=
    hn.haproxy.symm.trans hoff
  have hshared : (makeShared cfg p.region p.node hn.keys).haproxy = false := hresolved
  have hproxy := nodeHaproxy_eq_ok hn h
  rw [haproxyConfig, hn.shared, hshared, if_neg Bool.false_ne_true] at hproxy
  cases hproxy
  refine ⟨fun hon => ?_, fun hon => ?_, fun _ => ⟨rfl, fun inbound hinbound => ?_⟩⟩
  · rw [hoff] at hon
    cases hon
  · rw [hoff] at hon
    cases hon
  · rcases hn.mem_inbounds hinbound with rfl | ⟨cdn, hcdn, rfl⟩ | ⟨hsome, -⟩
    · rw [XhttpContext.fragment, hshared]
      rfl
    · -- a node with a CDN inbound is accepted only behind HAProxy
      obtain ⟨hregion, hnode⟩ := mem_placed hp
      have hcdnDomain := hn.cdnDomain
      rw [Option.mem_def.mp hcdn, Option.map_some] at hcdnDomain
      refine absurd ⟨?_, ?_, ?_⟩ ((hacc.region _ hregion).node _ hnode).cdn
      · by_contra hglobal
        rw [Placed.cdnDomain, Option.not_isSome_iff_eq_none.mp hglobal] at hcdnDomain
        cases hcdnDomain
      · by_contra hpath
        rw [Placed.cdnDomain, Option.not_isSome_iff_eq_none.mp hpath] at hcdnDomain
        cases hglobal : cfg.global.cdn <;> rw [hglobal] at hcdnDomain <;> cases hcdnDomain
      · rw [hresolved]
        exact Bool.false_ne_true
    · exact hsome

/-- Every connection to port 443 of a node behind HAProxy ends on one inbound, the CDN's by its
names and the direct one by any other, and both are reached. A node without it has no inbound
that waits behind a socket. -/
theorem edge_exact (cfg : AcceptedConfig) (hp : p ∈ cfg.placed)
    (h : renderNode crypto cfg.toConglomerateConfig store p = .ok config)
    (hproxy : nodeHaproxy crypto cfg.toConglomerateConfig store p = .ok proxy) :
    EdgeExact cfg.toConglomerateConfig p config proxy := by
  obtain ⟨hn⟩ := renderNode_eq_ok h
  cases hon : config.haproxy with
  | true => exact .of_enabled hn hon hproxy
  | false => exact .of_disabled cfg.spec hp hn hon hproxy

/-- The hub of the office is behind HAProxy, with an inbound for the CDN. -/
theorem edge_exact_office :
    ∃ config proxy, renderNode Sample.officeCrypto Sample.office.toConglomerateConfig
        Sample.officeStore (.hub Sample.officeRegion Sample.officeNode) = .ok config ∧
      nodeHaproxy Sample.officeCrypto Sample.office.toConglomerateConfig Sample.officeStore
        (.hub Sample.officeRegion Sample.officeNode) = .ok proxy ∧
      EdgeExact Sample.office.toConglomerateConfig (.hub Sample.officeRegion Sample.officeNode)
        config proxy := by
  obtain ⟨config, h⟩ := office_renders
  obtain ⟨proxy, hproxy⟩ := isOk_iff.mp (show (nodeHaproxy Sample.officeCrypto
    Sample.office.toConglomerateConfig Sample.officeStore
      (.hub Sample.officeRegion Sample.officeNode)).isOk = true by decide)
  exact ⟨config, proxy, h, hproxy, edge_exact Sample.office office_placed h hproxy⟩

end HexRift
