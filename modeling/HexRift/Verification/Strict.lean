import HexRift.Model.Portal
import HexRift.Verification.Exposure

/-! # What a strict portal forwards

The rules of a strict portal are a list of exceptions before a rule that blocks the rest. The
exceptions are read as the destinations the portal declares. -/

namespace HexRift

open Checks

variable {cfg : ConglomerateConfig} {crypto : Crypto} {portal : Portal} {c : Connection}

/-! ## Declared destinations -/

/-- Whether the connection goes to the target of a publish entry. -/
def PortalPublish.targets (entry : PortalPublish) (c : Connection) : Bool :=
  let (host, port) := entry.target.hostPort
  (if Python.isIpAddress host.toList then c.ip host else c.domain ("full:" ++ host)) &&
    c.port = port

/-- Whether the portal's routes or one of its publish entries declare the destination. -/
def Portal.declares (portal : Portal) (c : Connection) : Bool :=
  (portal.routes.domains.getD []).any c.domain || (portal.routes.ips.getD []).any c.ip ||
    portal.publish.any (·.targets c)

/-- A connection to a fixed host and port: a name is matched in full, an address by itself. -/
structure Connection.GoesTo (c : Connection) (host : String) (port : ℕ) : Prop where
  port : c.port = port
  name : Python.isIpAddress host.toList = false → c.domain ("full:" ++ host) = true
  address : Python.isIpAddress host.toList = true → c.ip host = true

theorem targets_of_goesTo {entry : PortalPublish}
    (h : c.GoesTo entry.target.hostPort.1 entry.target.hostPort.2) : entry.targets c = true := by
  simp only [PortalPublish.targets, h.port, decide_true, Bool.and_true]
  cases hliteral : Python.isIpAddress entry.target.hostPort.1.toList with
  | false => simp [h.name hliteral]
  | true => simp [h.address hliteral]

/-! ## Exceptions -/

/-- The rules of a strict portal before the one that blocks. -/
def exceptions (portal : Portal) (reverseTag : String) : List Rule :=
  (if given portal.routes.domains then
      [{ inboundTag := some [reverseTag], domain := portal.routes.domains
         outTag := SpecialDestination.direct.value }]
    else []) ++
  (if given portal.routes.ips then
      [{ inboundTag := some [reverseTag], ip := portal.routes.ips
         outTag := SpecialDestination.direct.value }]
    else []) ++
  portal.publish.map (publishTargetRule reverseTag)

def blockRule (reverseTag : String) : Rule :=
  { inboundTag := some [reverseTag], outTag := SpecialDestination.blocked.value }

theorem buildPortalRules_strict (h : portal.strict = true) (reverseTag : String) :
    buildPortalRules portal reverseTag =
      exceptions portal reverseTag ++ [blockRule reverseTag] := by
  simp [buildPortalRules, h, exceptions, blockRule]

theorem blockRule_matches {reverseTag : String} (h : c.inboundTag = reverseTag) :
    (blockRule reverseTag).matches c = true := by
  simp [Rule.matches, blockRule, h]

theorem domains_rule_matches {reverseTag outTag : String} {domains : Option (List String)}
    (h : c.inboundTag = reverseTag) :
    (if given domains then
        [{ inboundTag := some [reverseTag], domain := domains, outTag := outTag : Rule }]
      else []).any (·.matches c) = (domains.getD []).any c.domain := by
  cases hgiven : given domains with
  | false => simp [given_eq_false hgiven]
  | true => simp [Rule.matches, h, given_eq_true hgiven]

theorem ips_rule_matches {reverseTag outTag : String} {ips : Option (List String)}
    (h : c.inboundTag = reverseTag) :
    (if given ips then
        [{ inboundTag := some [reverseTag], ip := ips, outTag := outTag : Rule }]
      else []).any (·.matches c) = (ips.getD []).any c.ip := by
  cases hgiven : given ips with
  | false => simp [given_eq_false hgiven]
  | true => simp [Rule.matches, h, given_eq_true hgiven]

theorem publishTargetRule_matches {reverseTag : String} {entry : PortalPublish}
    (h : c.inboundTag = reverseTag) :
    (publishTargetRule reverseTag entry).matches c = entry.targets c := by
  simp only [Rule.matches, publishTargetRule, PortalPublish.targets]
  by_cases hliteral : Python.isIpAddress entry.target.hostPort.1.toList = true
  · simp [h, hliteral, eq_comm]
  · simp [h, hliteral, eq_comm]

/-- Some exception takes a connection out of the tunnel exactly when the portal declares its
destination. -/
theorem exceptions_any {reverseTag : String} (h : c.inboundTag = reverseTag) :
    (exceptions portal reverseTag).any (·.matches c) = portal.declares c := by
  have hpublish : (portal.publish.map (publishTargetRule reverseTag)).any (·.matches c) =
      portal.publish.any (·.targets c) := by
    rw [List.any_map]
    exact congrArg (portal.publish.any ·) (funext fun entry => publishTargetRule_matches h)
  rw [exceptions, List.any_append, List.any_append, domains_rule_matches h, ips_rule_matches h,
    hpublish, Portal.declares]

/-- Every exception is for the tunnel and lets the connection out. -/
theorem exception_direct {reverseTag : String} {rule : Rule}
    (h : rule ∈ exceptions portal reverseTag) :
    rule.inboundTag = some [reverseTag] ∧
      rule.target = (.outboundTag, SpecialDestination.direct.value) := by
  simp only [exceptions, List.mem_append, List.mem_map] at h
  rcases h with (h | h) | ⟨entry, -, rfl⟩
  · split at h
    · rw [List.mem_singleton] at h
      subst h
      exact ⟨rfl, rfl⟩
    · cases h
  · split at h
    · rw [List.mem_singleton] at h
      subst h
      exact ⟨rfl, rfl⟩
    · cases h
  · exact ⟨rfl, rfl⟩

/-! ## Rules of a strict portal -/

/-- A connection out of the tunnel is decided by a rule for the tunnel, which lets it out when
its destination is declared and blocks it when not. -/
theorem strict_rules_decide (hstrict : portal.strict = true) {reverseTag : String}
    (hc : c.inboundTag = reverseTag) (after : List Rule) :
    ∃ rule ∈ buildPortalRules portal reverseTag,
      (buildPortalRules portal reverseTag ++ after).find? (·.matches c) = some rule ∧
        rule.inboundTag = some [reverseTag] ∧
        rule.target = (.outboundTag, if portal.declares c then SpecialDestination.direct.value
          else SpecialDestination.blocked.value) := by
  have hfirst : (exceptions portal reverseTag ++ blockRule reverseTag :: after).find?
      (·.matches c) = some (((exceptions portal reverseTag).find? (·.matches c)).getD
        (blockRule reverseTag)) :=
    Passes.find?_append_cons (p := fun rule : Rule => rule.matches c) (blockRule_matches hc) _ _
  rw [buildPortalRules_strict hstrict, List.append_assoc, List.singleton_append, hfirst,
    ← exceptions_any hc]
  cases hfind : (exceptions portal reverseTag).find? (·.matches c) with
  | none =>
      have hany : (exceptions portal reverseTag).any (·.matches c) = false := by
        simpa using hfind
      refine ⟨blockRule reverseTag, by simp, rfl, rfl, ?_⟩
      rw [hany]
      rfl
  | some rule =>
      have hmem := List.mem_of_find?_eq_some hfind
      have hmatch : rule.matches c = true := by
        simpa using List.find?_some hfind
      have hany : (exceptions portal reverseTag).any (·.matches c) = true :=
        List.any_eq_true.mpr ⟨rule, hmem, hmatch⟩
      obtain ⟨htag, htarget⟩ := exception_direct hmem
      refine ⟨rule, by simp [hmem], rfl, htag, ?_⟩
      rw [hany]
      exact htarget

/-! ## Built configs -/

/-- The portal a config is built for, and what is built for it. -/
theorem buildPortalConfig_eq_ok {portalId fingerprint : String}
    {hubNodeKeys : String → Option NodeKeys} {config : PortalConfig}
    (h : buildPortalConfig crypto cfg portalId hubNodeKeys fingerprint = .ok config) :
    ∃ portal ∈ cfg.portals, portal.id.val = portalId ∧
      config.rules = buildPortalRules portal (portalTag portal.id) ++ [safetyPin] ∧
      ∃ dials, mapEach (hubNodePairs cfg)
          (fun p => dialHub crypto cfg portal hubNodeKeys fingerprint p.1 p.2) = .ok dials ∧
        config.outbounds = dials.map .reverse ++ [.direct] ++
          if portal.strict then [.blocked] else [] := by
  unfold buildPortalConfig at h
  cases hfind : cfg.portals.find? fun p => p.id.val = portalId with
  | none =>
      rw [hfind] at h
      cases h
  | some portal =>
      simp only [hfind, bind_eq_ok, pure_eq_ok] at h
      obtain ⟨dials, hdials, rfl⟩ := h
      have hid := List.find?_some hfind
      rw [decide_eq_true_eq] at hid
      exact ⟨portal, List.mem_of_find?_eq_some hfind, hid, rfl, dials, hdials, rfl⟩

/-- What a strict portal does with traffic out of its tunnels. -/
structure Confined (config : PortalConfig) (portal : Portal) : Prop where
  decided : ∀ c : Connection, c.inboundTag = portalTag portal.id →
    ∃ rule ∈ buildPortalRules portal (portalTag portal.id),
      config.rules.find? (·.matches c) = some rule ∧ rule ≠ safetyPin ∧
        rule.target = (.outboundTag, if portal.declares c then SpecialDestination.direct.value
          else SpecialDestination.blocked.value)
  outbounds : PortalOutbound.direct ∈ config.outbounds ∧ PortalOutbound.blocked ∈ config.outbounds
  tunnels : ∀ dial, PortalOutbound.reverse dial ∈ config.outbounds →
    dial.reverseTag = portalTag portal.id ∧ dial.sniffing = false

/-- A forward inbound sends what it takes to a place the portal lets it out to. -/
def ForwardAllowed (config : PortalConfig) (portal : Portal) (forward : Inbound) : Prop :=
  ∃ host port network, forward.settings = .dokodemo host port network ∧
    ∀ c : Connection, c.inboundTag = portalTag portal.id → c.GoesTo host port →
      dispatch config.rules c = some (.outboundTag, SpecialDestination.direct.value)

theorem dialHub_eq_ok {hubNodeKeys : String → Option NodeKeys} {fingerprint : String}
    {region : HubRegion} {node : HubNode} {dial : ReverseDial}
    (h : dialHub crypto cfg portal hubNodeKeys fingerprint region node = .ok dial) :
    ∃ keys, hubNodeKeys node.id.val = some keys ∧
      reverseDialOutbound crypto cfg portal region node keys fingerprint = .ok dial := by
  unfold dialHub at h
  split at h
  · cases h
  · rename_i keys hkeys
    exact ⟨keys, hkeys, h⟩

theorem reverseDialOutbound_tunnel {region : HubRegion} {node : HubNode} {keys : NodeKeys}
    {fingerprint : String} {dial : ReverseDial}
    (h : reverseDialOutbound crypto cfg portal region node keys fingerprint = .ok dial) :
    dial.reverseTag = portalTag portal.id ∧ dial.sniffing = !portal.strict := by
  simp only [reverseDialOutbound, bind_eq_ok, pure_eq_ok] at h
  obtain ⟨ctx, -, security, -, rfl⟩ := h
  exact ⟨rfl, rfl⟩

theorem Confined.of_config (h : Accepted cfg) (hportal : portal ∈ cfg.portals)
    (hstrict : portal.strict = true) {hubNodeKeys : String → Option NodeKeys}
    {fingerprint : String} {config : PortalConfig}
    (hbuild : buildPortalConfig crypto cfg portal.id.val hubNodeKeys fingerprint = .ok config) :
    Confined config portal := by
  obtain ⟨owner, howner, hid, hrules, dials, hdials, houtbounds⟩ := buildPortalConfig_eq_ok hbuild
  cases h.portal_eq howner hportal hid
  rw [hstrict, if_pos rfl] at houtbounds
  constructor
  · intro c hc
    obtain ⟨rule, hmem, hfind, htag, htarget⟩ := strict_rules_decide hstrict hc [safetyPin]
    refine ⟨rule, hmem, hrules ▸ hfind, ?_, htarget⟩
    rintro rfl
    cases htag
  · simp [houtbounds]
  · intro dial hdial
    have hmem : dial ∈ dials := by simpa [houtbounds] using hdial
    obtain ⟨p, -, hp⟩ := (mem_mapEach hdials).mp hmem
    obtain ⟨keys, -, hdial⟩ := dialHub_eq_ok hp
    simpa [hstrict] using reverseDialOutbound_tunnel hdial

/-- A strict portal lets out exactly what it declares, the published ports included. -/
theorem strict_portal_confined (cfg : AcceptedConfig) {portal : Portal}
    (hportal : portal ∈ cfg.portals) (hstrict : portal.strict = true)
    {hubNodeKeys : String → Option NodeKeys} {fingerprint : String} {config : PortalConfig}
    (h : buildPortalConfig crypto cfg.toConglomerateConfig portal.id.val hubNodeKeys fingerprint =
      .ok config) :
    Confined config portal ∧
      ∀ (store : KeyStore) (region : HubRegion) (node : HubNode) (hub : XrayConfig),
        Placed.hub region node ∈ cfg.placed →
        renderHub crypto cfg.toConglomerateConfig store region node = .ok hub →
          ∀ entry ∈ portal.publish, entry.resolvesOn node = true →
            ∀ forward ∈ hub.inbounds, forward.tag = publishTag portal.id.val entry.port.val →
              ForwardAllowed config portal forward := by
  have hconfined := Confined.of_config cfg.spec hportal hstrict h
  refine ⟨hconfined, ?_⟩
  intro store region node hub hplaced hrender entry hentry hon forward hforward htag
  obtain ⟨hregion, hnode⟩ := mem_placed_hub hplaced
  obtain ⟨hr⟩ := renderHub_eq_ok hrender
  have hpub : publishedPort portal entry ∈ resolveNodePublishes cfg.toConglomerateConfig node :=
    mem_resolveNodePublishes.mpr ⟨portal, hportal, entry, hentry, hon, rfl⟩
  have heq := hr.forward_eq cfg.spec hregion hnode hpub hforward htag
  refine ⟨entry.target.hostPort.1, entry.target.hostPort.2, entry.network,
    congrArg Inbound.settings heq, ?_⟩
  intro c hc hgoes
  obtain ⟨rule, -, hfind, -, htarget⟩ := hconfined.decided c hc
  have hdeclared : portal.declares c = true := by
    simp only [Portal.declares, Bool.or_eq_true, List.any_eq_true]
    exact .inr ⟨entry, hentry, targets_of_goesTo hgoes⟩
  rw [hdeclared] at htarget
  rw [dispatch, hfind]
  exact congrArg some htarget

theorem strict_portal_confined_office :
    ∃ config, buildPortalConfig Sample.officeCrypto Sample.office.toConglomerateConfig
        Sample.nas.id.val Sample.officeStore "chrome" = .ok config ∧
      Confined config Sample.nas ∧
        ∀ (store : KeyStore) (region : HubRegion) (node : HubNode) (hub : XrayConfig),
          Placed.hub region node ∈ Sample.office.placed →
          renderHub Sample.officeCrypto Sample.office.toConglomerateConfig store region node =
              .ok hub →
            ∀ entry ∈ Sample.nas.publish, entry.resolvesOn node = true →
              ∀ forward ∈ hub.inbounds,
                forward.tag = publishTag Sample.nas.id.val entry.port.val →
                  ForwardAllowed config Sample.nas forward := by
  obtain ⟨config, h⟩ := isOk_iff.mp (show (buildPortalConfig Sample.officeCrypto
    Sample.office.toConglomerateConfig Sample.nas.id.val Sample.officeStore "chrome").isOk = true by
      decide)
  exact ⟨config, h, strict_portal_confined Sample.office (by decide) (by decide) h⟩

end HexRift
