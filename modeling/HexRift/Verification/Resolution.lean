import HexRift.Library.Overlays
import HexRift.Model.KeyGen
import HexRift.Verification.Rendered

/-! # Settings come from the most specific layer

Each overlay puts one layer on top of settings already resolved. A resolver is a few overlays,
so each of its fields is what the first layer sets that sets the field. -/

namespace HexRift

open Overlays

/-! ## Blocks of settings -/

/-- Each field of xhttp settings is that of the first layer to set it. -/
structure XhttpLayers (layers : List (Option XhttpOverride)) (base x : XhttpOverride) : Prop where
  path : x.path = pick layers (·.path) base.path
  host : x.host = pick layers (·.host) base.host

structure HysteriaLayers (layers : List (Option HysteriaOverride)) (base h : HysteriaConfig) :
    Prop where
  port : some h.port = pick layers (·.port) (some base.port)
  obfs : some h.obfs = pick layers (·.obfs) (some base.obfs)
  congestion : some h.congestion = pick layers (·.congestion) (some base.congestion)
  up : h.up = pick layers (·.up) base.up
  down : h.down = pick layers (·.down) base.down
  sni : h.sni = pick layers (·.sni) base.sni
  masqueradeUrl : h.masqueradeUrl = pick layers (·.masqueradeUrl) base.masqueradeUrl
  keyType : h.keyType = pick layers (·.keyType) base.keyType
  certificate : h.certificate = pick layers (·.certificate) base.certificate

structure MetricsLayers (layers : List (Option MetricsOverride)) (base m : MetricsConfig) :
    Prop where
  enabled : some m.enabled = pick layers (·.enabled) (some base.enabled)
  listen : some m.listen = pick layers (·.listen) (some base.listen)
  port : some m.port = pick layers (·.port) (some base.port)
  userStats : some m.userStats = pick layers (·.userStats) (some base.userStats)
  online : some m.online = pick layers (·.online) (some base.online)

structure LoggingLayers (layers : List (Option LoggingOverride)) (base l : LoggingConfig) :
    Prop where
  loglevel : some l.loglevel = pick layers (·.loglevel) (some base.loglevel)
  access : some l.access = pick layers (·.access) (some base.access)
  error : some l.error = pick layers (·.error) (some base.error)
  dnsLog : some l.dnsLog = pick layers (·.dnsLog) (some base.dnsLog)

structure KeysLayers (layers : List (Option NodeKeysOverride)) (base k : KeysConfig) : Prop where
  enabled : some k.enabled = pick layers (·.enabled) (some base.enabled)
  mode : some k.mode = pick layers (·.mode) (some base.mode)
  sessionTime : some k.sessionTime = pick layers (·.sessionTime) (some base.sessionTime)
  auth : some k.auth = pick layers (·.auth) (some base.auth)
  padding : k.padding = pick layers (·.padding) base.padding

/-- The built-in settings have no subnet. -/
structure WireguardLayers (layers : List (Option NodeWireguardOverride))
    (base : Option WireguardConfig) (w : WireguardConfig) : Prop where
  port : some w.port = pick layers (·.port) (first [base.map (·.port), some { val := 443 }])
  mtu : some w.mtu = pick layers (·.mtu) (first [base.map (·.mtu), some 1420])
  subnet : some w.subnet = pick layers (·.subnet) (base.map (·.subnet))
  keepalive : some w.keepalive = pick layers (·.keepalive) (first [base.map (·.keepalive), some 0])
  kernelMode : some w.kernelMode =
    pick layers (·.kernelMode) (first [base.map (·.kernelMode), some false])

structure ExitConnectionsLayers (layers : List (Option NodeExitConnectionsOverride))
    (base c : ExitConnectionsConfig) : Prop where
  method : some c.method = pick layers (·.method) (some base.method)
  fingerprint : some c.fingerprint = pick layers (·.fingerprint) (some base.fingerprint)

/-! ## One layer more -/

theorem XhttpLayers.nil (base : XhttpOverride) : XhttpLayers [] base base := by
  constructor
  all_goals rw [pick_nil]

theorem XhttpLayers.overlay {layers : List (Option XhttpOverride)} {base x : XhttpOverride}
    (h : XhttpLayers layers base x) (layer : Option XhttpOverride) :
    XhttpLayers (layer :: layers) base (x.overlay layer) := by
  cases layer with
  | none => exact ⟨h.path, h.host⟩
  | some o => exact ⟨congrArg o.path.or h.path, congrArg o.host.or h.host⟩

theorem HysteriaLayers.nil (base : HysteriaConfig) : HysteriaLayers [] base base := by
  constructor
  all_goals rw [pick_nil]

theorem HysteriaLayers.overlay {layers : List (Option HysteriaOverride)} {base x : HysteriaConfig}
    (h : HysteriaLayers layers base x) (layer : Option HysteriaOverride) :
    HysteriaLayers (layer :: layers) base (overlayHysteria x layer) := by
  cases layer with
  | none =>
      exact ⟨h.port, h.obfs, h.congestion, h.up, h.down, h.sni, h.masqueradeUrl, h.keyType,
        h.certificate⟩
  | some o =>
      constructor
      · rw [pick_some, ← h.port]
        exact Option.or_some.symm
      · rw [pick_some, ← h.obfs]
        exact Option.or_some.symm
      · rw [pick_some, ← h.congestion]
        exact Option.or_some.symm
      · exact congrArg o.up.or h.up
      · exact congrArg o.down.or h.down
      · exact congrArg o.sni.or h.sni
      · exact congrArg o.masqueradeUrl.or h.masqueradeUrl
      · exact congrArg o.keyType.or h.keyType
      · exact congrArg o.certificate.or h.certificate

theorem MetricsLayers.nil (base : MetricsConfig) : MetricsLayers [] base base := by
  constructor
  all_goals rw [pick_nil]

theorem MetricsLayers.overlay {layers : List (Option MetricsOverride)} {base x : MetricsConfig}
    (h : MetricsLayers layers base x) (layer : Option MetricsOverride) :
    MetricsLayers (layer :: layers) base (overlayMetrics x layer) := by
  cases layer with
  | none => exact ⟨h.enabled, h.listen, h.port, h.userStats, h.online⟩
  | some o =>
      constructor
      · rw [pick_some, ← h.enabled]
        exact Option.or_some.symm
      · rw [pick_some, ← h.listen]
        exact Option.or_some.symm
      · rw [pick_some, ← h.port]
        exact Option.or_some.symm
      · rw [pick_some, ← h.userStats]
        exact Option.or_some.symm
      · rw [pick_some, ← h.online]
        exact Option.or_some.symm

theorem LoggingLayers.nil (base : LoggingConfig) : LoggingLayers [] base base := by
  constructor
  all_goals rw [pick_nil]

theorem LoggingLayers.overlay {layers : List (Option LoggingOverride)} {base x : LoggingConfig}
    (h : LoggingLayers layers base x) (layer : Option LoggingOverride) :
    LoggingLayers (layer :: layers) base (overlayLogging x layer) := by
  cases layer with
  | none => exact ⟨h.loglevel, h.access, h.error, h.dnsLog⟩
  | some o =>
      constructor
      · rw [pick_some, ← h.loglevel]
        exact Option.or_some.symm
      · rw [pick_some, ← h.access]
        exact Option.or_some.symm
      · rw [pick_some, ← h.error]
        exact Option.or_some.symm
      · rw [pick_some, ← h.dnsLog]
        exact Option.or_some.symm

/-! ## Resolvers -/

section Resolvers

variable {node : Node} {region : Region} {defaults : DefaultsConfig} {global : GlobalConfig}

/-- Whether the direct inbounds of a hub region serve TLS. -/
def HubRegion.servesTls (region : HubRegion) (defaults : DefaultsConfig) : Bool :=
  if region.reality.isSome then false
  else if region.tls.isSome then true
  else defaults.hub.tls.isSome

/-- Whether the direct inbounds of a region are secured unlike those of `defaults.hub`. -/
def Region.switchesSecurity (region : Region) (defaults : DefaultsConfig) : Bool :=
  match region with
  | .exit _ => false
  | .hub r => r.servesTls defaults ≠ defaults.hub.tls.isSome

def roleXhttp (region : Region) (defaults : DefaultsConfig) : Option XhttpConfig :=
  match region with
  | .exit _ => defaults.exit.xhttp
  | .hub _ => defaults.hub.xhttp

/-- The default xhttp settings of a role, the host left out where the security differs. -/
def defaultXhttp (region : Region) (defaults : DefaultsConfig) : XhttpOverride :=
  { path := (roleXhttp region defaults).map (·.path)
    host := if region.switchesSecurity defaults then none
      else (roleXhttp region defaults).bind (·.host) }

def Region.hysteria : Region → Option HysteriaOverride
  | .exit r => r.hysteria
  | .hub _ => none

def defaultKeys (region : Region) (defaults : DefaultsConfig) : KeysConfig :=
  match region with
  | .exit _ => defaults.exit.keys
  | .hub _ => defaults.hub.keys

/-- The settings resolved for a node, each field from the first layer that sets it. -/
structure ResolvedByLayers (node : Node) (region : Region) (defaults : DefaultsConfig)
    (global : GlobalConfig) : Prop where
  xhttp : ∀ x, resolveNodeXhttp node region defaults = .ok x →
    XhttpLayers [node.xhttp, region.xhttp] (defaultXhttp region defaults) x.asOverride
  hysteria : ∀ h, resolveNodeHysteria node region defaults = some h →
    HysteriaLayers [node.hysteria, region.hysteria] (defaultHysteria region defaults) h
  metrics : MetricsLayers
    [node.observability.bind (·.metrics), (roleObservability region defaults).bind (·.metrics)]
    global.observability.metrics (resolveNodeMetrics node region defaults global)
  observability : MetricsLayers
      [node.observability.bind (·.metrics), (roleObservability region defaults).bind (·.metrics)]
      global.observability.metrics
      (resolveNodeObservability node region defaults global).metrics ∧
    LoggingLayers
      [node.observability.bind (·.logging), (roleObservability region defaults).bind (·.logging)]
      global.observability.logging
      (resolveNodeObservability node region defaults global).logging
  keys : KeysLayers [node.keys] (defaultKeys region defaults) (resolveNodeKeys node region defaults)
  wireguard : ∀ n, node = .hub n → ∀ w, resolveNodeWireguard n defaults = .ok (some w) →
    WireguardLayers [n.wireguard] defaults.hub.wireguard w
  exitConnections : ∀ n, node = .hub n →
    ExitConnectionsLayers [n.exitConnections] defaults.hub.exitConnections
      (resolveExitConnections n defaults)

theorem resolveRegionTls_isSome {r : HubRegion} {tls : Option TlsConfig}
    (h : resolveRegionTls r defaults = .ok tls) : tls.isSome = r.servesTls defaults := by
  unfold resolveRegionTls at h
  unfold HubRegion.servesTls
  split at h
  · rename_i hreality
    cases h
    rw [if_pos hreality]
    rfl
  · rename_i hreality
    rw [if_neg hreality]
    split at h
    · rename_i htls
      cases h
      rw [htls]
      rfl
    · rename_i o htls
      rw [htls, Option.isSome_some, if_pos rfl]
      split at h
      · cases h
        rfl
      · split at h
        · cases h
        · cases h
          rfl

theorem xhttpBase_eq {base : Option XhttpConfig} (h : xhttpBase region defaults = .ok base) :
    XhttpOverride.overlay {} (base.map XhttpConfig.asOverride) = defaultXhttp region defaults := by
  cases region with
  | exit r =>
      cases h
      simp only [defaultXhttp, roleXhttp, Region.switchesSecurity, Bool.false_eq_true, if_false]
      cases defaults.exit.xhttp with
      | none => rfl
      | some x => simp [XhttpOverride.overlay, XhttpConfig.asOverride]
  | hub r =>
      simp only [xhttpBase] at h
      simp only [defaultXhttp, roleXhttp]
      split at h
      · rename_i hnone
        cases h
        rw [hnone]
        simp [XhttpOverride.overlay]
      · rename_i x hsome
        simp only [Checks.bind_eq_ok] at h
        obtain ⟨tls, htls, h⟩ := h
        have hserves := resolveRegionTls_isSome htls
        have hswitch : (Region.hub r).switchesSecurity defaults =
            decide (tls.isNone ≠ defaults.hub.tls.isNone) := by
          rw [Region.switchesSecurity, ← hserves]
          cases tls
          all_goals
            cases defaults.hub.tls
            all_goals rfl
        rw [hsome, hswitch]
        split at h
        · rename_i hdiffers
          cases h
          simp [XhttpOverride.overlay, XhttpConfig.asOverride, hdiffers]
        · rename_i hdiffers
          cases h
          simp only [decide_eq_true_eq, if_neg hdiffers]
          simp [XhttpOverride.overlay, XhttpConfig.asOverride]

theorem resolveNodeXhttp_layers {x : XhttpConfig}
    (h : resolveNodeXhttp node region defaults = .ok x) :
    XhttpLayers [node.xhttp, region.xhttp] (defaultXhttp region defaults) x.asOverride := by
  simp only [resolveNodeXhttp, Checks.bind_eq_ok] at h
  obtain ⟨base, hbase, h⟩ := h
  have hlayers := ((XhttpLayers.nil (defaultXhttp region defaults)).overlay region.xhttp).overlay
    node.xhttp
  rw [xhttpBase_eq hbase] at h
  split at h
  · cases h
  · rename_i path hpath
    cases h
    rw [XhttpConfig.asOverride, ← hpath]
    exact hlayers

theorem resolveHysteriaOverlay_layers : HysteriaLayers [node.hysteria, region.hysteria]
    (defaultHysteria region defaults) (resolveHysteriaOverlay node region defaults) := by
  have hnil := HysteriaLayers.nil (defaultHysteria region defaults)
  cases region with
  | exit r => exact (hnil.overlay r.hysteria).overlay node.hysteria
  | hub r => exact (hnil.overlay none).overlay node.hysteria

theorem resolveNodeHysteria_layers {h : HysteriaConfig}
    (hh : resolveNodeHysteria node region defaults = some h) :
    HysteriaLayers [node.hysteria, region.hysteria] (defaultHysteria region defaults) h := by
  cases region with
  | exit r =>
      simp only [resolveNodeHysteria] at hh
      split at hh
      · cases hh
        exact resolveHysteriaOverlay_layers
      · cases hh
  | hub r =>
      simp only [resolveNodeHysteria] at hh
      split at hh
      · rename_i hnone
        have hbase : defaultHysteria (.hub r) defaults = h := by
          rw [defaultHysteria, hh, Option.getD_some]
        rw [hnone, hbase]
        exact (HysteriaLayers.nil h).overlay none |>.overlay none
      · split at hh
        · cases hh
        · cases hh
          exact resolveHysteriaOverlay_layers

theorem resolveNodeMetrics_layers : MetricsLayers
    [node.observability.bind (·.metrics), (roleObservability region defaults).bind (·.metrics)]
    global.observability.metrics (resolveNodeMetrics node region defaults global) :=
  ((MetricsLayers.nil global.observability.metrics).overlay _).overlay _

theorem resolveNodeLogging_layers : LoggingLayers
    [node.observability.bind (·.logging), (roleObservability region defaults).bind (·.logging)]
    global.observability.logging
    (resolveNodeObservability node region defaults global).logging :=
  ((LoggingLayers.nil global.observability.logging).overlay _).overlay _

theorem overlayMtu_eq (o : NodeWireguardOverride) (base : Option WireguardConfig) :
    some (overlayMtu o base).1 = o.mtu.or (first [base.map (·.mtu), some 1420]) := by
  simp only [overlayMtu]
  split
  · rename_i m hm
    simp [hm]
  · rename_i hm
    rw [hm]
    cases base with
    | none => rfl
    | some b => rfl

theorem resolveNodeWireguard_layers {n : HubNode} {w : WireguardConfig}
    (h : resolveNodeWireguard n defaults = .ok (some w)) :
    WireguardLayers [n.wireguard] defaults.hub.wireguard w := by
  simp only [resolveNodeWireguard] at h
  split at h
  · cases h
  · rename_i port hport
    split at h
    · rename_i hnone
      have hbase := Except.ok.inj h
      rw [hnone, hbase]
      constructor
      all_goals rfl
    · rename_i o ho
      split at h
      · cases h
      · rename_i subnet hsubnet
        have hw := Option.some.inj (Except.ok.inj h)
        subst hw
        have hoverride : port = o.port.getD
            (defaults.hub.wireguard.elim { val := 443 } (·.port)) := by
          simp only [resolveNodeWireguardPort, ho] at hport
          split at hport
          · cases hport
          · exact (Option.some.inj hport).symm
        rw [ho]
        constructor
        · rw [hoverride, pick_some, pick_nil, ← Option.or_some]
          cases defaults.hub.wireguard with
          | none => rfl
          | some base => rfl
        · rw [pick_some, pick_nil]
          exact overlayMtu_eq o defaults.hub.wireguard
        · rw [pick_some, pick_nil]
          exact hsubnet.symm
        · rw [pick_some, pick_nil, ← Option.or_some]
          cases defaults.hub.wireguard with
          | none => rfl
          | some base => rfl
        · rw [pick_some, pick_nil, ← Option.or_some]
          cases defaults.hub.wireguard with
          | none => rfl
          | some base => rfl

theorem resolveExitConnections_layers (n : HubNode) :
    ExitConnectionsLayers [n.exitConnections] defaults.hub.exitConnections
      (resolveExitConnections n defaults) := by
  cases h : n.exitConnections with
  | none =>
      simp only [resolveExitConnections, h]
      constructor
      all_goals rfl
  | some o =>
      simp only [resolveExitConnections, h]
      constructor
      · rw [pick_some, pick_nil]
        exact Option.or_some.symm
      · rw [pick_some, pick_nil]
        exact Option.or_some.symm

/-! ## Key settings -/

theorem filter_ne_empty_of_duration {o : Option String} (h : ∀ s ∈ o, isDuration s = true) :
    o.filter (· ≠ "") = o := by
  cases o with
  | none => rfl
  | some s =>
      have hne : s ≠ "" := by
        rintro rfl
        exact absurd (h "" rfl) (by decide)
      simp [hne]

theorem resolveNodeKeys_none (h : node.keys = none) :
    resolveNodeKeys node region defaults = defaultKeys region defaults := by
  simp only [resolveNodeKeys, h]
  cases region
  all_goals rfl

theorem resolveNodeKeys_some {o : NodeKeysOverride} (h : node.keys = some o) :
    resolveNodeKeys node region defaults =
      { enabled := o.enabled.getD (defaultKeys region defaults).enabled
        mode := (o.mode.filter (· ≠ "")).getD (defaultKeys region defaults).mode
        sessionTime := o.sessionTime.getD (defaultKeys region defaults).sessionTime
        auth := o.auth.getD (defaultKeys region defaults).auth
        padding := o.padding.or (defaultKeys region defaults).padding } := by
  simp only [resolveNodeKeys, h, filter_ne_empty_of_duration o.sessionTime_duration]
  cases region
  all_goals rfl

theorem filter_getD_eq_or_iff (mode : Option String) (base : String) :
    some ((mode.filter (· ≠ "")).getD base) = mode.or (some base) ↔
      (mode = some "" → base = "") := by
  cases mode with
  | none => simp
  | some s =>
      by_cases hempty : s = ""
      · subst hempty
        simp [Option.filter_some]
      · simp [Option.filter_some, hempty]

/-- The text of the mode is the only setting that counts as unset when it is empty. -/
theorem resolveNodeKeys_layers_iff :
    KeysLayers [node.keys] (defaultKeys region defaults) (resolveNodeKeys node region defaults) ↔
      (node.keys.bind (·.mode) = some "" → (defaultKeys region defaults).mode = "") := by
  cases hkeys : node.keys with
  | none =>
      rw [resolveNodeKeys_none hkeys]
      constructor
      · intro h hnone
        cases hnone
      · exact fun _ => ⟨rfl, rfl, rfl, rfl, Option.or_none.symm⟩
  | some o =>
      rw [resolveNodeKeys_some hkeys, Option.bind_some, ← filter_getD_eq_or_iff]
      constructor
      · exact fun h => h.mode
      · exact fun hmode => {
          enabled := Option.or_some.symm
          mode := hmode
          sessionTime := Option.or_some.symm
          auth := Option.or_some.symm
          padding := congrArg o.padding.or Option.or_none.symm }

/-- Every setting of a node is that of the first layer to set it, unless the node sets the mode
of its keys to the empty text over a default that is not. -/
theorem resolved_by_layers_iff (node : Node) (region : Region) (defaults : DefaultsConfig)
    (global : GlobalConfig) :
    ResolvedByLayers node region defaults global ↔
      (node.keys.bind (·.mode) = some "" → (defaultKeys region defaults).mode = "") := by
  rw [← resolveNodeKeys_layers_iff]
  constructor
  · exact fun h => h.keys
  · exact fun hkeys => {
      xhttp := fun x => resolveNodeXhttp_layers
      hysteria := fun h => resolveNodeHysteria_layers
      metrics := resolveNodeMetrics_layers
      observability := ⟨resolveNodeMetrics_layers, resolveNodeLogging_layers⟩
      keys := hkeys
      wireguard := fun n _ w => resolveNodeWireguard_layers
      exitConnections := fun n _ => resolveExitConnections_layers n }

end Resolvers

namespace Sample

/-- A hub node that sets an empty mode for its keys. -/
def emptyModeNode : HubNode := { hubNode with keys := some { noKeys with mode := some "" } }

def emptyMode : AcceptedConfig :=
  { toConglomerateConfig := topology [] [user aliceName] []
      { hubRegion with nodes := [emptyModeNode] } }

end Sample

/-- The empty mode is passed over, and the default one is used. -/
theorem empty_mode_passed_over :
    ¬ ∀ (cfg : AcceptedConfig), ∀ region ∈ cfg.regions, ∀ node ∈ region.nodes,
      ResolvedByLayers node region cfg.defaults cfg.global := by
  intro h
  have hlayers := h Sample.emptyMode
    (.hub { Sample.hubRegion with nodes := [Sample.emptyModeNode] }) (by decide)
    (.hub Sample.emptyModeNode) (by decide)
  have hmode := hlayers.keys.mode
  exact absurd hmode (by decide)

end HexRift
