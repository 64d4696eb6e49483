import HexRift.Verification.References

/-! # Balancer selectors

A selector is matched as a prefix against the tag of everything a connection can leave a hub
by. It picks the primary nodes of its region exactly when the ids of the topology keep
certain prefixes apart. -/

namespace HexRift

variable {cfg : ConglomerateConfig} {crypto : Crypto} {store : KeyStore}

/-- What a connection can leave a hub by. -/
inductive HubOutbound where
  | link (region : ExitRegion) (node : ExitNode)
  | warpLink (region : ExitRegion) (node : ExitNode)
  | fixed (tag : String)
  | portal (portal : Portal)

def HubOutbound.tag : HubOutbound → String
  | link _ n => linkTag n
  | warpLink _ n => warpLinkTag n
  | fixed tag => tag
  | portal p => portalTag p.id

/-- Name of the link rendered for it. -/
def HubOutbound.linkName : HubOutbound → Option (String × String)
  | link _ n => some (HexRift.linkName n)
  | warpLink _ n => some (warpLinkName n)
  | fixed _ | portal _ => none

def hubOutbounds (cfg : ConglomerateConfig) : List HubOutbound :=
  (renderedExitNodes cfg).map (fun p => .link p.1 p.2) ++
    (renderedExitNodes cfg).filterMap
      (fun p => if p.1.warp.isSome then some (.warpLink p.1 p.2) else none) ++
    specialDestinations.map .fixed ++ cfg.portals.map .portal

/-- Outbounds and reverse tags of a rendered hub config, in order. -/
theorem HubRendered.names {region : HubRegion} {node : HubNode} {config : XrayConfig}
    (h : HubRendered crypto cfg region node config) :
    config.outbounds.map (fun o => (o.tag, o.linkName)) ++
        config.reverseTags.map (fun tag => (tag, none)) =
      (hubOutbounds cfg).map fun o => (o.tag, o.linkName) := by
  rw [h.outbound_names, h.reverseTags, hubOutbounds]
  simp only [List.map_append, List.map_map, List.map_filterMap, Option.map_if]
  rfl

/-- The tags of a rendered hub config are those of its outbounds, in order. -/
theorem HubRendered.tags {region : HubRegion} {node : HubNode} {config : XrayConfig}
    (h : HubRendered crypto cfg region node config) :
    config.outboundTags ++ config.reverseTags = (hubOutbounds cfg).map HubOutbound.tag := by
  have hnames := congrArg (List.map Prod.fst) h.names
  simp only [List.map_append, List.map_map] at hnames
  simpa [Function.comp_def, XrayConfig.outboundTags] using hnames

theorem mem_hubOutbounds {o : HubOutbound} :
    o ∈ hubOutbounds cfg ↔
      (∃ r n, (r, n) ∈ renderedExitNodes cfg ∧
        (o = .link r n ∨ r.warp.isSome = true ∧ o = .warpLink r n)) ∨
      (∃ s ∈ specialDestinations, o = .fixed s) ∨ ∃ p ∈ cfg.portals, o = .portal p := by
  simp only [hubOutbounds, List.mem_append, List.mem_map, List.mem_filterMap, Prod.exists,
    Option.ite_none_right_eq_some, Option.some.injEq, eq_comm (b := o)]
  constructor
  · rintro (((⟨r, n, hp, ho⟩ | ⟨r, n, hp, hwarp, ho⟩) | h) | h)
    · exact .inl ⟨r, n, hp, .inl ho⟩
    · exact .inl ⟨r, n, hp, .inr ⟨hwarp, ho⟩⟩
    · exact .inr (.inl h)
    · exact .inr (.inr h)
  · rintro (⟨r, n, hp, ho | ⟨hwarp, ho⟩⟩ | h | h)
    · exact .inl (.inl (.inl ⟨r, n, hp, ho⟩))
    · exact .inl (.inl (.inr ⟨r, n, hp, hwarp, ho⟩))
    · exact .inl (.inr h)
    · exact .inr h

/-! ## Exact membership -/

/-- Whether the tag starts with one of the selectors. -/
def selects (selectors : List String) (tag : String) : Bool :=
  selectors.any fun s => Python.startswith tag s

def HubOutbound.IsPrimaryLink (r : ExitRegion) (o : HubOutbound) : Prop :=
  ∃ n ∈ primaryNodes r, o = .link r n

def HubOutbound.IsPrimaryWarp (r : ExitRegion) (o : HubOutbound) : Prop :=
  ∃ n ∈ primaryNodes r, o = .warpLink r n

/-- The name is that of a link to a primary node of the region, with the tag prefix. -/
def NamesPrimary (r : ExitRegion) (pre : String) (name : Option (String × String)) : Prop :=
  ∃ n ∈ primaryNodes r, name = some (pre, n.id.val)

/-- The selectors match the outbounds whose link is meant, and nothing else. -/
def XrayConfig.SelectsExactly (config : XrayConfig) (selectors : List String)
    (meant : Option (String × String) → Prop) : Prop :=
  (∀ o ∈ config.outbounds, selects selectors o.tag = true ↔ meant o.linkName) ∧
    ∀ tag ∈ config.reverseTags, selects selectors tag = false

/-- Each balancer of a hub, and the observatory, select the outbounds they are meant for. -/
structure MembershipExact (cfg : ConglomerateConfig) (config : XrayConfig) : Prop where
  lb : ∀ r ∈ renderedExitRegions cfg, balanced r = true → ∀ b ∈ config.balancers,
    b.tag = TagPrefix.lb ++ r.id.val →
      config.SelectsExactly b.selector (NamesPrimary r TagPrefix.none)
  lbWarp : ∀ r ∈ renderedExitRegions cfg, balanced r = true → r.warp.isSome = true →
    ∀ b ∈ config.balancers, b.tag = TagPrefix.lbWarp ++ r.id.val →
      config.SelectsExactly b.selector (NamesPrimary r TagPrefix.warp)
  observatory : config.SelectsExactly config.observatorySelectors fun name =>
    ∃ r ∈ renderedExitRegions cfg, balanced r = true ∧
      (NamesPrimary r TagPrefix.none name ∨
        r.warp.isSome = true ∧ NamesPrimary r TagPrefix.warp name)

/-- The ids of a balanced region's primary nodes, and no other tag, start with its id. -/
structure IdsSeparate (cfg : ConglomerateConfig) (r : ExitRegion) : Prop where
  members : ∀ n ∈ primaryNodes r, Python.startswith n.id.val r.id.val = true
  others : ∀ q ∈ renderedExitRegions cfg, q ≠ r → ∀ n ∈ primaryNodes q,
    Python.startswith n.id.val r.id.val = false
  backups : ∀ q n, (q, n) ∈ renderedExitNodes cfg → n.lbRole = some .backup →
    Python.startswith (TagPrefix.backup ++ n.id.val) r.id.val = false
  warps : ∀ q n, (q, n) ∈ renderedExitNodes cfg → q.warp.isSome = true →
    Python.startswith (warpLinkTag n) r.id.val = false
  fixed : ∀ s ∈ specialDestinations, Python.startswith s r.id.val = false
  warpNames : r.warp.isSome = true → ∀ q ∈ renderedExitRegions cfg, ∀ n ∈ primaryNodes q,
    Python.startswith n.id.val (TagPrefix.warp ++ r.id.val) = false

/-- What the selectors of one balanced region have to do. -/
structure SelectorsExact (cfg : ConglomerateConfig) (r : ExitRegion) : Prop where
  plain : ∀ o ∈ hubOutbounds cfg,
    Python.startswith o.tag r.id.val = true ↔ o.IsPrimaryLink r
  warp : r.warp.isSome = true → ∀ o ∈ hubOutbounds cfg,
    Python.startswith o.tag (TagPrefix.warp ++ r.id.val) = true ↔ o.IsPrimaryWarp r

theorem mem_primaryNodes {r : ExitRegion} {n : ExitNode} :
    n ∈ primaryNodes r ↔ n ∈ r.nodes ∧ n.lbRole ≠ some .backup := by
  simp [primaryNodes]

theorem mem_renderedExitNodes_of {q : ExitRegion} {n : ExitNode}
    (hq : q ∈ renderedExitRegions cfg) (hn : n ∈ q.nodes) : (q, n) ∈ renderedExitNodes cfg :=
  mem_renderedExitNodes.mpr ⟨(mem_renderedExitRegions.mp hq).1, hn⟩

theorem renderedExitRegions_of {q : ExitRegion} {n : ExitNode}
    (h : (q, n) ∈ renderedExitNodes cfg) : q ∈ renderedExitRegions cfg ∧ n ∈ q.nodes := by
  obtain ⟨hq, hn⟩ := mem_renderedExitNodes.mp h
  exact ⟨mem_renderedExitRegions.mpr ⟨hq, List.ne_nil_of_mem hn⟩, hn⟩

/-! ### Separate ids make selectors exact -/

theorem warp_not_prefix_backup (x y : String) :
    Python.startswith (TagPrefix.backup ++ x) (TagPrefix.warp ++ y) = false := by
  cases h : Python.startswith (TagPrefix.backup ++ x) (TagPrefix.warp ++ y) with
  | false => rfl
  | true =>
      have hpre := Python.startswith_iff.mp h
      simp [TagPrefix.backup, TagPrefix.warp] at hpre

theorem warp_not_prefix_special {s y : String} (hs : s ∈ specialDestinations) :
    Python.startswith s (TagPrefix.warp ++ y) = false := by
  have hwarp : ∀ s ∈ specialDestinations, Python.startswith s TagPrefix.warp = false := by decide
  cases h : Python.startswith s (TagPrefix.warp ++ y) with
  | false => rfl
  | true =>
      exact absurd (Python.startswith_of_append h) (by simp [hwarp s hs])

/-- The plain tags that start with the region's id are those of its primary nodes. -/
theorem IdsSeparate.linkTag_iff {r q : ExitRegion} {n : ExitNode} (h : IdsSeparate cfg r)
    (hn : (q, n) ∈ renderedExitNodes cfg) :
    Python.startswith (linkTag n) r.id.val = true ↔ q = r ∧ n ∈ primaryNodes r := by
  obtain ⟨hq, hmem⟩ := renderedExitRegions_of hn
  by_cases hrole : n.lbRole = some .backup
  · rw [linkTag_backup hrole, h.backups q n hn hrole, mem_primaryNodes]
    simp [hrole]
  · rw [linkTag_primary hrole]
    by_cases heq : q = r
    · subst heq
      have hprimary := mem_primaryNodes.mpr ⟨hmem, hrole⟩
      simp [hprimary, h.members n hprimary]
    · simp [h.others q hq heq n (mem_primaryNodes.mpr ⟨hmem, hrole⟩), heq]

theorem IdsSeparate.selectorsExact (hcfg : Accepted cfg) {r : ExitRegion}
    (hr : r ∈ renderedExitRegions cfg) (h : IdsSeparate cfg r) : SelectorsExact cfg r := by
  have hportal : ∀ p ∈ cfg.portals, Python.startswith (portalTag p.id) r.id.val = false ∧
      Python.startswith (portalTag p.id) (TagPrefix.warp ++ r.id.val) = false := by
    intro p hp
    have hpre := (hcfg.portals.portal p hp).regionPrefix r (mem_renderedExitRegions.mp hr).1
    simpa [not_or] using hpre
  constructor
  · intro o ho
    rcases mem_hubOutbounds.mp ho with ⟨q, n, hn, rfl | ⟨hwarp, rfl⟩⟩ | ⟨s, hs, rfl⟩ | ⟨p, hp, rfl⟩
    · simp only [HubOutbound.tag, h.linkTag_iff hn, HubOutbound.IsPrimaryLink,
        HubOutbound.link.injEq]
      grind
    · simp [HubOutbound.tag, h.warps q n hn hwarp, HubOutbound.IsPrimaryLink]
    · simp [HubOutbound.tag, h.fixed s hs, HubOutbound.IsPrimaryLink]
    · simp [HubOutbound.tag, hportal p hp, HubOutbound.IsPrimaryLink]
  · intro hsome o ho
    rcases mem_hubOutbounds.mp ho with ⟨q, n, hn, rfl | ⟨hwarp, rfl⟩⟩ | ⟨s, hs, rfl⟩ | ⟨p, hp, rfl⟩
    · have hfalse : Python.startswith (linkTag n) (TagPrefix.warp ++ r.id.val) = false := by
        obtain ⟨hq, hmem⟩ := renderedExitRegions_of hn
        by_cases hrole : n.lbRole = some .backup
        · rw [linkTag_backup hrole, warp_not_prefix_backup]
        · rw [linkTag_primary hrole]
          exact h.warpNames hsome q hq n (mem_primaryNodes.mpr ⟨hmem, hrole⟩)
      simp [HubOutbound.tag, hfalse, HubOutbound.IsPrimaryWarp]
    · rw [HubOutbound.tag, warpLinkTag, Python.startswith_append_append, h.linkTag_iff hn]
      simp only [HubOutbound.IsPrimaryWarp, HubOutbound.warpLink.injEq]
      grind
    · simp [HubOutbound.tag, warp_not_prefix_special hs, HubOutbound.IsPrimaryWarp]
    · simp [HubOutbound.tag, hportal p hp, HubOutbound.IsPrimaryWarp]

/-! ### Exact selectors keep ids separate -/

theorem SelectorsExact.plain_eq_false {r : ExitRegion} (h : SelectorsExact cfg r)
    {o : HubOutbound} (ho : o ∈ hubOutbounds cfg) (hnot : ¬ o.IsPrimaryLink r) :
    Python.startswith o.tag r.id.val = false :=
  Bool.eq_false_iff.mpr fun hpre => hnot ((h.plain o ho).mp hpre)

theorem SelectorsExact.idsSeparate {r : ExitRegion} (hr : r ∈ renderedExitRegions cfg)
    (h : SelectorsExact cfg r) : IdsSeparate cfg r := by
  have hlink : ∀ {q n}, (q, n) ∈ renderedExitNodes cfg →
      HubOutbound.link q n ∈ hubOutbounds cfg :=
    fun hn => mem_hubOutbounds.mpr (.inl ⟨_, _, hn, .inl rfl⟩)
  have hwarpLink : ∀ {q n}, (q, n) ∈ renderedExitNodes cfg → q.warp.isSome = true →
      HubOutbound.warpLink q n ∈ hubOutbounds cfg :=
    fun hn hwarp => mem_hubOutbounds.mpr (.inl ⟨_, _, hn, .inr ⟨hwarp, rfl⟩⟩)
  have hfixed : ∀ {s}, s ∈ specialDestinations → HubOutbound.fixed s ∈ hubOutbounds cfg :=
    fun hs => mem_hubOutbounds.mpr (.inr (.inl ⟨_, hs, rfl⟩))
  constructor
  · intro n hn
    obtain ⟨hmem, hrole⟩ := mem_primaryNodes.mp hn
    have hiff := h.plain _ (hlink (mem_renderedExitNodes_of hr hmem))
    rw [HubOutbound.tag, linkTag_primary hrole] at hiff
    exact hiff.mpr ⟨n, hn, rfl⟩
  · intro q hq hne n hn
    obtain ⟨hmem, hrole⟩ := mem_primaryNodes.mp hn
    have hfalse := h.plain_eq_false (hlink (mem_renderedExitNodes_of hq hmem)) fun ⟨_, _, heq⟩ =>
      hne (HubOutbound.link.inj heq).1
    rwa [HubOutbound.tag, linkTag_primary hrole] at hfalse
  · intro q n hn hrole
    have hfalse := h.plain_eq_false (hlink hn) fun ⟨_, hm, heq⟩ =>
      (mem_primaryNodes.mp hm).2 ((HubOutbound.link.inj heq).2 ▸ hrole)
    rwa [HubOutbound.tag, linkTag_backup hrole] at hfalse
  · intro q n hn hwarp
    refine h.plain_eq_false (hwarpLink hn hwarp) fun ⟨_, _, heq⟩ => ?_
    cases heq
  · intro s hs
    refine h.plain_eq_false (hfixed hs) fun ⟨_, _, heq⟩ => ?_
    cases heq
  · intro hsome q hq n hn
    obtain ⟨hmem, hrole⟩ := mem_primaryNodes.mp hn
    have hiff := h.warp hsome _ (hlink (mem_renderedExitNodes_of hq hmem))
    rw [HubOutbound.tag, linkTag_primary hrole] at hiff
    refine Bool.eq_false_iff.mpr fun hpre => ?_
    obtain ⟨m, -, heq⟩ := hiff.mp hpre
    cases heq

/-! ## The balancers of a hub -/

theorem selects_singleton (s tag : String) : selects [s] tag = Python.startswith tag s := by
  simp [selects]

theorem balancersOf_eq_nil {r : ExitRegion} (h : balanced r = false) : balancersOf r = [] := by
  simp [balancersOf, h]

/-- Selectors of a balanced region's balancers. -/
theorem mem_regionBalancers {r : ExitRegion} {strategy : LbStrategy} {fb : String} {b : Balancer}
    (h : b ∈ regionBalancers r strategy fb) :
    (b.tag = TagPrefix.lb ++ r.id.val ∧ b.selector = [r.id.val]) ∨
      r.warp.isSome = true ∧ b.tag = TagPrefix.lbWarp ++ r.id.val ∧
        b.selector = [TagPrefix.warp ++ r.id.val] := by
  simp only [regionBalancers, List.mem_cons] at h
  rcases h with rfl | h
  · exact .inl ⟨rfl, rfl⟩
  · split at h
    · rename_i hwarp
      rw [List.mem_singleton] at h
      subst h
      exact .inr ⟨hwarp, rfl, rfl⟩
    · cases h

theorem selects_observatory {o : HubOutbound} :
    selects (buildBurstObservatorySelectors (renderedExitRegions cfg)) o.tag = true ↔
      ∃ r ∈ renderedExitRegions cfg, balanced r = true ∧
        (Python.startswith o.tag r.id.val = true ∨
          r.warp.isSome = true ∧ Python.startswith o.tag (TagPrefix.warp ++ r.id.val) = true) := by
  simp only [selects, buildBurstObservatorySelectors, List.any_eq_true, List.mem_flatMap]
  constructor
  · rintro ⟨s, ⟨r, hr, hs⟩, hpre⟩
    split at hs
    · rename_i hbal
      refine ⟨r, hr, hbal, ?_⟩
      rcases List.mem_cons.mp hs with rfl | hs
      · exact .inl hpre
      · split at hs
        · rename_i hwarp
          rw [List.mem_singleton] at hs
          exact .inr ⟨hwarp, hs ▸ hpre⟩
        · cases hs
    · cases hs
  · rintro ⟨r, hr, hbal, hpre | ⟨hwarp, hpre⟩⟩
    · exact ⟨_, ⟨r, hr, by simp [hbal]⟩, hpre⟩
    · exact ⟨TagPrefix.warp ++ r.id.val, ⟨r, hr, by simp [hbal, hwarp]⟩, hpre⟩

theorem not_namesPrimary_none (r : ExitRegion) (pre : String) : ¬ NamesPrimary r pre none := by
  rintro ⟨_, -, hname⟩
  cases hname

/-- A config selects exactly when it does so among all that a connection can leave by. -/
theorem HubRendered.selectsExactly_iff {region : HubRegion} {node : HubNode} {config : XrayConfig}
    (hrendered : HubRendered crypto cfg region node config) {selectors : List String}
    {meant : Option (String × String) → Prop} (hnone : ¬ meant none) :
    config.SelectsExactly selectors meant ↔
      ∀ o ∈ hubOutbounds cfg, selects selectors o.tag = true ↔ meant o.linkName := by
  have hall : (∀ e ∈ (hubOutbounds cfg).map fun o => (o.tag, o.linkName),
      selects selectors e.1 = true ↔ meant e.2) ↔
      ∀ o ∈ hubOutbounds cfg, selects selectors o.tag = true ↔ meant o.linkName :=
    List.forall_mem_map
  rw [← hall, ← hrendered.names, List.forall_mem_append, List.forall_mem_map, List.forall_mem_map]
  simp [XrayConfig.SelectsExactly, hnone]

section Names

variable {r : ExitRegion} {o : HubOutbound}

theorem tagPrefix_primary {n : ExitNode} (hrole : n.lbRole ≠ some .backup) :
    tagPrefix n = TagPrefix.none := if_neg hrole

/-- The name of a link tells the primary node it dials. -/
theorem HubOutbound.namesPrimary_iff (h : Accepted cfg) (hr : r ∈ renderedExitRegions cfg)
    (ho : o ∈ hubOutbounds cfg) :
    (NamesPrimary r TagPrefix.none o.linkName ↔ o.IsPrimaryLink r) ∧
      (NamesPrimary r TagPrefix.warp o.linkName ↔ o.IsPrimaryWarp r) := by
  have hnode : ∀ {q n m}, (q, n) ∈ renderedExitNodes cfg → m ∈ primaryNodes r →
      n.id.val = m.id.val → q = r ∧ n = m := by
    intro q n m hn hm hid
    have hmem := mem_renderedExitNodes_of hr (mem_primaryNodes.mp hm).1
    exact Prod.mk.inj (h.exitNode_eq hn hmem hid)
  rcases mem_hubOutbounds.mp ho with ⟨q, n, hn, rfl | ⟨-, rfl⟩⟩ | ⟨s, -, rfl⟩ | ⟨p, -, rfl⟩
  · simp only [NamesPrimary, HubOutbound.linkName, HexRift.linkName, IsPrimaryLink, IsPrimaryWarp,
      Option.some.injEq, Prod.mk.injEq, link.injEq, reduceCtorEq, and_false, exists_false,
      iff_false]
    constructor
    · constructor
      · rintro ⟨m, hm, -, hid⟩
        exact ⟨m, hm, hnode hn hm hid⟩
      · rintro ⟨m, hm, rfl, rfl⟩
        exact ⟨n, hm, tagPrefix_primary (mem_primaryNodes.mp hm).2, rfl⟩
    · rintro ⟨m, hm, hpre, hid⟩
      obtain ⟨-, rfl⟩ := hnode hn hm hid
      rw [tagPrefix_primary (mem_primaryNodes.mp hm).2] at hpre
      exact absurd hpre (by decide)
  · simp only [NamesPrimary, HubOutbound.linkName, warpLinkName, IsPrimaryLink, IsPrimaryWarp,
      Option.some.injEq, Prod.mk.injEq, warpLink.injEq, reduceCtorEq, and_false, exists_false,
      iff_false]
    constructor
    · rintro ⟨m, hm, hpre, hid⟩
      obtain ⟨-, rfl⟩ := hnode hn hm hid
      rw [tagPrefix_primary (mem_primaryNodes.mp hm).2] at hpre
      exact absurd hpre (by decide)
    · constructor
      · rintro ⟨m, hm, -, hid⟩
        exact ⟨m, hm, hnode hn hm hid⟩
      · rintro ⟨m, hm, rfl, rfl⟩
        rw [tagPrefix_primary (mem_primaryNodes.mp hm).2]
        exact ⟨n, hm, rfl, rfl⟩
  all_goals simp [NamesPrimary, HubOutbound.linkName, IsPrimaryLink, IsPrimaryWarp]

variable {region : HubRegion} {node : HubNode} {config : XrayConfig}

/-- A single selector is matched against every tag as a prefix. -/
theorem HubRendered.selects_plain_iff (h : Accepted cfg)
    (hrendered : HubRendered crypto cfg region node config) (hr : r ∈ renderedExitRegions cfg)
    (s : String) : config.SelectsExactly [s] (NamesPrimary r TagPrefix.none) ↔
      ∀ o ∈ hubOutbounds cfg, Python.startswith o.tag s = true ↔ o.IsPrimaryLink r := by
  rw [hrendered.selectsExactly_iff (not_namesPrimary_none _ _)]
  refine forall₂_congr fun o ho => ?_
  rw [selects_singleton, (HubOutbound.namesPrimary_iff h hr ho).1]

theorem HubRendered.selects_warp_iff (h : Accepted cfg)
    (hrendered : HubRendered crypto cfg region node config) (hr : r ∈ renderedExitRegions cfg)
    (s : String) : config.SelectsExactly [s] (NamesPrimary r TagPrefix.warp) ↔
      ∀ o ∈ hubOutbounds cfg, Python.startswith o.tag s = true ↔ o.IsPrimaryWarp r := by
  rw [hrendered.selectsExactly_iff (not_namesPrimary_none _ _)]
  refine forall₂_congr fun o ho => ?_
  rw [selects_singleton, (HubOutbound.namesPrimary_iff h hr ho).2]

end Names

/-- A balancer selects by the name its tag gives it. -/
theorem selector_of_tag {b : Balancer}
    (hb : b ∈ (renderedExitRegions cfg).flatMap balancersOf) {name : String}
    (htag : b.tag = TagPrefix.lb ++ name) : b.selector = [name] := by
  obtain ⟨r, -, hb⟩ := List.mem_flatMap.mp hb
  cases hbal : balanced r with
  | false => simp [balancersOf_eq_nil hbal] at hb
  | true =>
      obtain ⟨strategy, hbs⟩ := balancersOf_balanced hbal
      have hsplit : TagPrefix.lbWarp = TagPrefix.lb ++ TagPrefix.warp := rfl
      rcases mem_regionBalancers (hbs ▸ hb) with ⟨hown, hsel⟩ | ⟨-, hown, hsel⟩
      · rw [hsel, (String.append_right_inj _).mp (htag.symm.trans hown)]
      · rw [hsplit, String.append_assoc] at hown
        rw [hsel, (String.append_right_inj _).mp (htag.symm.trans hown)]

theorem MembershipExact.selectorsExact (hcfg : Accepted cfg) {region : HubRegion} {node : HubNode}
    {config : XrayConfig} (hrendered : HubRendered crypto cfg region node config)
    (h : MembershipExact cfg config) {r : ExitRegion} (hr : r ∈ renderedExitRegions cfg)
    (hbal : balanced r = true) : SelectorsExact cfg r := by
  obtain ⟨strategy, hbs⟩ := balancersOf_balanced hbal
  have hmem : ∀ {b}, b ∈ balancersOf r → b ∈ config.balancers := fun hb =>
    hrendered.balancers_eq ▸ List.mem_flatMap.mpr ⟨r, hr, hb⟩
  rw [hbs] at hmem
  constructor
  · have hexact := h.lb r hr hbal _ (hmem List.mem_cons_self) rfl
    exact (hrendered.selects_plain_iff hcfg hr _).mp hexact
  · intro hwarp
    have hexact := h.lbWarp r hr hbal hwarp
      { tag := TagPrefix.lbWarp ++ r.id.val
        selector := [TagPrefix.warp ++ r.id.val]
        fallbackTag := TagPrefix.warp ++ fallbackTag r
        strategy := strategy
        settings := buildStrategy r strategy } (hmem (by simp [regionBalancers, hwarp])) rfl
    exact (hrendered.selects_warp_iff hcfg hr _).mp hexact

theorem HubRendered.membershipExact (hcfg : Accepted cfg) {region : HubRegion} {node : HubNode}
    {config : XrayConfig} (hrendered : HubRendered crypto cfg region node config)
    (h : ∀ r ∈ renderedExitRegions cfg, balanced r = true → SelectorsExact cfg r) :
    MembershipExact cfg config := by
  constructor
  · intro r hr hbal b hb htag
    rw [hrendered.balancers_eq] at hb
    rw [selector_of_tag hb htag, hrendered.selects_plain_iff hcfg hr]
    exact (h r hr hbal).plain
  · intro r hr hbal hwarp b hb htag
    rw [hrendered.balancers_eq] at hb
    have hsplit : b.tag = TagPrefix.lb ++ (TagPrefix.warp ++ r.id.val) := by
      rw [htag, ← String.append_assoc]
      rfl
    rw [selector_of_tag hb hsplit, hrendered.selects_warp_iff hcfg hr]
    exact (h r hr hbal).warp hwarp
  · have hselectors : config.observatorySelectors =
        buildBurstObservatorySelectors (renderedExitRegions cfg) := by
      rw [congrArg XrayConfig.observatorySelectors hrendered.config_eq]
      exact hrendered.selectors
    refine (hrendered.selectsExactly_iff ?_).mpr fun o ho => ?_
    · rintro ⟨r, -, -, hname | ⟨-, hname⟩⟩
      · exact not_namesPrimary_none _ _ hname
      · exact not_namesPrimary_none _ _ hname
    · rw [hselectors, selects_observatory]
      refine exists_congr fun r => and_congr_right fun hr => and_congr_right fun hbal => ?_
      obtain ⟨hplain, hwarpName⟩ := HubOutbound.namesPrimary_iff hcfg hr ho
      rw [hplain, hwarpName]
      exact or_congr ((h r hr hbal).plain o ho)
        (and_congr_right fun hwarp => (h r hr hbal).warp hwarp o ho)

/-- Selectors match what they are meant for exactly when the ids of every balanced region are
kept apart from the other tags. -/
theorem membership_exact_iff (cfg : AcceptedConfig) {region : HubRegion} {node : HubNode}
    {config : XrayConfig} (h : renderHub crypto cfg.toConglomerateConfig store region node =
      .ok config) :
    MembershipExact cfg.toConglomerateConfig config ↔
      ∀ r ∈ renderedExitRegions cfg.toConglomerateConfig, balanced r = true →
        IdsSeparate cfg.toConglomerateConfig r := by
  obtain ⟨hrendered⟩ := renderHub_eq_ok h
  constructor
  · exact fun hexact r hr hbal =>
      (hexact.selectorsExact cfg.spec hrendered hr hbal).idsSeparate hr
  · exact fun hids => hrendered.membershipExact cfg.spec fun r hr hbal =>
      (hids r hr hbal).selectorsExact cfg.spec hr

/-- A balanced region. -/
def balancedRegion : ExitRegion :=
  { Sample.exitRegion Sample.nl Sample.lowRoute
      [Sample.exitNode Sample.nl1, Sample.exitNode { val := "nl-2" }] with
    lbStrategy := some .roundRobin }

/-- A region whose node starts with the balanced region's id. -/
def neighbourRegion : ExitRegion :=
  Sample.exitRegion { val := "nlb" } { val := 2001 } [Sample.exitNode { val := "nlb-1" }]

def neighbourRegions : AcceptedConfig :=
  { Sample.topology [balancedRegion, neighbourRegion] [Sample.user Sample.aliceName] with }

theorem neighbourRegions_renders :
    ∃ config, renderHub Sample.crypto neighbourRegions.toConglomerateConfig Sample.store
      Sample.hubRegion Sample.hubNode = .ok config :=
  isOk_iff.mp (by decide)

theorem membership_exact_iff_neighbourRegions :
    ∃ config, renderHub Sample.crypto neighbourRegions.toConglomerateConfig Sample.store
        Sample.hubRegion Sample.hubNode = .ok config ∧
      (MembershipExact neighbourRegions.toConglomerateConfig config ↔
        ∀ r ∈ renderedExitRegions neighbourRegions.toConglomerateConfig, balanced r = true →
          IdsSeparate neighbourRegions.toConglomerateConfig r) := by
  obtain ⟨config, h⟩ := neighbourRegions_renders
  exact ⟨config, h, membership_exact_iff neighbourRegions h⟩

/-- The selector `nl` of `lb-nl` matches the link `nlb-1` of the other region. -/
theorem selector_matches_neighbour :
    ¬ ∀ config, renderHub Sample.crypto neighbourRegions.toConglomerateConfig Sample.store
        Sample.hubRegion Sample.hubNode = .ok config →
      MembershipExact neighbourRegions.toConglomerateConfig config := by
  intro h
  obtain ⟨config, hrender⟩ := neighbourRegions_renders
  have hbalanced : balancedRegion ∈ renderedExitRegions neighbourRegions.toConglomerateConfig := by
    decide
  obtain ⟨hrendered⟩ := renderHub_eq_ok hrender
  have hexact := (h config hrender).selectorsExact neighbourRegions.spec hrendered hbalanced
    (by decide)
  have hothers := (hexact.idsSeparate hbalanced).others neighbourRegion (by decide) (by decide)
    (Sample.exitNode { val := "nlb-1" }) (by decide)
  exact absurd hothers (by decide)

end HexRift
