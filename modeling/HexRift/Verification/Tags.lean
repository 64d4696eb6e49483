import HexRift.Verification.Identities
import HexRift.Verification.Listeners
import HexRift.Verification.Selectors

/-! # Tags of a hub's outbounds

Links are tagged by prefixing node ids, in the name space of the fixed outbounds and of the
portals. The portals are kept apart by the validator; the links are as far apart as the ids
of the exit nodes are. -/

namespace HexRift

variable {cfg : ConglomerateConfig} {crypto : Crypto} {store : KeyStore}

/-- No primary exit node is named like a fixed outbound or like the link of another node. -/
structure LinkIdsClear (cfg : ConglomerateConfig) : Prop where
  fixed : ∀ p ∈ renderedExitNodes cfg, p.2.lbRole ≠ some .backup →
    p.2.id.val ∉ specialDestinations
  backup : ∀ p ∈ renderedExitNodes cfg, p.2.lbRole ≠ some .backup →
    ∀ q ∈ renderedExitNodes cfg, q.2.lbRole = some .backup →
      p.2.id.val ≠ TagPrefix.backup ++ q.2.id.val
  warp : ∀ p ∈ renderedExitNodes cfg, p.2.lbRole ≠ some .backup →
    ∀ q ∈ renderedExitNodes cfg, q.1.warp.isSome = true → p.2.id.val ≠ warpLinkTag q.2

/-! ## Exit nodes -/

theorem renderedExitNodes_nodup (h : Accepted cfg) : (renderedExitNodes cfg).Nodup := by
  have hsub : ∀ regions : List Region,
      ((((regions.filterMap Region.exit?).filter fun r => r.nodes ≠ []).flatMap fun r =>
        r.nodes.map fun n => (r, n)).map fun p => p.2.id.val).Sublist
      ((regions.flatMap fun r => r.nodes.map fun n => (r, n)).map fun p => p.2.id.val) := by
    intro regions
    induction regions with
    | nil => exact List.nil_sublist _
    | cons region regions ih =>
        rw [List.flatMap_cons, List.map_append]
        cases region with
        | hub r => exact ih.trans (List.sublist_append_right _ _)
        | exit r =>
            have hexit : (Region.exit r).exit? = some r := rfl
            rw [List.filterMap_cons_some hexit, List.filter_cons]
            split
            · rw [List.flatMap_cons, List.map_append]
              refine List.Sublist.append ?_ ih
              simp [Region.nodes, Function.comp_def, Node.id]
            · exact ih.trans (List.sublist_append_right _ _)
  exact ((nodeIds_nodup h).sublist (hsub cfg.regions)).of_map

/-! ## What a hub sends through -/

theorem hubOutbounds_nodup (h : Accepted cfg) : (hubOutbounds cfg).Nodup := by
  have hnodes := renderedExitNodes_nodup h
  have hportals : (cfg.portals.map HubOutbound.portal).Nodup := by
    have hids : (cfg.portals.map (·.id.val)).Nodup := by simpa using h.portals.ids
    exact (List.Nodup.of_map _ hids).map fun _ _ heq => HubOutbound.portal.inj heq
  have hfixed : (specialDestinations.map HubOutbound.fixed).Nodup :=
    (by decide : specialDestinations.Nodup).map fun _ _ heq => HubOutbound.fixed.inj heq
  have hlinks : ((renderedExitNodes cfg).map fun p => HubOutbound.link p.1 p.2).Nodup := by
    refine hnodes.map fun p q heq => ?_
    exact Prod.ext (HubOutbound.link.inj heq).1 (HubOutbound.link.inj heq).2
  have hwarps : ((renderedExitNodes cfg).filterMap fun p =>
      if p.1.warp.isSome then some (HubOutbound.warpLink p.1 p.2) else none).Nodup := by
    refine hnodes.filterMap fun p q o hp hq => ?_
    simp only [Option.mem_def, Option.ite_none_right_eq_some, Option.some.injEq] at hp hq
    have heq := HubOutbound.warpLink.inj (hp.2.trans hq.2.symm)
    exact Prod.ext heq.1 heq.2
  rw [hubOutbounds, List.nodup_append, List.nodup_append, List.nodup_append]
  refine ⟨⟨⟨hlinks, hwarps, ?_⟩, hfixed, ?_⟩, hportals, ?_⟩
  all_goals
    intro o ho o' ho' heq
    subst heq
    simp only [List.mem_append, List.mem_map, List.mem_filterMap,
      Option.ite_none_right_eq_some, Option.some.injEq] at ho ho'
    grind

/-! ## Tags the validator keeps from portals -/

theorem nodeId_derivedTags {id : String} (hid : id ∈ nodeIds cfg) :
    ∀ tag ∈ [id, TagPrefix.backup ++ id, TagPrefix.warp ++ id,
      TagPrefix.warp ++ TagPrefix.backup ++ id], tag ∈ derivedTags cfg (nodeIds cfg) := by
  intro tag htag
  simp only [derivedTags, List.mem_append, List.mem_flatMap]
  rcases List.mem_cons.mp htag with rfl | htag
  · exact .inl (.inl (.inl hid))
  · exact .inl (.inr ⟨id, hid, htag⟩)

theorem linkTag_mem_derivedTags {p : ExitRegion × ExitNode} (hp : p ∈ renderedExitNodes cfg) :
    linkTag p.2 ∈ derivedTags cfg (nodeIds cfg) ∧
      warpLinkTag p.2 ∈ derivedTags cfg (nodeIds cfg) := by
  obtain ⟨hr, hn⟩ := mem_renderedExitNodes.mp hp
  have hderived := nodeId_derivedTags (exitNode_mem_nodeIds hr hn)
  by_cases hrole : p.2.lbRole = some .backup
  · rw [warpLinkTag, linkTag_backup hrole, ← String.append_assoc]
    exact ⟨hderived _ (by simp), hderived _ (by simp)⟩
  · rw [warpLinkTag, linkTag_primary hrole]
    exact ⟨hderived _ (by simp), hderived _ (by simp)⟩

theorem special_mem_derivedTags {s : String} (hs : s ∈ specialDestinations) :
    s ∈ derivedTags cfg (nodeIds cfg) := by
  simp only [derivedTags, List.mem_append]
  exact .inl (.inl (.inr hs))

theorem portalTag_ne_derived (h : Accepted cfg) {p : Portal} (hp : p ∈ cfg.portals) {tag : String}
    (htag : tag ∈ derivedTags cfg (nodeIds cfg)) : portalTag p.id ≠ tag :=
  fun heq => (h.portals.portal p hp).tag (heq ▸ htag)

theorem portalTag_inj {i j : Identifier} (h : portalTag i = portalTag j) : i.val = j.val := by
  rw [portalTag, portalTag] at h
  exact (String.append_left_inj _).mp h

/-- The tag of a portal is the tag of that portal only. -/
theorem Accepted.eq_portal_of_tag (h : Accepted cfg) {p : Portal} (hp : p ∈ cfg.portals)
    {o : HubOutbound} (ho : o ∈ hubOutbounds cfg) (htag : o.tag = portalTag p.id) :
    o = .portal p := by
  rcases mem_hubOutbounds.mp ho with ⟨r, n, hn, rfl | ⟨-, rfl⟩⟩ | ⟨s, hs, rfl⟩ | ⟨q, hq, rfl⟩
  · exact absurd htag.symm (portalTag_ne_derived h hp (linkTag_mem_derivedTags hn).1)
  · exact absurd htag.symm (portalTag_ne_derived h hp (linkTag_mem_derivedTags hn).2)
  · exact absurd htag.symm (portalTag_ne_derived h hp (special_mem_derivedTags hs))
  · exact congrArg HubOutbound.portal (h.portal_eq hq hp (portalTag_inj htag))

/-! ## Tags of two links -/

theorem startswith_append (x y : String) : Python.startswith (x ++ y) x = true := by
  rw [Python.startswith_iff, String.toList_append]
  exact List.prefix_append _ _

theorem backup_ne_warp (x y : String) : TagPrefix.backup ++ x ≠ TagPrefix.warp ++ y := by
  intro heq
  have hpre := warp_not_prefix_backup x y
  rw [heq, Python.startswith_iff.mpr (List.prefix_refl _)] at hpre
  cases hpre

/-- A prefixed tag is no fixed one. -/
theorem prefixed_not_special {pre : String}
    (hpre : ∀ s ∈ specialDestinations, Python.startswith s pre = false) (x : String) :
    pre ++ x ∉ specialDestinations := by
  intro hmem
  have hfalse := hpre _ hmem
  rw [startswith_append] at hfalse
  cases hfalse

theorem backup_not_special (x : String) : TagPrefix.backup ++ x ∉ specialDestinations :=
  prefixed_not_special (by decide) x

theorem warp_not_special (x : String) : TagPrefix.warp ++ x ∉ specialDestinations :=
  prefixed_not_special (by decide) x

/-- Under separate ids a plain link's tag tells the exit node. -/
theorem LinkIdsClear.linkTag_inj (h : Accepted cfg) (hclear : LinkIdsClear cfg)
    {p q : ExitRegion × ExitNode} (hp : p ∈ renderedExitNodes cfg)
    (hq : q ∈ renderedExitNodes cfg) (heq : linkTag p.2 = linkTag q.2) : p = q := by
  by_cases hprole : p.2.lbRole = some .backup
  · rw [linkTag_backup hprole] at heq
    by_cases hqrole : q.2.lbRole = some .backup
    · rw [linkTag_backup hqrole] at heq
      exact h.exitNode_eq hp hq ((String.append_right_inj _).mp heq)
    · rw [linkTag_primary hqrole] at heq
      exact absurd heq.symm (hclear.backup q hq hqrole p hp hprole)
  · rw [linkTag_primary hprole] at heq
    by_cases hqrole : q.2.lbRole = some .backup
    · rw [linkTag_backup hqrole] at heq
      exact absurd heq (hclear.backup p hp hprole q hq hqrole)
    · rw [linkTag_primary hqrole] at heq
      exact h.exitNode_eq hp hq heq

theorem LinkIdsClear.linkTag_ne_warp (hclear : LinkIdsClear cfg) {p q : ExitRegion × ExitNode}
    (hp : p ∈ renderedExitNodes cfg) (hq : q ∈ renderedExitNodes cfg)
    (hwarp : q.1.warp.isSome = true) : linkTag p.2 ≠ warpLinkTag q.2 := by
  by_cases hrole : p.2.lbRole = some .backup
  · rw [linkTag_backup hrole]
    exact backup_ne_warp _ _
  · rw [linkTag_primary hrole]
    exact hclear.warp p hp hrole q hq hwarp

theorem LinkIdsClear.linkTag_not_special (hclear : LinkIdsClear cfg) {p : ExitRegion × ExitNode}
    (hp : p ∈ renderedExitNodes cfg) : linkTag p.2 ∉ specialDestinations := by
  by_cases hrole : p.2.lbRole = some .backup
  · rw [linkTag_backup hrole]
    exact backup_not_special _
  · rw [linkTag_primary hrole]
    exact hclear.fixed p hp hrole

/-- Under separate ids a tag tells what it names. -/
theorem LinkIdsClear.tag_inj (h : Accepted cfg) (hclear : LinkIdsClear cfg) {o o' : HubOutbound}
    (ho : o ∈ hubOutbounds cfg) (ho' : o' ∈ hubOutbounds cfg) (heq : o.tag = o'.tag) :
    o = o' := by
  rcases mem_hubOutbounds.mp ho with ⟨r, n, hn, rfl | ⟨hwarp, rfl⟩⟩ | ⟨s, hs, rfl⟩ | ⟨p, hp, rfl⟩
  · rcases mem_hubOutbounds.mp ho' with
      ⟨r', n', hn', rfl | ⟨hwarp', rfl⟩⟩ | ⟨s', hs', rfl⟩ | ⟨p', hp', rfl⟩
    · cases hclear.linkTag_inj h hn hn' heq
      rfl
    · exact absurd heq (hclear.linkTag_ne_warp hn hn' hwarp')
    · have hlink : linkTag n = s' := heq
      exact absurd (hlink ▸ hs') (hclear.linkTag_not_special hn)
    · exact h.eq_portal_of_tag hp' ho heq
  · rcases mem_hubOutbounds.mp ho' with
      ⟨r', n', hn', rfl | ⟨hwarp', rfl⟩⟩ | ⟨s', hs', rfl⟩ | ⟨p', hp', rfl⟩
    · exact absurd heq.symm (hclear.linkTag_ne_warp hn' hn hwarp)
    · cases hclear.linkTag_inj h hn hn' ((String.append_right_inj _).mp heq)
      rfl
    · have hlink : warpLinkTag n = s' := heq
      exact absurd (hlink ▸ hs') (warp_not_special _)
    · exact h.eq_portal_of_tag hp' ho heq
  · rcases mem_hubOutbounds.mp ho' with
      ⟨r', n', hn', rfl | ⟨hwarp', rfl⟩⟩ | ⟨s', hs', rfl⟩ | ⟨p', hp', rfl⟩
    · have hlink : s = linkTag n' := heq
      exact absurd (hlink ▸ hs) (hclear.linkTag_not_special hn')
    · have hlink : s = warpLinkTag n' := heq
      exact absurd (hlink ▸ hs) (warp_not_special _)
    · exact congrArg HubOutbound.fixed heq
    · exact h.eq_portal_of_tag hp' ho heq
  · exact (h.eq_portal_of_tag hp ho' heq.symm).symm

/-! ## When the tags are distinct -/

theorem linkIdsClear_of_nodup (h : ((hubOutbounds cfg).map HubOutbound.tag).Nodup) :
    LinkIdsClear cfg := by
  have hinj := fun {o o'} => List.inj_on_of_nodup_map h (x := o) (y := o')
  constructor
  · intro p hp hrole hspecial
    have hlink : HubOutbound.link p.1 p.2 ∈ hubOutbounds cfg :=
      mem_hubOutbounds.mpr (.inl ⟨_, _, hp, .inl rfl⟩)
    have hfixed : HubOutbound.fixed p.2.id.val ∈ hubOutbounds cfg :=
      mem_hubOutbounds.mpr (.inr (.inl ⟨_, hspecial, rfl⟩))
    cases hinj hlink hfixed (linkTag_primary hrole)
  · intro p hp hprole q hq hqrole heq
    have hplink : HubOutbound.link p.1 p.2 ∈ hubOutbounds cfg :=
      mem_hubOutbounds.mpr (.inl ⟨_, _, hp, .inl rfl⟩)
    have hqlink : HubOutbound.link q.1 q.2 ∈ hubOutbounds cfg :=
      mem_hubOutbounds.mpr (.inl ⟨_, _, hq, .inl rfl⟩)
    have hsame := hinj hplink hqlink
      ((linkTag_primary hprole).trans (heq.trans (linkTag_backup hqrole).symm))
    rw [(HubOutbound.link.inj hsame).2] at hprole
    exact hprole hqrole
  · intro p hp hprole q hq hwarp heq
    have hplink : HubOutbound.link p.1 p.2 ∈ hubOutbounds cfg :=
      mem_hubOutbounds.mpr (.inl ⟨_, _, hp, .inl rfl⟩)
    have hqlink : HubOutbound.warpLink q.1 q.2 ∈ hubOutbounds cfg :=
      mem_hubOutbounds.mpr (.inl ⟨_, _, hq, .inr ⟨hwarp, rfl⟩⟩)
    cases hinj hplink hqlink ((linkTag_primary hprole).trans heq)

/-- The tags of a hub's outbounds and of its portals are pairwise distinct exactly when no
primary exit node is named like a fixed outbound or another node's link. -/
theorem outbound_tags_nodup_iff (cfg : AcceptedConfig) {region : HubRegion} {node : HubNode}
    {config : XrayConfig} (h : renderHub crypto cfg.toConglomerateConfig store region node =
      .ok config) :
    (config.outboundTags ++ config.reverseTags).Nodup ↔
      LinkIdsClear cfg.toConglomerateConfig := by
  obtain ⟨hr⟩ := renderHub_eq_ok h
  rw [hr.tags]
  constructor
  · exact linkIdsClear_of_nodup
  · exact fun hclear => (hubOutbounds_nodup cfg.spec).map_on fun o ho o' ho' =>
      hclear.tag_inj cfg.spec ho ho'

/-- An exit region with a node named like the fixed outbound of blocked traffic. -/
def blockedNode : AcceptedConfig :=
  { Sample.topology
      [Sample.exitRegion Sample.fra Sample.lowRoute [Sample.exitNode { val := "blocked" }]]
      [Sample.user Sample.aliceName] with }

theorem outbound_tags_nodup_iff_blockedNode :
    ∃ config, renderHub Sample.crypto blockedNode.toConglomerateConfig Sample.store
        Sample.hubRegion Sample.hubNode = .ok config ∧
      ((config.outboundTags ++ config.reverseTags).Nodup ↔
        LinkIdsClear blockedNode.toConglomerateConfig) := by
  obtain ⟨config, h⟩ := isOk_iff.mp (show (renderHub Sample.crypto
    blockedNode.toConglomerateConfig Sample.store Sample.hubRegion Sample.hubNode).isOk = true by
      decide)
  exact ⟨config, h, outbound_tags_nodup_iff blockedNode h⟩

/-- The link to the node `blocked` and the blackhole share their tag. -/
theorem link_named_blocked :
    ¬ ∀ config, renderHub Sample.crypto blockedNode.toConglomerateConfig Sample.store
        Sample.hubRegion Sample.hubNode = .ok config →
      (config.outboundTags ++ config.reverseTags).Nodup := by
  intro h
  have htwice : (renderHub Sample.crypto blockedNode.toConglomerateConfig Sample.store
      Sample.hubRegion Sample.hubNode).toOption.any (fun config =>
        ¬ (config.outboundTags ++ config.reverseTags).Nodup) = true := by
    decide
  cases hrender : renderHub Sample.crypto blockedNode.toConglomerateConfig Sample.store
      Sample.hubRegion Sample.hubNode with
  | error e => simp [hrender, Except.toOption] at htwice
  | ok config =>
      simp only [hrender, Except.toOption, Option.any_some, decide_eq_true_eq] at htwice
      exact htwice (h config hrender)

end HexRift
