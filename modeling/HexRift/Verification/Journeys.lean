import HexRift.Verification.ExitPolicy
import HexRift.Verification.Policy

/-! # Through a hub and an exit

A connection that a hub sends to a region leaves by one of the links to its nodes, arrives at
that exit under the hub's identity, and the exit lets it out. The two configs are rendered
apart; what holds them together is the tag of the link and the segment it is dialled with. -/

namespace HexRift

open Checks

variable {crypto : Crypto} {cfg : ConglomerateConfig} {store : KeyStore} {region : HubRegion}
  {hub : HubNode} {config : XrayConfig} {c : Connection} {r : ExitRegion}
  {p : ExitRegion × ExitNode} {warp variant : Bool} {out : String}

/-! ## Journeys -/

/-- The outbound may carry what is sent to the target. -/
inductive XrayConfig.Carries (config : XrayConfig) (outbound : Outbound) :
    OutKey × String → Prop
  | tagged : config.Carries outbound (.outboundTag, outbound.tag)
  | selected {b : Balancer} (hb : b ∈ config.balancers)
      (hselects : selects b.selector outbound.tag = true) :
      config.Carries outbound (.balancerTag, b.tag)
  | fallback {b : Balancer} (hb : b ∈ config.balancers)
      (htag : outbound.tag = b.fallbackTag) : config.Carries outbound (.balancerTag, b.tag)

/-- The ids leave no doubt which link a tag or a selector names. -/
structure Navigable (cfg : ConglomerateConfig) : Prop where
  links : LinkIdsClear cfg
  primary : ∀ r ∈ renderedExitRegions cfg, primaryNodes r ≠ []
  separate : ∀ r ∈ renderedExitRegions cfg, balanced r = true → IdsSeparate cfg r

/-- A tag, or its warp variant. -/
def variantTag (variant : Bool) (tag : String) : String :=
  if variant then TagPrefix.warp ++ tag else tag

/-- The key and tag that send a connection to a region, for warp or not. -/
def regionTarget (r : ExitRegion) (warp : Bool) : OutKey × String :=
  (balancerKey r, if warp then regionWarpTag r else regionTag r)

/-- The nodes a hub may dial to reach the region. -/
def servingNodes (r : ExitRegion) : List ExitNode :=
  r.nodes.filter fun n =>
    if balanced r then n.lbRole ≠ some .backup || linkTag n = fallbackTag r
    else n.id.val = leadId r

/-! ## The links of a hub -/

/-- The identity and tag prefix a link is dialled with. -/
def linkIdentity (crypto : Crypto) (cfg : ConglomerateConfig) (hub : HubNode) (exit : ExitNode)
    (variant : Bool) : UUID :=
  let uuid := cfg.ns.hubExitUuid crypto.uuid5 hub.id.val exit.id.val
  if variant then warpUuid uuid else uuid

def linkPrefix (exit : ExitNode) (variant : Bool) : String :=
  if variant then TagPrefix.warp ++ tagPrefix exit else tagPrefix exit

/-- The link to an exit, or its warp variant. -/
def DialsAs (crypto : Crypto) (cfg : ConglomerateConfig) (hub : HubNode)
    (p : ExitRegion × ExitNode) (keys : NodeKeys) (variant : Bool) (link : LinkContext) : Prop :=
  (variant = true → p.1.warp.isSome = true) ∧
    buildLink (linkEnv crypto cfg hub p keys) (linkIdentity crypto cfg hub p.2 variant)
      (linkPrefix p.2 variant) = .ok link

theorem DialsAs.linkOf {keys : NodeKeys} {link : LinkContext}
    (h : DialsAs crypto cfg hub p keys variant link) : LinkOf crypto cfg hub p keys link := by
  cases variant with
  | false => exact .plain h.2
  | true => exact .warp h.2

theorem DialsAs.tag {keys : NodeKeys} {link : LinkContext}
    (h : DialsAs crypto cfg hub p keys variant link) :
    link.tag = variantTag variant (linkTag p.2) := by
  rw [buildLink_tag h.2]
  cases variant with
  | false => rfl
  | true => exact String.append_assoc ..

theorem DialsAs.segment {keys : NodeKeys} {link : LinkContext}
    (h : DialsAs crypto cfg hub p keys variant link) :
    variant = decide (link.dial.identity.segment = warpVlessRoute) := by
  obtain ⟨-, hbuild⟩ := h
  simp only [buildLink, bind_eq_ok, pure_eq_ok] at hbuild
  obtain ⟨dial, hdial, rfl⟩ := hbuild
  rw [buildDial_identity hdial]
  cases variant with
  | false => exact (decide_eq_false (segment_run_ne _ _ _)).symm
  | true => rfl

theorem buildLinks_variants {exitKeys : String → Option NodeKeys}
    {links : LinkContext × Option LinkContext}
    (h : buildLinks crypto cfg hub exitKeys p.1 p.2 = .ok links) :
    ∃ keys, exitKeys p.2.id.val = some keys ∧
      (∀ link, (link = links.1 ∨ links.2 = some link) ↔
        ∃ variant, DialsAs crypto cfg hub p keys variant link) ∧
      ∀ variant, (variant = true → p.1.warp.isSome = true) →
        ∃ link, DialsAs crypto cfg hub p keys variant link := by
  unfold buildLinks at h
  cases hkeys : exitKeys p.2.id.val with
  | none =>
      simp only [hkeys] at h
      cases h
  | some keys =>
      simp only [hkeys, bind_eq_ok] at h
      obtain ⟨plain, hplain, h⟩ := h
      have hown : ∀ link, DialsAs crypto cfg hub p keys false link ↔ link = plain := by
        refine fun link => ⟨fun hdials => Except.ok.inj (hdials.2.symm.trans hplain), ?_⟩
        rintro rfl
        exact ⟨nofun, hplain⟩
      cases hwarp : p.1.warp with
      | none =>
          simp only [hwarp, pure_eq_ok] at h
          subst h
          have hnone : ∀ link, ¬ DialsAs crypto cfg hub p keys true link := fun link hdials => by
            have hsome := hdials.1 rfl
            rw [hwarp] at hsome
            cases hsome
          refine ⟨keys, rfl, fun link => ?_, fun variant hallowed => ?_⟩
          · simp [Bool.exists_bool, hown, hnone]
          · cases variant with
            | false => exact ⟨plain, (hown plain).mpr rfl⟩
            | true => cases hallowed rfl
      | some w =>
          simp only [hwarp, bind_eq_ok, pure_eq_ok] at h
          obtain ⟨warped, hwarped, rfl⟩ := h
          have hvariant : ∀ link, DialsAs crypto cfg hub p keys true link ↔ link = warped := by
            refine fun link => ⟨fun hdials => Except.ok.inj (hdials.2.symm.trans hwarped), ?_⟩
            rintro rfl
            exact ⟨fun _ => by rw [hwarp]; rfl, hwarped⟩
          refine ⟨keys, rfl, fun link => ?_, fun variant _ => ?_⟩
          · simp [Bool.exists_bool, hown, hvariant, eq_comm]
          · cases variant with
            | false => exact ⟨plain, (hown plain).mpr rfl⟩
            | true => exact ⟨warped, (hvariant warped).mpr rfl⟩

/-- The outbound a link is rendered as. -/
def hubLink (p : ExitRegion × ExitNode) (variant : Bool) : HubOutbound :=
  if variant then .warpLink p.1 p.2 else .link p.1 p.2

theorem hubLink_tag (p : ExitRegion × ExitNode) (variant : Bool) :
    (hubLink p variant).tag = variantTag variant (linkTag p.2) := by
  cases variant <;> rfl

theorem hubLink_mem (hp : p ∈ renderedExitNodes cfg)
    (hvariant : variant = true → p.1.warp.isSome = true) :
    hubLink p variant ∈ hubOutbounds cfg := by
  refine mem_hubOutbounds.mpr (.inl ⟨p.1, p.2, hp, ?_⟩)
  cases variant with
  | false => exact .inl rfl
  | true => exact .inr ⟨hvariant rfl, rfl⟩

/-- The tag of a link tells the exit and the variant. -/
theorem Navigable.linkTag_inj (h : Accepted cfg) (hnav : Navigable cfg)
    {q : ExitRegion × ExitNode} (hp : p ∈ renderedExitNodes cfg) (hq : q ∈ renderedExitNodes cfg)
    (hvariant : variant = true → p.1.warp.isSome = true)
    (hwarp : warp = true → q.1.warp.isSome = true)
    (htag : variantTag variant (linkTag p.2) = variantTag warp (linkTag q.2)) :
    p = q ∧ variant = warp := by
  have heq : hubLink p variant = hubLink q warp := by
    apply hnav.links.tag_inj h (hubLink_mem hp hvariant) (hubLink_mem hq hwarp)
    rw [hubLink_tag, hubLink_tag, htag]
  obtain ⟨r, n⟩ := p
  obtain ⟨r', n'⟩ := q
  cases variant <;> cases warp <;> cases heq <;> exact ⟨rfl, rfl⟩

/-- The selectors of a balanced region pick the links to its primary nodes. -/
theorem Navigable.selects_iff (h : Accepted cfg) (hnav : Navigable cfg)
    (hr : r ∈ renderedExitRegions cfg) (hbalanced : balanced r = true)
    (hwarp : warp = true → r.warp.isSome = true) (hp : p ∈ renderedExitNodes cfg)
    (hvariant : variant = true → p.1.warp.isSome = true) :
    Python.startswith (variantTag variant (linkTag p.2)) (variantTag warp r.id.val) = true ↔
      p.1 = r ∧ p.2 ∈ primaryNodes r ∧ variant = warp := by
  have hexact := (hnav.separate r hr hbalanced).selectorsExact h hr
  have hmem := hubLink_mem hp hvariant
  rw [← hubLink_tag]
  cases warp with
  | false =>
      have hiff : Python.startswith (hubLink p variant).tag (variantTag false r.id.val) = true ↔
          (hubLink p variant).IsPrimaryLink r := hexact.plain _ hmem
      rw [hiff, HubOutbound.IsPrimaryLink]
      cases variant <;> simp [hubLink]
      grind
  | true =>
      have hiff : Python.startswith (hubLink p variant).tag (variantTag true r.id.val) = true ↔
          (hubLink p variant).IsPrimaryWarp r := hexact.warp (hwarp rfl) _ hmem
      rw [hiff, HubOutbound.IsPrimaryWarp]
      cases variant <;> simp [hubLink]
      grind

/-! ## Balancers -/

/-- The tag of a region's balancer, for warp or not. -/
def lbTag (r : ExitRegion) (warp : Bool) : String :=
  (if warp then TagPrefix.lbWarp else TagPrefix.lb) ++ r.id.val

/-- What a balancer of the region selects and falls back to. -/
structure IsBalancerOf (r : ExitRegion) (warp : Bool) (b : Balancer) : Prop where
  tag : b.tag = lbTag r warp
  selector : b.selector = [variantTag warp r.id.val]
  fallback : b.fallbackTag = variantTag warp (fallbackTag r)

theorem mem_balancersOf_iff (hbalanced : balanced r = true) :
    (∀ b ∈ balancersOf r, ∃ warp, (warp = true → r.warp.isSome = true) ∧ IsBalancerOf r warp b) ∧
      ∀ warp, (warp = true → r.warp.isSome = true) →
        ∃ b ∈ balancersOf r, IsBalancerOf r warp b := by
  obtain ⟨strategy, heq⟩ := balancersOf_balanced hbalanced
  rw [heq, regionBalancers]
  cases hwarp : r.warp.isSome with
  | false =>
      refine ⟨fun b hb => ⟨false, fun hfalse => absurd hfalse Bool.false_ne_true, ?_⟩,
        fun warp hallowed => ?_⟩
      · cases List.mem_singleton.mp hb
        exact ⟨rfl, rfl, rfl⟩
      · cases warp with
        | false => exact ⟨_, List.mem_cons_self, rfl, rfl, rfl⟩
        | true => cases hallowed rfl
  | true =>
      refine ⟨fun b hb => ?_, fun warp _ => ?_⟩
      · rcases List.mem_cons.mp hb with rfl | hb
        · exact ⟨false, fun hfalse => absurd hfalse Bool.false_ne_true, rfl, rfl, rfl⟩
        · cases List.mem_singleton.mp hb
          exact ⟨true, fun _ => rfl, rfl, rfl, rfl⟩
      · cases warp with
        | false => exact ⟨_, List.mem_cons_self, rfl, rfl, rfl⟩
        | true => exact ⟨_, List.mem_cons_of_mem _ List.mem_cons_self, rfl, rfl, rfl⟩

/-- No balanced region is named like the warp variant of another. -/
theorem Navigable.not_warp_name (hnav : Navigable cfg) {q : ExitRegion}
    (hr : r ∈ renderedExitRegions cfg) (hrbal : balanced r = true)
    (hq : q ∈ renderedExitRegions cfg) (hqbal : balanced q = true)
    (hwarp : q.warp.isSome = true) : r.id.val ≠ TagPrefix.warp ++ q.id.val := by
  intro hname
  obtain ⟨n, hn⟩ := List.exists_mem_of_ne_nil _ (hnav.primary q hq)
  obtain ⟨hmem, hrole⟩ := mem_primaryNodes.mp hn
  have hclear := (hnav.separate r hr hrbal).warps q n (mem_renderedExitNodes_of hq hmem) hwarp
  rw [hname, warpLinkTag, linkTag_primary hrole, Python.startswith_append_append,
    (hnav.separate q hq hqbal).members n hn] at hclear
  cases hclear

theorem Navigable.lbTag_inj (h : Accepted cfg) (hnav : Navigable cfg) {q : ExitRegion}
    (hr : r ∈ renderedExitRegions cfg) (hrbal : balanced r = true)
    (hwarp : warp = true → r.warp.isSome = true) (hq : q ∈ renderedExitRegions cfg)
    (hqbal : balanced q = true) (hvariant : variant = true → q.warp.isSome = true)
    (htag : lbTag q variant = lbTag r warp) : q = r ∧ variant = warp := by
  have hsame : q.id.val = r.id.val → q = r :=
    h.exitRegion_eq (mem_renderedExitRegions.mp hq).1 (mem_renderedExitRegions.mp hr).1
  have hsplit : TagPrefix.lbWarp = TagPrefix.lb ++ TagPrefix.warp := rfl
  cases variant with
  | false =>
      cases warp with
      | false => exact ⟨hsame ((String.append_right_inj _).mp htag), rfl⟩
      | true =>
          simp only [lbTag, if_true, Bool.false_eq_true, if_false, hsplit,
            String.append_assoc] at htag
          exact absurd ((String.append_right_inj _).mp htag)
            (hnav.not_warp_name hq hqbal hr hrbal (hwarp rfl))
  | true =>
      cases warp with
      | false =>
          simp only [lbTag, if_true, Bool.false_eq_true, if_false, hsplit,
            String.append_assoc] at htag
          exact absurd ((String.append_right_inj _).mp htag.symm)
            (hnav.not_warp_name hr hrbal hq hqbal (hvariant rfl))
      | true => exact ⟨hsame ((String.append_right_inj _).mp htag), rfl⟩

theorem Navigable.isBalancerOf (h : Accepted cfg) (hnav : Navigable cfg)
    (hr : r ∈ renderedExitRegions cfg) (hbalanced : balanced r = true)
    (hwarp : warp = true → r.warp.isSome = true) {b : Balancer}
    (hb : b ∈ (renderedExitRegions cfg).flatMap balancersOf) (htag : b.tag = lbTag r warp) :
    IsBalancerOf r warp b := by
  obtain ⟨q, hq, hb⟩ := List.mem_flatMap.mp hb
  have hqbal := (mem_balancersOf hb).1
  obtain ⟨variant, hvariant, hown⟩ := (mem_balancersOf_iff hqbal).1 b hb
  obtain ⟨rfl, rfl⟩ := hnav.lbTag_inj h hr hbalanced hwarp hq hqbal hvariant
    (hown.tag.symm.trans htag)
  exact hown

/-! ## Who carries a connection to a region -/

theorem carries_tag_iff {outbound : Outbound} {tag : String} :
    config.Carries outbound (.outboundTag, tag) ↔ outbound.tag = tag := by
  constructor
  · intro h
    cases h
    rfl
  · rintro rfl
    exact .tagged

theorem carries_balancer_iff {outbound : Outbound} {tag : String} :
    config.Carries outbound (.balancerTag, tag) ↔ ∃ b ∈ config.balancers, b.tag = tag ∧
      (selects b.selector outbound.tag = true ∨ outbound.tag = b.fallbackTag) := by
  constructor
  · intro h
    cases h with
    | selected hb hselects => exact ⟨_, hb, rfl, .inl hselects⟩
    | fallback hb htag => exact ⟨_, hb, rfl, .inr htag⟩
  · rintro ⟨b, hb, rfl, hselects | htag⟩
    · exact .selected hb hselects
    · exact .fallback hb htag

theorem Navigable.lead (hnav : Navigable cfg) (hr : r ∈ renderedExitRegions cfg) :
    ∃ n ∈ primaryNodes r, leadId r = linkTag n := by
  rcases leadId_cases (mem_renderedExitRegions.mp hr).2 with ⟨n, hn, hrole, hid⟩ | ⟨hall, -⟩
  · exact ⟨n, mem_primaryNodes.mpr ⟨hn, hrole⟩, by rw [hid, linkTag_primary hrole]⟩
  · obtain ⟨n, hn⟩ := List.exists_mem_of_ne_nil _ (hnav.primary r hr)
    obtain ⟨hmem, hrole⟩ := mem_primaryNodes.mp hn
    exact absurd (hall n hmem) hrole

theorem Navigable.fallback (h : Accepted cfg) (hnav : Navigable cfg)
    (hr : r ∈ renderedExitRegions cfg) : ∃ n ∈ r.nodes, fallbackTag r = linkTag n := by
  cases hfallback : r.lbFallback with
  | none =>
      obtain ⟨n, hn, hlead⟩ := hnav.lead hr
      refine ⟨n, (mem_primaryNodes.mp hn).1, ?_⟩
      simp [fallbackTag, hfallback, hlead]
  | some fallback => exact fallbackTag_link h (mem_renderedExitRegions.mp hr).1 hfallback

/-- The node an unbalanced region is dialled by is the one it is named by. -/
theorem Navigable.mem_servingNodes_single (h : Accepted cfg) (hnav : Navigable cfg)
    (hr : r ∈ renderedExitRegions cfg) (hbalanced : balanced r = false) {n : ExitNode} :
    n ∈ servingNodes r ↔ n ∈ r.nodes ∧ linkTag n = leadId r := by
  obtain ⟨lead, hlead, hid⟩ := hnav.lead hr
  obtain ⟨hmem, hrole⟩ := mem_primaryNodes.mp hlead
  simp only [servingNodes, hbalanced, List.mem_filter, Bool.false_eq_true, if_false,
    decide_eq_true_eq]
  refine and_congr_right fun hn => ?_
  have hrendered : ∀ {m}, m ∈ r.nodes → (r, m) ∈ renderedExitNodes cfg :=
    mem_renderedExitNodes_of hr
  constructor
  · intro heq
    rw [hid, linkTag_primary hrole] at heq
    cases h.exitNode_eq (hrendered hn) (hrendered hmem) heq
    exact hid.symm
  · intro heq
    rw [hid] at heq
    cases hnav.links.linkTag_inj h (hrendered hn) (hrendered hmem) heq
    rw [hid, linkTag_primary hrole]

theorem mem_servingNodes_balanced (hbalanced : balanced r = true) {n : ExitNode} :
    n ∈ servingNodes r ↔ n ∈ r.nodes ∧ (n ∈ primaryNodes r ∨ linkTag n = fallbackTag r) := by
  simp only [servingNodes, hbalanced, List.mem_filter, if_true, Bool.or_eq_true, ne_eq,
    decide_not, Bool.not_eq_true', decide_eq_false_iff_not, decide_eq_true_eq, mem_primaryNodes]
  exact and_congr_right fun hn => by simp [hn]

/-- What is sent to a region is carried by the links of that variant to the nodes that serve
it, and by no other link. -/
theorem Navigable.carries_iff (h : Accepted cfg) (hnav : Navigable cfg)
    (hbalancers : config.balancers = (renderedExitRegions cfg).flatMap balancersOf)
    (hr : r ∈ renderedExitRegions cfg) (hwarp : warp = true → r.warp.isSome = true)
    (hp : p ∈ renderedExitNodes cfg) (hvariant : variant = true → p.1.warp.isSome = true)
    {outbound : Outbound} (htag : outbound.tag = variantTag variant (linkTag p.2)) :
    config.Carries outbound (regionTarget r warp) ↔
      p.1 = r ∧ p.2 ∈ servingNodes r ∧ variant = warp := by
  have hrendered : ∀ {m}, m ∈ r.nodes → (r, m) ∈ renderedExitNodes cfg :=
    mem_renderedExitNodes_of hr
  have hnodes : p.2 ∈ p.1.nodes := (mem_renderedExitNodes.mp hp).2
  -- a tag that names a node of the region is the tag of that link
  have hnamed : ∀ {n}, n ∈ r.nodes →
      (outbound.tag = variantTag warp (linkTag n) ↔ p = (r, n) ∧ variant = warp) := by
    intro n hn
    rw [htag]
    refine ⟨hnav.linkTag_inj h hp (hrendered hn) hvariant hwarp, ?_⟩
    rintro ⟨rfl, rfl⟩
    rfl
  cases hbalanced : balanced r with
  | false =>
      obtain ⟨lead, hlead, hid⟩ := hnav.lead hr
      have htarget : regionTarget r warp = (.outboundTag, variantTag warp (linkTag lead)) := by
        rw [← hid, regionTarget, balancerKey, regionWarpTag, regionTag, hbalanced]
        rfl
      rw [htarget, carries_tag_iff, hnamed (mem_primaryNodes.mp hlead).1,
        hnav.mem_servingNodes_single h hr hbalanced, hid]
      constructor
      · rintro ⟨rfl, hsame⟩
        exact ⟨rfl, ⟨hnodes, rfl⟩, hsame⟩
      · rintro ⟨rfl, ⟨-, heq⟩, hsame⟩
        exact ⟨hnav.links.linkTag_inj h hp (hrendered (mem_primaryNodes.mp hlead).1) heq, hsame⟩
  | true =>
      have htarget : regionTarget r warp = (.balancerTag, lbTag r warp) := by
        rw [regionTarget, balancerKey, regionWarpTag, regionTag, hbalanced, lbTag]
        cases warp <;> rfl
      obtain ⟨n, hn, hfallback⟩ := hnav.fallback h hr
      rw [htarget, carries_balancer_iff, mem_servingNodes_balanced hbalanced, hfallback]
      have hserved : ∀ {b}, IsBalancerOf r warp b →
          (selects b.selector outbound.tag = true ∨ outbound.tag = b.fallbackTag ↔
            p.1 = r ∧ (p.2 ∈ primaryNodes r ∨ p.2 = n) ∧ variant = warp) := by
        intro b hb
        rw [hb.selector, hb.fallback, selects_singleton, hfallback, hnamed hn, htag,
          hnav.selects_iff h hr hbalanced hwarp hp hvariant, Prod.ext_iff]
        grind
      constructor
      · rintro ⟨b, hb, hbtag, hcarried⟩
        rw [hbalancers] at hb
        have hown := hnav.isBalancerOf h hr hbalanced hwarp hb hbtag
        obtain ⟨rfl, hcase, hsame⟩ := (hserved hown).mp hcarried
        exact ⟨rfl, ⟨hnodes, hcase.imp_right (congrArg linkTag)⟩, hsame⟩
      · rintro ⟨rfl, ⟨-, hcase⟩, hsame⟩
        obtain ⟨b, hb, hown⟩ := (mem_balancersOf_iff hbalanced).2 warp hwarp
        refine ⟨b, ?_, hown.tag, (hserved hown).mpr ⟨rfl, hcase.imp_right fun heq => ?_, hsame⟩⟩
        · rw [hbalancers]
          exact List.mem_flatMap.mpr ⟨_, hr, hb⟩
        · exact congrArg Prod.snd (hnav.links.linkTag_inj h hp (hrendered hn) heq)

/-! ## Arriving -/

end HexRift
