import HexRift.Verification.Withdrawal

/-! # Journeys that outlive an exit node

When a node goes, a region may fall back to another, be named by another, or stop being balanced
at all. Whoever left the fleet by a node that stays still does. -/

namespace HexRift

open Checks Passes

variable {cfg : ConglomerateConfig} {crypto : Crypto} {store store' : KeyStore}
  {region r : ExitRegion} {node n : ExitNode} {hubRegion : HubRegion} {hub : HubNode}
  {c : Connection} {p : ExitRegion × ExitNode} {warp variant : Bool}

/-- A node that may go: something is left of what names it. -/
structure Removable (cfg : ConglomerateConfig) (region : ExitRegion) (node : ExitNode) :
    Prop where
  placed : region ∈ cfg.exitRegions ∧ node ∈ region.nodes
  default : ¬ (region.nodes.length = 1 ∧ cfg.routing.hubDefault = region.id.val)
  primary : (region.without node).nodes ≠ [] → primaryNodes (region.without node) ≠ []
  bare : node.lbRole = some .backup → ∀ route ∈ cfg.routing.hubRoutes,
    route.destination ≠ node.id.val

/-! ## The region a node is gone from -/

theorem primaryNodes_remaining (h : Accepted cfg) (hremovable : Removable cfg region node)
    (hr : r ∈ cfg.exitRegions) : primaryNodes (ExitRegion.remaining region node r) =
      (primaryNodes r).filter fun n => n.id ≠ node.id := by
  rw [primaryNodes, primaryNodes,
    remaining_nodes h hremovable.placed.1 hremovable.placed.2 hr, List.filter_comm]

theorem mem_renderedExitRegions_remaining (h : Accepted cfg)
    (hremovable : Removable cfg region node) (hr : r ∈ cfg.exitRegions) (hn : n ∈ r.nodes)
    (hid : n.id ≠ node.id) : ExitRegion.remaining region node r ∈
      renderedExitRegions (cfg.without region node) := by
  refine mem_renderedExitRegions.mpr ⟨?_, ?_⟩
  · rw [exitRegions_without]
    exact List.mem_map_of_mem hr
  · rw [remaining_nodes h hremovable.placed.1 hremovable.placed.2 hr]
    exact List.ne_nil_of_mem (List.mem_filter.mpr ⟨hn, decide_eq_true hid⟩)

theorem exists_of_mem_without (h : Accepted cfg) (hremovable : Removable cfg region node)
    (hr : r ∈ renderedExitRegions (cfg.without region node)) :
    ∃ q ∈ renderedExitRegions cfg, r = ExitRegion.remaining region node q := by
  obtain ⟨hmem, hnodes⟩ := mem_renderedExitRegions.mp hr
  rw [exitRegions_without] at hmem
  obtain ⟨q, hq, rfl⟩ := List.mem_map.mp hmem
  refine ⟨q, mem_renderedExitRegions.mpr ⟨hq, fun hnil => hnodes ?_⟩, rfl⟩
  rw [remaining_nodes h hremovable.placed.1 hremovable.placed.2 hq, hnil]
  rfl

theorem exists_of_mem_nodes_without (h : Accepted cfg) (hremovable : Removable cfg region node)
    (hp : p ∈ renderedExitNodes (cfg.without region node)) :
    ∃ q ∈ renderedExitNodes cfg, q.2.id ≠ node.id ∧ p = remainingPair region node q := by
  rw [renderedExitNodes_without h hremovable.placed.1 hremovable.placed.2] at hp
  obtain ⟨q, hq, rfl⟩ := List.mem_map.mp hp
  obtain ⟨hmem, hid⟩ := List.mem_filter.mp hq
  exact ⟨q, hmem, of_decide_eq_true hid, rfl⟩

@[simp] theorem remaining_id : (ExitRegion.remaining region node r).id = r.id := by
  obtain ⟨nodes, fallback, heq⟩ := remaining_cases region node r
  rw [heq]

@[simp] theorem remaining_warp : (ExitRegion.remaining region node r).warp = r.warp := by
  obtain ⟨nodes, fallback, heq⟩ := remaining_cases region node r
  rw [heq]

@[simp] theorem remaining_vlessRoute :
    (ExitRegion.remaining region node r).vlessRoute = r.vlessRoute := by
  obtain ⟨nodes, fallback, heq⟩ := remaining_cases region node r
  rw [heq]

@[simp] theorem remaining_lbStrategy :
    (ExitRegion.remaining region node r).lbStrategy = r.lbStrategy := by
  obtain ⟨nodes, fallback, heq⟩ := remaining_cases region node r
  rw [heq]

theorem remaining_lbFallback {fallback : String} (h : r.lbFallback = some fallback)
    (hne : fallback ≠ node.id.val) :
    (ExitRegion.remaining region node r).lbFallback = some fallback := by
  by_cases hself : r = region
  · subst hself
    have hkept : r.lbFallback ≠ some node.id.val := by simpa [h] using hne
    rw [ExitRegion.remaining, if_pos rfl, ExitRegion.without, if_neg hkept, h]
  · rw [ExitRegion.remaining, if_neg hself, h]

theorem balanced_of_remaining (h : Accepted cfg) (hremovable : Removable cfg region node)
    (hr : r ∈ cfg.exitRegions)
    (hbalanced : balanced (ExitRegion.remaining region node r) = true) : balanced r = true := by
  simp only [balanced, remaining_lbStrategy, Bool.and_eq_true, decide_eq_true_eq] at hbalanced ⊢
  refine ⟨hbalanced.1, hbalanced.2.trans_le ?_⟩
  rw [remaining_nodes h hremovable.placed.1 hremovable.placed.2 hr]
  exact List.length_filter_le _ _

/-- What told the links apart still does. -/
theorem Navigable.without (h : Accepted cfg) (hremovable : Removable cfg region node)
    (hnav : Navigable cfg) : Navigable (cfg.without region node) := by
  have hnodes : ∀ {p}, p ∈ renderedExitNodes (cfg.without region node) →
      ∃ q ∈ renderedExitNodes cfg, q.2 = p.2 ∧ q.1.warp = p.1.warp := by
    intro p hp
    obtain ⟨q, hq, -, rfl⟩ := exists_of_mem_nodes_without h hremovable hp
    exact ⟨q, hq, rfl, remaining_warp.symm⟩
  have hprimary : ∀ {r n}, r ∈ cfg.exitRegions →
      n ∈ primaryNodes (ExitRegion.remaining region node r) → n ∈ primaryNodes r := by
    intro r n hr hn
    rw [primaryNodes_remaining h hremovable hr] at hn
    exact (List.mem_filter.mp hn).1
  constructor
  case links =>
    constructor
    case fixed =>
      intro p hp hrole
      obtain ⟨q, hq, heq, -⟩ := hnodes hp
      exact heq ▸ hnav.links.fixed q hq (heq ▸ hrole)
    case backup =>
      intro p hp hrole p' hp' hrole'
      obtain ⟨q, hq, heq, -⟩ := hnodes hp
      obtain ⟨q', hq', heq', -⟩ := hnodes hp'
      rw [← heq, ← heq']
      exact hnav.links.backup q hq (heq ▸ hrole) q' hq' (heq' ▸ hrole')
    case warp =>
      intro p hp hrole p' hp' hwarp
      obtain ⟨q, hq, heq, -⟩ := hnodes hp
      obtain ⟨q', hq', heq', hsame⟩ := hnodes hp'
      rw [← heq, ← heq']
      exact hnav.links.warp q hq (heq ▸ hrole) q' hq' (hsame ▸ hwarp)
  case primary =>
    intro r hr
    obtain ⟨q, hq, rfl⟩ := exists_of_mem_without h hremovable hr
    by_cases hself : q = region
    · rw [ExitRegion.remaining, if_pos hself] at hr ⊢
      exact hremovable.primary (mem_renderedExitRegions.mp hr).2
    · rw [ExitRegion.remaining, if_neg hself]
      exact hnav.primary q hq
  case separate =>
    intro r hr hbalanced
    obtain ⟨q, hq, rfl⟩ := exists_of_mem_without h hremovable hr
    have hmem := (mem_renderedExitRegions.mp hq).1
    have hsep := hnav.separate q hq (balanced_of_remaining h hremovable hmem hbalanced)
    constructor
    case members =>
      intro n hn
      rw [remaining_id]
      exact hsep.members n (hprimary hmem hn)
    case others =>
      intro r' hr' hne n hn
      obtain ⟨q', hq', rfl⟩ := exists_of_mem_without h hremovable hr'
      rw [remaining_id]
      exact hsep.others q' hq' (fun heq => hne (heq ▸ rfl)) n
        (hprimary (mem_renderedExitRegions.mp hq').1 hn)
    case backups =>
      intro r' n hn hrole
      obtain ⟨p, hp, heq, -⟩ := hnodes hn
      have heq : p.2 = n := heq
      subst heq
      rw [remaining_id]
      exact hsep.backups p.1 p.2 hp hrole
    case warps =>
      intro r' n hn hwarp
      obtain ⟨p, hp, heq, hsame⟩ := hnodes hn
      have heq : p.2 = n := heq
      subst heq
      rw [remaining_id]
      exact hsep.warps p.1 p.2 hp (hsame ▸ hwarp)
    case fixed =>
      rw [remaining_id]
      exact hsep.fixed
    case warpNames =>
      intro hwarp r' hr' n hn
      obtain ⟨q', hq', rfl⟩ := exists_of_mem_without h hremovable hr'
      rw [remaining_id]
      exact hsep.warpNames (remaining_warp (r := q) ▸ hwarp) q' hq' n
        (hprimary (mem_renderedExitRegions.mp hq').1 hn)

/-! ## Serving nodes -/

theorem leadId_cons {ns : List ExitNode} (hprimary : primaryNodes r = n :: ns) :
    leadId r = n.id.val := by
  rw [leadId, hprimary]
  rfl

theorem name_of_find {fallback : String}
    (hfind : r.nodes.find? (fun m => m.id.val = fallback) = some n) : n.id.val = fallback := by
  have hname := List.find?_some hfind
  rwa [decide_eq_true_eq] at hname

/-- What a region falls back to by name is the node of that name. -/
theorem fallbackTag_of_named (h : Accepted cfg) (hnav : Navigable cfg)
    (hr : r ∈ renderedExitRegions cfg) {fallback : String}
    (hfallback : r.lbFallback = some fallback)
    (hn : n ∈ r.nodes) (htag : linkTag n = fallbackTag r) :
    r.nodes.find? (fun m => m.id.val = fallback) = some n := by
  have hexit : ExitRegionOk r :=
    (h.region _ (mem_exitRegions.mp (mem_renderedExitRegions.mp hr).1)).kind
  obtain ⟨m, hm, hid⟩ := List.mem_map.mp (hexit.fallback fallback hfallback)
  cases hfind : r.nodes.find? fun m => m.id.val = fallback with
  | none => simpa [hid] using List.find?_eq_none.mp hfind m hm
  | some named =>
      have hname := name_of_find hfind
      have hsame : linkTag n = linkTag named := by
        rw [htag, fallbackTag, hfallback]
        simp only [hfind]
        rw [linkTag, hname]
      cases hnav.links.linkTag_inj h (mem_renderedExitNodes_of hr hn)
        (mem_renderedExitNodes_of hr (List.mem_of_find?_eq_some hfind)) hsame
      rfl

theorem fallbackTag_of_find {fallback : String} (hfallback : r.lbFallback = some fallback)
    (hfind : r.nodes.find? (fun m => m.id.val = fallback) = some n) :
    fallbackTag r = linkTag n := by
  have hname := name_of_find hfind
  rw [fallbackTag, hfallback]
  simp only [hfind]
  rw [linkTag, hname]

/-- A region is still served by each node that served it and stays. -/
theorem servingNodes_remaining (h : Accepted cfg) (hremovable : Removable cfg region node)
    (hnav : Navigable cfg) (hr : r ∈ renderedExitRegions cfg) (hn : n ∈ servingNodes r)
    (hid : n.id ≠ node.id) : n ∈ servingNodes (ExitRegion.remaining region node r) := by
  have hmem := (mem_renderedExitRegions.mp hr).1
  have hnode : n ∈ r.nodes := (List.mem_filter.mp hn).1
  have hr' := mem_renderedExitRegions_remaining h hremovable hmem hnode hid
  have hnav' := hnav.without h hremovable
  have haccepted' := h.without hremovable.placed.1 hremovable.placed.2 hremovable.default
  have hnodes := remaining_nodes h hremovable.placed.1 hremovable.placed.2 hmem
  have hprimary := primaryNodes_remaining h hremovable hmem
  have hstays : n ∈ (ExitRegion.remaining region node r).nodes :=
    hnodes ▸ List.mem_filter.mpr ⟨hnode, decide_eq_true hid⟩
  obtain ⟨lead, hlead, hleadId⟩ := hnav.lead hr
  have hlinked : ∀ {m}, m ∈ r.nodes → linkTag n = linkTag m → n = m := fun hm heq =>
    congrArg Prod.snd (hnav.links.linkTag_inj h (mem_renderedExitNodes_of hr hnode)
      (mem_renderedExitNodes_of hr hm) heq)
  cases hbalanced' : balanced (ExitRegion.remaining region node r) with
  | true =>
      have hbalanced := balanced_of_remaining h hremovable hmem hbalanced'
      obtain ⟨-, hcase⟩ := (mem_servingNodes_balanced hbalanced).mp hn
      refine (mem_servingNodes_balanced hbalanced').mpr ⟨hstays, ?_⟩
      rcases hcase with hprimaryNode | htag
      · exact .inl (hprimary ▸ List.mem_filter.mpr ⟨hprimaryNode, decide_eq_true hid⟩)
      · cases hfallback : r.lbFallback with
        | none =>
            -- without a fallback of its own the region falls back to its first primary node
            have htag : linkTag n = leadId r := by simpa [fallbackTag, hfallback] using htag
            cases hlinked (mem_primaryNodes.mp hlead).1 (htag.trans hleadId)
            exact .inl (hprimary ▸ List.mem_filter.mpr ⟨hlead, decide_eq_true hid⟩)
        | some fallback =>
            have hfind := fallbackTag_of_named h hnav hr hfallback hnode htag
            have hname := name_of_find hfind
            refine .inr (fallbackTag_of_find (remaining_lbFallback hfallback ?_) ?_).symm
            · exact hname ▸ mt Identifier.val_inj.mp hid
            · rw [hnodes]
              exact find?_filter_of_keep hfind (decide_eq_true hid)
  | false =>
      refine (hnav'.mem_servingNodes_single haccepted' hr' hbalanced').mpr ⟨hstays, ?_⟩
      cases hbalanced : balanced r with
      | true =>
          -- the region has one node left
          obtain ⟨lead', hlead', hleadId'⟩ := hnav'.lead hr'
          have hone : (ExitRegion.remaining region node r).nodes.length ≤ 1 := by
            simp only [balanced, remaining_lbStrategy, Bool.and_eq_true, Bool.and_eq_false_iff,
              decide_eq_true_eq, decide_eq_false_iff_not, not_lt] at hbalanced hbalanced'
            rcases hbalanced' with hnone | hone
            · exact absurd (hnone.symm.trans hbalanced.1) Bool.false_ne_true
            · exact hone
          have hmem' := (mem_primaryNodes.mp hlead').1
          obtain ⟨only, honly⟩ := List.length_eq_one_iff.mp
            (le_antisymm hone (List.length_pos_of_mem hstays))
          rw [honly, List.mem_singleton] at hstays hmem'
          rw [hleadId', hstays, hmem']
      | false =>
          obtain ⟨-, htag⟩ := (hnav.mem_servingNodes_single h hr hbalanced).mp hn
          cases hlinked (mem_primaryNodes.mp hlead).1 (htag.trans hleadId)
          cases hfirst : primaryNodes r with
          | nil =>
              rw [hfirst] at hlead
              cases hlead
          | cons m ms =>
              have hrole := (mem_primaryNodes.mp hlead).2
              have hm : m ∈ primaryNodes r := hfirst ▸ List.mem_cons_self
              rw [leadId_cons hfirst, linkTag_primary hrole] at htag
              cases hlinked (mem_primaryNodes.mp hm).1
                (by rw [linkTag_primary hrole, linkTag_primary (mem_primaryNodes.mp hm).2, htag])
              rw [hfirst, List.filter_cons_of_pos (by simpa using hid)] at hprimary
              rw [leadId_cons hprimary, linkTag_primary hrole]

/-! ## Where a hub sends what it sent before -/

theorem Entering.without (hc : Entering cfg hub c) : Entering (cfg.without region node) hub c :=
  ⟨hc.published, hc.dns⟩

theorem Unselected.without (h : Accepted cfg) (hremovable : Removable cfg region node)
    (hc : Unselected cfg hub c) : Unselected (cfg.without region node) hub c := by
  refine ⟨hc.toEntering.without, fun r hr => ?_⟩
  obtain ⟨q, hq, rfl⟩ := exists_of_mem_without h hremovable hr
  have hnone := hc.region q hq
  rw [ExitRegion.Selected, ExitRegion.WarpSelected] at hnone ⊢
  rwa [remaining_vlessRoute, remaining_warp]

theorem Unblocked.without (h : Accepted cfg) (hremovable : Removable cfg region node)
    (hc : Unblocked cfg hub c) : Unblocked (cfg.without region node) hub c :=
  ⟨hc.toUnselected.without h hremovable, find?_filter_eq_none hc.blocked⟩

/-- A destination that is no special one is a region or stands for itself, before and after. -/
theorem targetOf_without_cases (cfg : ConglomerateConfig) (region : ExitRegion) (node : ExitNode)
    (dest : String) : dest ∈ specialDestinations ∨
      (∃ q ∈ cfg.exitRegions, q.id.val = dest ∧ targetOf cfg dest = regionTarget q false ∧
        targetOf (cfg.without region node) dest =
          regionTarget (ExitRegion.remaining region node q) false) ∨
      (dest ∉ specialDestinations ∧ (∀ q ∈ cfg.exitRegions, q.id.val ≠ dest) ∧
        targetOf cfg dest = (.outboundTag, dest) ∧
          targetOf (cfg.without region node) dest = (.outboundTag, dest)) := by
  by_cases hspecial : dest ∈ specialDestinations
  · exact .inl hspecial
  · refine .inr ?_
    have hfind : (cfg.without region node).exitRegions.find? (fun r => r.id.val = dest) =
        (cfg.exitRegions.find? fun r => r.id.val = dest).map
          (ExitRegion.remaining region node) := by
      rw [exitRegions_without, List.find?_map]
      simp only [Function.comp_def, remaining_id]
    rw [targetOf, targetOf, if_neg hspecial, if_neg hspecial, hfind]
    cases hregion : cfg.exitRegions.find? fun r => r.id.val = dest with
    | none =>
        refine .inr ⟨hspecial, fun q hq => ?_, rfl, rfl⟩
        simpa using List.find?_eq_none.mp hregion q hq
    | some q =>
        have hname := List.find?_some hregion
        rw [decide_eq_true_eq] at hname
        exact .inl ⟨q, List.mem_of_find?_eq_some hregion, hname, rfl, rfl⟩

theorem mem_goneIds {id : String} (h : id ∈ goneIds cfg region node) :
    region.nodes.length = 1 ∧ id = region.id.val ∨
      id = node.id.val ∧ (id ∈ regionIds cfg → region.nodes.length = 1 ∧ id = region.id.val) := by
  simp only [goneIds] at h
  by_cases hone : region.nodes.length = 1
  · rw [if_pos hone] at h
    split at h
    · rename_i hnone
      rcases List.mem_cons.mp h with rfl | hid
      · refine .inr ⟨rfl, fun hregion => ⟨hone, ?_⟩⟩
        by_contra hstays
        exact hnone (List.mem_filter.mpr ⟨hregion, by simpa using hstays⟩)
      · exact .inl ⟨hone, List.mem_singleton.mp hid⟩
    · exact .inl ⟨hone, List.mem_singleton.mp h⟩
  · rw [if_neg hone] at h
    split at h
    · rename_i hnone
      cases List.mem_singleton.mp h
      exact .inr ⟨rfl, fun hregion => absurd (List.mem_filter.mpr ⟨hregion, by simp⟩) hnone⟩
    · cases h

/-- No route to a region that keeps a node is dropped. -/
theorem region_not_gone (h : Accepted cfg) (hremovable : Removable cfg region node)
    (hr : r ∈ cfg.exitRegions) (hnodes : (ExitRegion.remaining region node r).nodes ≠ []) :
    r.id.val ∉ goneIds cfg region node := by
  intro hgone
  have hemptied : region.nodes.length = 1 ∧ r.id.val = region.id.val := by
    rcases mem_goneIds hgone with hid | ⟨-, hid⟩
    · exact hid
    · exact hid (List.mem_map.mpr ⟨.exit r, mem_exitRegions.mp hr, rfl⟩)
  have hsame := h.exitRegion_eq hr hremovable.placed.1 hemptied.2
  rw [ExitRegion.remaining, if_pos hsame] at hnodes
  have hids : (nodeIds cfg).Nodup := by simpa using h.nodeIds
  exact hnodes ((nodes_without_eq_nil hids hremovable.placed.1 hremovable.placed.2).mpr hemptied.1)

/-! ## What carries a connection still does -/

/-- The links of a hub before and after, as far as they lead to nodes that stay. -/
structure Rewired (cfg : ConglomerateConfig) (region : ExitRegion) (node : ExitNode)
    (config config' : XrayConfig) : Prop where
  balancers : config.balancers = (renderedExitRegions cfg).flatMap balancersOf
  balancers' : config'.balancers =
    (renderedExitRegions (cfg.without region node)).flatMap balancersOf

variable {config config' : XrayConfig} {outbound : Outbound}

theorem Rewired.carries_region (h : Accepted cfg) (hremovable : Removable cfg region node)
    (hnav : Navigable cfg) (hrewired : Rewired cfg region node config config')
    (hr : r ∈ renderedExitRegions cfg) (hwarp : warp = true → r.warp.isSome = true)
    (hp : p ∈ renderedExitNodes cfg) (hvariant : variant = true → p.1.warp.isSome = true)
    (htag : outbound.tag = variantTag variant (linkTag p.2)) (hid : p.2.id ≠ node.id)
    (hcarries : config.Carries outbound (regionTarget r warp)) :
    ExitRegion.remaining region node r ∈ renderedExitRegions (cfg.without region node) ∧
      config'.Carries outbound (regionTarget (ExitRegion.remaining region node r) warp) := by
  obtain ⟨rfl, hserving, rfl⟩ := (hnav.carries_iff h hrewired.balancers hr hwarp hp hvariant
    htag).mp hcarries
  obtain ⟨hmem, hn⟩ := mem_renderedExitNodes.mp hp
  have hr' := mem_renderedExitRegions_remaining h hremovable hmem hn hid
  have hserving' := servingNodes_remaining h hremovable hnav hr hserving hid
  have hp' : remainingPair region node p ∈ renderedExitNodes (cfg.without region node) :=
    mem_renderedExitNodes_of hr' (List.mem_filter.mp hserving').1
  refine ⟨hr', ((hnav.without h hremovable).carries_iff
    (h.without hremovable.placed.1 hremovable.placed.2 hremovable.default) hrewired.balancers' hr'
    (remaining_warp (r := p.1) ▸ hwarp) hp' (remaining_warp (r := p.1) ▸ hvariant) htag).mpr
      ⟨rfl, hserving', rfl⟩⟩

theorem Navigable.variantTag_not_special (hnav : Navigable cfg) (hp : p ∈ renderedExitNodes cfg)
    (variant : Bool) : variantTag variant (linkTag p.2) ∉ specialDestinations := by
  cases variant with
  | false => exact hnav.links.linkTag_not_special hp
  | true => exact warp_not_special _

/-- A destination that led to a node that stays still leads there. -/
theorem Rewired.carries_destination (h : Accepted cfg) (hremovable : Removable cfg region node)
    (hnav : Navigable cfg) (hrewired : Rewired cfg region node config config')
    (hp : p ∈ renderedExitNodes cfg) (hvariant : variant = true → p.1.warp.isSome = true)
    (htag : outbound.tag = variantTag variant (linkTag p.2)) (hid : p.2.id ≠ node.id)
    {dest : String} (hnonempty : dest ∉ emptyRegionIds cfg) (hhub : dest ∉ hubRegionIds cfg)
    (hbare : dest ∉ specialDestinations → (∀ q ∈ cfg.exitRegions, q.id.val ≠ dest) →
      node.lbRole = some .backup → dest ≠ node.id.val)
    (hcarries : config.Carries outbound (targetOf cfg dest)) :
    dest ∉ goneIds cfg region node ∧
      config'.Carries outbound (targetOf (cfg.without region node) dest) := by
  rcases targetOf_without_cases cfg region node dest with
    hspecial | ⟨q, hq, rfl, htarget, htarget'⟩ |
      ⟨hspecial, hnone, htarget, htarget'⟩
  · rw [targetOf_special hspecial, carries_tag_iff, htag] at hcarries
    exact absurd (hcarries ▸ hspecial) (hnav.variantTag_not_special hp variant)
  · have hnodes := nodes_ne_nil hq hnonempty
    rw [htarget] at hcarries
    obtain ⟨hr', hcarries'⟩ := hrewired.carries_region h hremovable hnav
      (mem_renderedExitRegions.mpr ⟨hq, hnodes⟩) (fun h => absurd h Bool.false_ne_true) hp hvariant
      htag hid hcarries
    exact ⟨region_not_gone h hremovable hq (mem_renderedExitRegions.mp hr').2, htarget' ▸ hcarries'⟩
  · rw [htarget, carries_tag_iff] at hcarries
    refine ⟨fun hgone => ?_, htarget' ▸ carries_tag_iff.mpr hcarries⟩
    rcases mem_goneIds hgone with ⟨-, hname⟩ | ⟨hname, -⟩
    · exact hnone region hremovable.placed.1 hname.symm
    · have hrole : node.lbRole ≠ some .backup := fun hbackup =>
        hbare hspecial hnone hbackup hname
      have hsame : variantTag variant (linkTag p.2) = variantTag false (linkTag node) := by
        rw [← htag, hcarries, hname]
        exact (linkTag_primary hrole).symm
      obtain ⟨heq, -⟩ := hnav.linkTag_inj h (q := (region, node)) hp
        (mem_renderedExitNodes.mpr hremovable.placed) hvariant
        (fun h => absurd h Bool.false_ne_true) hsame
      exact hid (congrArg (fun q => q.2.id) heq)

/-- The policy still sends the connection where a link to a node that stays carries it. -/
theorem Rewired.policy (h : Accepted cfg) (hremovable : Removable cfg region node)
    (hnav : Navigable cfg) (hrewired : Rewired cfg region node config config')
    (hp : p ∈ renderedExitNodes cfg) (hvariant : variant = true → p.1.warp.isSome = true)
    (htag : outbound.tag = variantTag variant (linkTag p.2)) (hid : p.2.id ≠ node.id)
    {target : OutKey × String} (hpolicy : HubPolicy cfg hub c target)
    (hcarries : config.Carries outbound target) :
    ∃ target', HubPolicy (cfg.without region node) hub c target' ∧
      config'.Carries outbound target' := by
  have htagged : ∀ {tag}, config.Carries outbound (.outboundTag, tag) →
      config'.Carries outbound (.outboundTag, tag) :=
    fun hcarried => carries_tag_iff.mpr (carries_tag_iff.mp hcarried)
  have hregions : ∀ {r} warp, r ∈ renderedExitRegions cfg → (warp = true → r.warp.isSome = true) →
      config.Carries outbound (regionTarget r warp) →
        ExitRegion.remaining region node r ∈ renderedExitRegions (cfg.without region node) ∧
          config'.Carries outbound (regionTarget (ExitRegion.remaining region node r) warp) :=
    fun warp hr hwarp => hrewired.carries_region h hremovable hnav hr hwarp hp hvariant htag hid
  cases hpolicy with
  | publish hpub hinbound => exact ⟨_, .publish hpub hinbound, htagged hcarries⟩
  | dns hpublished hdns => exact ⟨_, .dns hpublished hdns, htagged hcarries⟩
  | region hc hr hselected =>
      obtain ⟨hr', hcarries'⟩ := hregions false hr (fun h => absurd h Bool.false_ne_true) hcarries
      refine ⟨_, .region hc.without hr' ?_, hcarries'⟩
      rwa [ExitRegion.Selected, remaining_vlessRoute]
  | warp hc hr hselected =>
      obtain ⟨route, hroute, hsegment⟩ := hselected
      obtain ⟨hr', hcarries'⟩ := hregions true hr (fun _ => Option.isSome_of_mem hroute) hcarries
      exact ⟨_, .warp hc.without hr' ⟨route, remaining_warp.symm ▸ hroute, hsegment⟩, hcarries'⟩
  | blocked hc hroute hhit =>
      rw [carries_tag_iff, htag] at hcarries
      exact absurd (hcarries ▸ blocked_special) (hnav.variantTag_not_special hp variant)
  | portal hc hfirst =>
      exact ⟨_, .portal (hc.without h hremovable) hfirst, htagged hcarries⟩
  | @route hc hportals route hfirst =>
      have hroute := mem_of_byPasses hfirst
      have hok := h.hubRoutes route hroute
      obtain ⟨hstays, hcarries'⟩ := hrewired.carries_destination h hremovable hnav hp hvariant htag
        hid hok.nonempty hok.dialable.1
        (fun _ _ hrole => hremovable.bare hrole route hroute) hcarries
      exact ⟨_, .route (hc.without h hremovable) hportals
        (byPasses_filter_of_keep hfirst (decide_eq_true hstays)), hcarries'⟩
  | default hc hportals hnone =>
      have hok := h.hubDefault
      have hbare : cfg.routing.hubDefault ∉ specialDestinations →
          (∀ q ∈ cfg.exitRegions, q.id.val ≠ cfg.routing.hubDefault) →
            node.lbRole = some .backup → cfg.routing.hubDefault ≠ node.id.val := by
        intro hspecial hregion
        obtain ⟨r, hr, hname⟩ := mem_exitRegionIds (hok.known.resolve_right hspecial) hok.notHub
        exact absurd hname (hregion r hr)
      obtain ⟨-, hcarries'⟩ := hrewired.carries_destination h hremovable hnav hp hvariant htag hid
        hok.nonempty hok.notHub hbare hcarries
      exact ⟨_, .default (hc.without h hremovable) hportals (byPasses_filter_eq_none hnone),
        hcarries'⟩

end HexRift
