import HexRift.Verification.WarpSelector

/-! # The policy of an exit

Exit routes decide before anything but the local resolver. What no route takes leaves by warp
when it was dialled for warp or goes to a warp domain, and directly otherwise: no rule of an
exit is left for it, so the first outbound takes it. -/

namespace HexRift

open Checks

variable {crypto : Crypto} {cfg : ConglomerateConfig} {store : KeyStore} {region : ExitRegion}
  {node : ExitNode} {config : XrayConfig} {c : Connection} {warp : Bool} {tag : String}

/-- Tag of the outbound a connection leaves by. The first one takes what no rule decides. -/
def XrayConfig.egress (config : XrayConfig) (c : Connection) : Option String :=
  ((dispatch config.rules c).map Prod.snd).or (config.outbounds.head?.map (·.tag))

/-- The domains an exit of the region sends out of its warp interface. -/
def exitWarpDomains (cfg : ConglomerateConfig) (region : ExitRegion) : List String :=
  (region.routing.bind (·.warpExtra)).getD [] ++ cfg.routing.exitWarpGlobal

/-- Where an exit of the region lets a connection out, by whether it was dialled for warp. -/
inductive ExitPolicy (cfg : ConglomerateConfig) (region : ExitRegion) (warp : Bool)
    (c : Connection) : String → Prop
  | dns (hdns : LocalDns cfg c) : ExitPolicy cfg region warp c SpecialDestination.direct.value
  | route (hdns : ¬ LocalDns cfg c) {route : ExitRoute}
      (hfirst : (exitRoutes cfg region).find? (ExitRoute.matches c) = some route) :
      ExitPolicy cfg region warp c route.destination
  | warp (hdns : ¬ LocalDns cfg c)
      (hroutes : (exitRoutes cfg region).find? (ExitRoute.matches c) = none)
      (hwarp : warp = true ∨ (exitWarpDomains cfg region).any c.domain = true) :
      ExitPolicy cfg region warp c SpecialDestination.warp.value
  | direct (hdns : ¬ LocalDns cfg c)
      (hroutes : (exitRoutes cfg region).find? (ExitRoute.matches c) = none)
      (hplain : warp = false) (hdomains : (exitWarpDomains cfg region).any c.domain = false) :
      ExitPolicy cfg region warp c SpecialDestination.direct.value

namespace ExitPolicy

theorem total (cfg : ConglomerateConfig) (region : ExitRegion) (warp : Bool) (c : Connection) :
    ∃ tag, ExitPolicy cfg region warp c tag := by
  by_cases hdns : LocalDns cfg c
  · exact ⟨_, .dns hdns⟩
  cases hroutes : (exitRoutes cfg region).find? (ExitRoute.matches c) with
  | some route => exact ⟨_, .route hdns hroutes⟩
  | none =>
      by_cases hwarp : warp = true ∨ (exitWarpDomains cfg region).any c.domain = true
      · exact ⟨_, .warp hdns hroutes hwarp⟩
      · rw [not_or, Bool.not_eq_true, Bool.not_eq_true] at hwarp
        exact ⟨_, .direct hdns hroutes hwarp.1 hwarp.2⟩

end ExitPolicy

/-! ## The rules of an exit -/

/-- The rule on warp domains, where there are any. -/
def warpDomainRules (domains : List String) : List Rule :=
  if domains = [] then []
  else [{ domain := some domains, outTag := SpecialDestination.warp.value }]

theorem dispatch_warpDomainRules (domains : List String) :
    dispatch (warpDomainRules domains) c =
      if domains.any c.domain then some (.outboundTag, SpecialDestination.warp.value)
      else none := by
  by_cases hnil : domains = []
  · rw [warpDomainRules, if_pos hnil, hnil]
    rfl
  · have hmatch : Rule.matches
        { domain := some domains, outTag := SpecialDestination.warp.value } c =
          domains.any c.domain := by
      simp only [Rule.matches, Option.all_none, Option.all_some, Bool.true_and, Bool.and_true]
    rw [warpDomainRules, if_neg hnil, dispatch_cons, hmatch]
    rfl

theorem renderExit_rules (h : renderExit crypto cfg store region node = .ok config) :
    config.rules = makeDnsDirectRule cfg.global.dns.address cfg.global.dns.port ::
        ((exitRoutes cfg region).flatMap exitRouteRules ++
          warpRule :: warpDomainRules (exitWarpDomains cfg region)) ∧
      config.outbounds = fixedOutbounds := by
  obtain ⟨keys, ctx, -, hctx, rfl⟩ := renderExit_loaded h
  simp only [buildExitContext, bind_eq_ok, pure_eq_ok] at hctx
  obtain ⟨slots, -, rfl⟩ := hctx
  refine ⟨?_, rfl⟩
  simp only [buildExitConfig, makeShared, List.append_assoc, List.singleton_append]
  rfl

theorem ExitPolicy.egress (h : renderExit crypto cfg store region node = .ok config)
    (hwarp : warp = decide (c.vlessRoute = some warpVlessRoute))
    (hp : ExitPolicy cfg region warp c tag) : config.egress c = some tag := by
  obtain ⟨hrules, houtbounds⟩ := renderExit_rules h
  rw [XrayConfig.egress, hrules, houtbounds, dispatch_cons, dispatch_append, dispatch_exitRoutes,
    dispatch_cons, dispatch_warpDomainRules]
  cases hp with
  | dns hdns =>
      rw [if_pos (dnsRule_matches.mpr hdns)]
      rfl
  | route hdns hfirst =>
      rw [if_neg (mt dnsRule_matches.mp hdns), hfirst]
      rfl
  | warp hdns hroutes hreason =>
      rw [if_neg (mt dnsRule_matches.mp hdns), hroutes]
      by_cases hsegment : warpRule.matches c = true
      · rw [if_pos hsegment]
        rfl
      · have hdomains : (exitWarpDomains cfg region).any c.domain = true := by
          refine hreason.resolve_left fun hdialled => hsegment (warpRule_matches.mpr ?_)
          rw [hwarp, decide_eq_true_eq] at hdialled
          exact hdialled
        rw [if_neg hsegment, if_pos hdomains]
        rfl
  | direct hdns hroutes hplain hdomains =>
      have hsegment : ¬ warpRule.matches c = true := by
        rw [hwarp, decide_eq_false_iff_not] at hplain
        exact mt warpRule_matches.mp hplain
      rw [if_neg (mt dnsRule_matches.mp hdns), hroutes, if_neg hsegment, hdomains]
      rfl

/-- An exit lets every connection out, and where the policy says. -/
theorem egress_iff (h : renderExit crypto cfg store region node = .ok config)
    (hwarp : warp = decide (c.vlessRoute = some warpVlessRoute)) :
    config.egress c = some tag ↔ ExitPolicy cfg region warp c tag := by
  constructor
  · intro hegress
    obtain ⟨decided, hp⟩ := ExitPolicy.total cfg region warp c
    have heq := (hp.egress h hwarp).symm.trans hegress
    rwa [Option.some.inj heq] at hp
  · exact ExitPolicy.egress h hwarp

/-! ## Refinement -/

/-- Every tag of the policy is that of an outbound every exit has. -/
theorem ExitPolicy.special (h : Accepted cfg) (hr : region ∈ cfg.exitRegions)
    (hp : ExitPolicy cfg region warp c tag) : tag ∈ specialDestinations := by
  cases hp with
  | dns => decide
  | route hdns hfirst =>
      have hkind : ExitRegionOk region := (h.region _ (mem_exitRegions.mp hr)).kind
      rcases List.mem_append.mp (List.mem_of_find?_eq_some hfirst) with hown | hglobal
      · exact hkind.routes _ hown
      · exact h.exitRoutes _ hglobal
  | warp => decide
  | direct => decide

/-- A rendered exit lets every connection out by an outbound it has, and as the policy says. -/
theorem exit_refines_policy (cfg : AcceptedConfig) (hplaced : Placed.exit region node ∈ cfg.placed)
    (h : renderExit crypto cfg.toConglomerateConfig store region node = .ok config)
    (c : Connection) :
    (∃ outbound ∈ config.outbounds, config.egress c = some outbound.tag) ∧
      ∀ tag, config.egress c = some tag ↔ ExitPolicy cfg.toConglomerateConfig region
        (decide (c.vlessRoute = some warpVlessRoute)) c tag := by
  refine ⟨?_, fun tag => egress_iff h rfl⟩
  obtain ⟨tag, hp⟩ := ExitPolicy.total cfg.toConglomerateConfig region
    (decide (c.vlessRoute = some warpVlessRoute)) c
  have htag := hp.special cfg.spec (mem_exitRegions.mpr (mem_placed_exit hplaced).1)
  have hfixed : tag ∈ config.outbounds.map (·.tag) := by
    rw [(renderExit_rules h).2]
    exact htag
  obtain ⟨outbound, houtbound, rfl⟩ := List.mem_map.mp hfixed
  exact ⟨outbound, houtbound, hp.egress h rfl⟩

theorem exit_refines_policy_blockingExit :
    ∃ config, renderExit Sample.crypto Sample.blockingExit.toConglomerateConfig Sample.store
        Sample.blockingRegion (Sample.exitNode { val := "fra-1" }) = .ok config ∧
      ∀ c : Connection, (∃ outbound ∈ config.outbounds, config.egress c = some outbound.tag) ∧
        ∀ tag, config.egress c = some tag ↔ ExitPolicy Sample.blockingExit.toConglomerateConfig
          Sample.blockingRegion (decide (c.vlessRoute = some warpVlessRoute)) c tag := by
  obtain ⟨config, h⟩ := blockingExit_renders
  have hplaced : Placed.exit Sample.blockingRegion (Sample.exitNode { val := "fra-1" }) ∈
      Sample.blockingExit.placed :=
    List.mem_flatMap.mpr ⟨.exit Sample.blockingRegion, by decide, List.mem_map.mpr
      ⟨Sample.exitNode { val := "fra-1" }, by decide, rfl⟩⟩
  exact ⟨config, h, exit_refines_policy Sample.blockingExit hplaced h⟩

end HexRift
