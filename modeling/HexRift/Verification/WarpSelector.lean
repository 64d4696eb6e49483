import HexRift.Verification.LinkEnds
import HexRift.Verification.Segments

/-! # The warp selector of an exit

An exit sends what is dialled with the warp segment out of its warp interface. The rules of the
exit routes stand ahead of the selector, so the first of them that matches decides instead. -/

namespace HexRift

open Checks

variable {crypto : Crypto} {cfg : ConglomerateConfig} {store : KeyStore} {region : ExitRegion}
  {node : ExitNode} {config : XrayConfig} {c : Connection}

/-- The exit routes a node of the region lays out, those of the region first. -/
def exitRoutes (cfg : ConglomerateConfig) (region : ExitRegion) : List ExitRoute :=
  (region.routing.bind (·.routes)).getD [] ++ cfg.routing.exitRoutesGlobal

/-- The destination matches one of the route's domains or ips. -/
def ExitRoute.matches (c : Connection) (route : ExitRoute) : Bool :=
  (route.domains.getD []).any c.domain || (route.ips.getD []).any c.ip

/-- The destination is the node's own resolver. -/
def LocalDns (cfg : ConglomerateConfig) (c : Connection) : Prop :=
  (c.ip "127.0.0.1" = true ∨ c.ip "::1" = true ∨ c.ip cfg.global.dns.address = true) ∧
    c.port = cfg.global.dns.port

/-- No exit route takes the connection, or the first that does leads to warp itself. -/
def RoutedToWarp (cfg : ConglomerateConfig) (region : ExitRegion) (c : Connection) : Prop :=
  ∀ route ∈ (exitRoutes cfg region).find? (ExitRoute.matches c),
    route.destination = SpecialDestination.warp.value

instance : Decidable (RoutedToWarp cfg region c) :=
  inferInstanceAs (Decidable (∀ route ∈ (exitRoutes cfg region).find? (ExitRoute.matches c), _))

/-! ## Rules ahead of the selector -/

theorem dispatch_cons (rule : Rule) (rules : List Rule) :
    dispatch (rule :: rules) c =
      if rule.matches c then some (rule.outKey, rule.outTag) else dispatch rules c := by
  rw [dispatch, List.find?_cons]
  cases rule.matches c <;> rfl

theorem dnsRule_matches :
    (makeDnsDirectRule cfg.global.dns.address cfg.global.dns.port).matches c = true ↔
      LocalDns cfg c := by
  have hips : ∀ address : String,
      (if address ∉ ["127.0.0.1", "::1"] then ["127.0.0.1", "::1"] ++ [address]
        else ["127.0.0.1", "::1"]).any c.ip = true ↔
      c.ip "127.0.0.1" = true ∨ c.ip "::1" = true ∨ c.ip address = true := by
    intro address
    by_cases hmem : address ∈ ["127.0.0.1", "::1"]
    · rw [if_neg (not_not.mpr hmem)]
      simp only [List.mem_cons, List.not_mem_nil, or_false] at hmem
      rcases hmem with rfl | rfl <;> simp [or_comm]
    · rw [if_pos hmem]
      simp
  simp only [Rule.matches, makeDnsDirectRule, Option.all_none, Option.all_some, Bool.true_and,
    Bool.and_true, Bool.and_eq_true, decide_eq_true_eq, hips, LocalDns]
  exact and_congr_right fun _ => eq_comm

/-- The rules of an exit route match as the route does. -/
theorem dispatch_exitRouteRules (route : ExitRoute) :
    dispatch (exitRouteRules route) c =
      if route.matches c then some (.outboundTag, route.destination) else none := by
  have hdomain : (given route.domains &&
      Rule.matches { domain := route.domains, outTag := route.destination } c) =
        (route.domains.getD []).any c.domain := by
    cases hgiven : given route.domains with
    | false => rw [given_eq_false hgiven, Bool.false_and]
    | true =>
        simp only [Rule.matches, given_eq_true hgiven, Option.all_none, Bool.true_and,
          Bool.and_true]
  have hip : (given route.ips &&
      Rule.matches { ip := route.ips, outTag := route.destination } c) =
        (route.ips.getD []).any c.ip := by
    cases hgiven : given route.ips with
    | false => rw [given_eq_false hgiven, Bool.false_and]
    | true =>
        simp only [Rule.matches, given_eq_true hgiven, Option.all_none, Bool.true_and,
          Bool.and_true]
  simp only [exitRouteRules, dispatch_append, dispatch_ite_singleton, hdomain, hip,
    ExitRoute.matches]
  by_cases hd : (route.domains.getD []).any c.domain = true
  · simp [hd]
  · simp [hd]

/-- Among the rules of exit routes, those of the first matching route decide. -/
theorem dispatch_exitRoutes (routes : List ExitRoute) :
    dispatch (routes.flatMap exitRouteRules) c =
      (routes.find? (ExitRoute.matches c)).map fun r => (.outboundTag, r.destination) := by
  induction routes with
  | nil => rfl
  | cons route rest ih =>
      rw [List.flatMap_cons, dispatch_append, dispatch_exitRouteRules, ih]
      cases hmatch : route.matches c with
      | false => simp [hmatch]
      | true => simp [hmatch]

/-! ## The selector -/

theorem warpRule_matches : warpRule.matches c = true ↔ c.vlessRoute = some warpVlessRoute := by
  simp only [Rule.matches, warpRule, Option.all_none, Option.all_some, Bool.true_and,
    decide_eq_true_eq, Option.map_eq_some_iff]
  constructor
  · rintro ⟨route, hroute, htext⟩
    rw [hroute, Separator.toString_injective htext]
  · exact fun h => ⟨_, h, rfl⟩


/-- The segment of a derived UUID starts with its version nibble. -/
theorem segment_run_ne (uuid5 : Uuid5) (base : UUID) (name : String) :
    (uuid5.run base name).segment ≠ warpVlessRoute := by
  intro heq
  have hversion := uuid5.version base name
  rw [UUID.segment] at heq
  rw [heq] at hversion
  cases hversion

theorem rules_of_renderExit (h : renderExit crypto cfg store region node = .ok config) :
    ∃ rest, config.rules =
      makeDnsDirectRule cfg.global.dns.address cfg.global.dns.port ::
        ((exitRoutes cfg region).flatMap exitRouteRules ++ warpRule :: rest) := by
  obtain ⟨keys, ctx, -, hctx, rfl⟩ := renderExit_loaded h
  simp only [buildExitContext, bind_eq_ok, pure_eq_ok] at hctx
  obtain ⟨slots, -, rfl⟩ := hctx
  simp only [buildExitConfig, makeShared, List.append_assoc, List.singleton_append]
  exact ⟨_, rfl⟩

theorem dispatch_renderExit (h : renderExit crypto cfg store region node = .ok config)
    (hroute : c.vlessRoute = some warpVlessRoute) (hdns : ¬ LocalDns cfg c) :
    dispatch config.rules c =
      (((exitRoutes cfg region).find? (ExitRoute.matches c)).map fun r =>
        (OutKey.outboundTag, r.destination)).or
          (some (.outboundTag, SpecialDestination.warp.value)) := by
  obtain ⟨rest, hrules⟩ := rules_of_renderExit h
  have hfirst : ¬ (makeDnsDirectRule cfg.global.dns.address cfg.global.dns.port).matches c := by
    rwa [dnsRule_matches]
  have hselector : dispatch (warpRule :: rest) c =
      some (.outboundTag, SpecialDestination.warp.value) := by
    rw [dispatch_cons, if_pos (warpRule_matches.mpr hroute)]
    rfl
  rw [hrules, dispatch_cons, if_neg hfirst, dispatch_append, dispatch_exitRoutes, hselector]

/-- What is dialled with the warp segment leaves by warp exactly when no exit route takes it
elsewhere first. An unmodified hub-exit identity does not match the selector. -/
theorem warp_selector_wins_iff (cfg : AcceptedConfig)
    (h : renderExit crypto cfg.toConglomerateConfig store region node = .ok config) :
    (∀ c : Connection, c.vlessRoute = some warpVlessRoute →
      ¬ LocalDns cfg.toConglomerateConfig c →
        (dispatch config.rules c = some (.outboundTag, SpecialDestination.warp.value) ↔
          RoutedToWarp cfg.toConglomerateConfig region c)) ∧
    warpRule ∈ config.rules ∧
    ∀ (hubId exitId : String) (c : Connection),
      c.vlessRoute = some (cfg.ns.hubExitUuid crypto.uuid5 hubId exitId).segment →
        warpRule.matches c = false := by
  refine ⟨?_, ?_, ?_⟩
  · intro c hroute hdns
    rw [dispatch_renderExit h hroute hdns, RoutedToWarp]
    cases (exitRoutes cfg.toConglomerateConfig region).find? (ExitRoute.matches c) with
    | none => simp
    | some route => simp
  · obtain ⟨rest, hrules⟩ := rules_of_renderExit h
    simp [hrules]
  · intro hubId exitId c hroute
    rw [Bool.eq_false_iff, ne_eq, warpRule_matches, hroute]
    intro heq
    exact segment_run_ne _ _ _ (Option.some.inj heq)

/-! ## An exit that blocks a domain -/

namespace Sample

def blockingRegion : ExitRegion :=
  { exitRegion fra lowRoute [exitNode fra1] with
    warp := some { vlessRoute := { val := 3000 } }
    routing := some { routes := some [
      { destination := "blocked", domains := some ["domain:ads.example"] }] } }

def blockingExit : AcceptedConfig :=
  { toConglomerateConfig := topology [blockingRegion] [] }

/-- A connection a hub dials over its warp link. -/
def warpDialled (domain : String) : Connection :=
  { inboundTag := "direct-xhttp"
    source := fun _ => false
    domain := (· = domain)
    ip := fun _ => false
    port := 443
    network := .tcp
    user := "h1-fra-1@example.net"
    vlessRoute := some (warpUuid UUID.nil).segment }

end Sample

theorem blockingExit_renders :
    ∃ config, renderExit Sample.crypto Sample.blockingExit.toConglomerateConfig Sample.store
      Sample.blockingRegion (Sample.exitNode { val := "fra-1" }) = .ok config :=
  isOk_iff.mp (by decide)

theorem warp_selector_wins_iff_blockingExit :
    ∃ config, renderExit Sample.crypto Sample.blockingExit.toConglomerateConfig Sample.store
        Sample.blockingRegion (Sample.exitNode { val := "fra-1" }) = .ok config ∧
      dispatch config.rules (Sample.warpDialled "domain:news.example") =
        some (.outboundTag, SpecialDestination.warp.value) := by
  obtain ⟨config, h⟩ := blockingExit_renders
  have hwins := (warp_selector_wins_iff Sample.blockingExit h).1
    (Sample.warpDialled "domain:news.example")
  exact ⟨config, h, (hwins rfl (by simp [LocalDns, Sample.warpDialled])).mpr (by decide)⟩

/-- A blocked domain is not sent out of warp. -/
theorem exit_route_precedes_selector :
    ∃ config, renderExit Sample.crypto Sample.blockingExit.toConglomerateConfig Sample.store
        Sample.blockingRegion (Sample.exitNode { val := "fra-1" }) = .ok config ∧
      ∃ c : Connection, c.vlessRoute = some (warpUuid UUID.nil).segment ∧
        ¬ LocalDns Sample.blockingExit.toConglomerateConfig c ∧
        dispatch config.rules c = some (.outboundTag, SpecialDestination.blocked.value) := by
  obtain ⟨config, h⟩ := blockingExit_renders
  have hdns : ¬ LocalDns Sample.blockingExit.toConglomerateConfig
      (Sample.warpDialled "domain:ads.example") := by
    simp [LocalDns, Sample.warpDialled]
  refine ⟨config, h, Sample.warpDialled "domain:ads.example", rfl, hdns, ?_⟩
  rw [dispatch_renderExit h rfl hdns]
  decide

end HexRift
