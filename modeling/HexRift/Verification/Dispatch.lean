import HexRift.Library.Passes
import HexRift.Verification.Rendered

/-! # Dispatching a connection

A hub reads its rules top to bottom and takes the first that matches. The rules of
`hub_routes` stand in four passes, so the first matching rule need not come from the first
matching entry. -/

namespace HexRift

open Checks Passes

variable {cfg : ConglomerateConfig} {published : List PublishedPort} {c : Connection}

/-! ## Connections -/

/-- What the rules look at in a connection: which matchers its destination and its source
match, and the label and third UUID segment of its client. -/
structure Connection where
  inboundTag : String
  source : String → Bool
  domain : String → Bool
  ip : String → Bool
  port : ℤ
  network : Transport
  user : String
  vlessRoute : Option ℕ

def networkMatches (network : String) (transport : Transport) : Bool :=
  network = "TCP,UDP" || network = transport.value

/-- A rule matches when each of its keys does. -/
def Rule.matches (rule : Rule) (c : Connection) : Bool :=
  rule.inboundTag.all (c.inboundTag ∈ ·) && rule.source.all (·.any c.source) &&
    rule.domain.all (·.any c.domain) && rule.ip.all (·.any c.ip) &&
    rule.port.all (· = c.port) && rule.network.all (networkMatches · c.network) &&
    rule.user.all (c.user ∈ ·) &&
    rule.vlessRoute.all fun text => c.vlessRoute.map toString = some text

/-- Key and tag of the first rule that matches. -/
def dispatch (rules : List Rule) (c : Connection) : Option (OutKey × String) :=
  (rules.find? (·.matches c)).map fun rule => (rule.outKey, rule.outTag)

/-! ## Entries of `hub_routes` -/

namespace HubRoute

variable (route : HubRoute) (ns : Namespace) (c : Connection)

def domainHit : Bool := (route.domains.getD []).any c.domain

def ipHit : Bool := (route.ips.getD []).any c.ip

/-- Whether the entry filters on users only. -/
def bare : Bool := !given route.domains && !given route.ips

def admits : Bool := (routeUserFilter route ns).all (c.user ∈ ·)

end HubRoute

/-- The passes in which the rules of `hub_routes` are laid out. -/
inductive Pass where
  | blockedDomain
  | steered
  | direct
  | blockedIp
  deriving DecidableEq

def passOrder : List Pass := [.blockedDomain, .steered, .direct, .blockedIp]

/-- Whether the pass takes up the entry and the connection matches what it takes of it. -/
def Pass.hit (ns : Namespace) (c : Connection) (pass : Pass) (route : HubRoute) : Bool :=
  route.admits ns c &&
    match pass with
    | .blockedDomain =>
        route.destination = SpecialDestination.blocked.value && (route.domainHit c || route.bare)
    | .steered =>
        route.destination ≠ SpecialDestination.blocked.value &&
          route.destination ≠ SpecialDestination.direct.value &&
          (route.domainHit c || route.ipHit c || route.bare)
    | .direct =>
        route.destination = SpecialDestination.direct.value &&
          (route.domainHit c || route.ipHit c || route.bare)
    | .blockedIp => route.destination = SpecialDestination.blocked.value && route.ipHit c

/-- The connection matches the entry's domains or ips, or it has neither, and the user filter
admits its label. -/
def HubRoute.matches (ns : Namespace) (c : Connection) (route : HubRoute) : Bool :=
  (route.domainHit c || route.ipHit c || route.bare) && route.admits ns c

/-- Where the first matching entry leads, else `hub_default`. -/
def declaredTarget (cfg : ConglomerateConfig) (c : Connection) : OutKey × String :=
  targetOf cfg (((cfg.routing.hubRoutes.find? (HubRoute.matches cfg.ns c)).map
    (·.destination)).getD cfg.routing.hubDefault)

/-- Neither the rules ahead of `hub_routes` nor those of the portals decide the connection. -/
structure Undecided (cfg : ConglomerateConfig) (published : List PublishedPort)
    (c : Connection) : Prop where
  selectors : ∀ rule ∈ selectorRules cfg published, rule.matches c = false
  portals : (∀ p ∈ cfg.portals, ∀ rule ∈ portalRules cfg.ns p, rule.matches c = false) ∨
    ∃ route ∈ cfg.routing.hubRoutes, ∃ rule ∈ blockedDomainRules cfg.ns route,
      rule.matches c = true

/-- Unless the first matching entry is hit in the earliest pass that hits one, the entry that
overtakes it there leads where it does. -/
def OrderKept (cfg : ConglomerateConfig) (c : Connection) : Prop :=
  ∀ route ∈ cfg.routing.hubRoutes.find? (HubRoute.matches cfg.ns c),
    ∀ pass ∈ earliest passOrder (Pass.hit cfg.ns c) cfg.routing.hubRoutes,
      pass.hit cfg.ns c route = false →
        ∀ other ∈ cfg.routing.hubRoutes.find? (pass.hit cfg.ns c),
          targetOf cfg other.destination = targetOf cfg route.destination

/-- An entry matches when some pass hits it. -/
theorem any_hit (ns : Namespace) (route : HubRoute) :
    (passOrder.any fun pass => pass.hit ns c route) = route.matches ns c := by
  simp only [passOrder, List.any_cons, List.any_nil, Pass.hit, HubRoute.matches]
  by_cases hblocked : route.destination = SpecialDestination.blocked.value
  · have hdirect : SpecialDestination.blocked.value ≠ SpecialDestination.direct.value := by decide
    simp only [hblocked, hdirect]
    grind
  · by_cases hdirect : route.destination = SpecialDestination.direct.value
    · have hne : SpecialDestination.direct.value ≠ SpecialDestination.blocked.value := by decide
      simp only [hdirect, hne]
      grind
    · simp only [hblocked, hdirect]
      grind

/-! ## Rules of one entry -/

theorem given_eq_false {entries : Option (List String)} (h : given entries = false)
    (p : String → Bool) : (entries.getD []).any p = false := by
  simp only [given, decide_eq_false_iff_not, not_not] at h
  rw [h]
  rfl

theorem given_eq_true {entries : Option (List String)} (h : given entries = true)
    (p : String → Bool) : entries.all (·.any p) = (entries.getD []).any p := by
  cases entries with
  | none => simp [given] at h
  | some es => rfl

theorem isSome_filter_of_bare {route : HubRoute} {ns : Namespace} (h : route.bare = true) :
    (routeUserFilter route ns).isSome = true := by
  have hmatchers := route.matchers
  simp only [HubRoute.bare, given, Bool.and_eq_true, Bool.not_eq_eq_eq_not, Bool.not_true,
    decide_eq_false_iff_not, not_not] at h
  simp only [routeUserFilter]
  split
  · rename_i hnil
    simp only [List.append_eq_nil_iff, List.map_eq_nil_iff] at hnil
    simp [h, hnil] at hmatchers
  · rfl

theorem dispatch_append (rs ss : List Rule) (c : Connection) :
    dispatch (rs ++ ss) c = (dispatch rs c).or (dispatch ss c) := by
  rw [dispatch, List.find?_append, Option.map_or]
  rfl

theorem dispatch_ite_singleton (p : Bool) (rule : Rule) (c : Connection) :
    dispatch (if p then [rule] else []) c =
      if p && rule.matches c then some (rule.outKey, rule.outTag) else none := by
  cases p with
  | false => rfl
  | true =>
      rw [if_pos rfl, dispatch, List.find?_singleton, Bool.true_and]
      cases rule.matches c <;> rfl

theorem domain_rule_matches {route : HubRoute} {uf : Option (List String)} {outKey : OutKey}
    {outTag : String} :
    (given route.domains &&
      Rule.matches { domain := route.domains, user := uf, outKey := outKey, outTag := outTag } c) =
      (route.domainHit c && uf.all (c.user ∈ ·)) := by
  cases hgiven : given route.domains with
  | false => simp [HubRoute.domainHit, given_eq_false hgiven]
  | true =>
      simp only [Rule.matches, given_eq_true hgiven, HubRoute.domainHit, Option.all_none,
        Bool.true_and, Bool.and_true]

theorem ip_rule_matches {route : HubRoute} {uf : Option (List String)} {outKey : OutKey}
    {outTag : String} :
    (given route.ips &&
      Rule.matches { ip := route.ips, user := uf, outKey := outKey, outTag := outTag } c) =
      (route.ipHit c && uf.all (c.user ∈ ·)) := by
  cases hgiven : given route.ips with
  | false => simp [HubRoute.ipHit, given_eq_false hgiven]
  | true =>
      simp only [Rule.matches, given_eq_true hgiven, HubRoute.ipHit, Option.all_none,
        Bool.true_and, Bool.and_true]

/-- The rules appended for an entry match as the entry does. -/
theorem dispatch_appendRouteRules {route : HubRoute} {ns : Namespace} {outKey : OutKey}
    {outTag : String} {includeIps : Bool} :
    dispatch (appendRouteRules route (routeUserFilter route ns) outKey outTag includeIps) c =
      if route.admits ns c && (route.domainHit c || (includeIps && route.ipHit c) || route.bare)
      then some (outKey, outTag) else none := by
  have hbare : ∀ b, (!given route.domains && (!given route.ips &&
      ((routeUserFilter route ns).isSome && b))) = (route.bare && b) := by
    intro b
    rw [← Bool.and_assoc, ← HubRoute.bare]
    cases h : route.bare with
    | false => rfl
    | true => rw [isSome_filter_of_bare h, Bool.true_and]
  have huser : Rule.matches { user := routeUserFilter route ns, outKey := outKey
                              outTag := outTag } c = route.admits ns c := by
    simp only [Rule.matches, HubRoute.admits, Option.all_none, Bool.true_and, Bool.and_true]
  simp only [appendRouteRules, dispatch_append, dispatch_ite_singleton, domain_rule_matches,
    Bool.and_assoc, ip_rule_matches, huser, hbare]
  rw [← HubRoute.admits]
  cases route.admits ns c <;> cases route.domainHit c <;> cases route.ipHit c <;>
    cases includeIps <;> cases route.bare <;> rfl

/-! ## Rules of each pass -/

/-- What a pass lays out for an entry. -/
def Pass.rules (cfg : ConglomerateConfig) (pass : Pass) (route : HubRoute) : List Rule :=
  match pass with
  | .blockedDomain => blockedDomainRules cfg.ns route
  | .steered => steeredRulesOf cfg route
  | .direct => directRules cfg.ns route
  | .blockedIp => blockedIpRules cfg.ns route

theorem Pass.dispatch_rules (pass : Pass) (route : HubRoute) :
    dispatch (pass.rules cfg route) c =
      if pass.hit cfg.ns c route then some (targetOf cfg route.destination) else none := by
  have hspecial : route.destination ∈ specialDestinations →
      targetOf cfg route.destination = (.outboundTag, route.destination) := targetOf_special
  cases pass with
  | blockedDomain =>
      simp only [Pass.rules, Pass.hit, blockedDomainRules]
      by_cases hdest : route.destination = SpecialDestination.blocked.value
      · rw [if_neg (not_not.mpr hdest), dispatch_appendRouteRules,
          hspecial (hdest ▸ by decide)]
        simp [hdest]
      · simp [hdest, dispatch]
  | steered =>
      simp only [Pass.rules, Pass.hit, steeredRulesOf]
      by_cases hdest : route.destination = SpecialDestination.blocked.value ∨
          route.destination = SpecialDestination.direct.value
      · rcases hdest with hdest | hdest <;> simp [hdest, dispatch]
      · rw [if_neg hdest, dispatch_appendRouteRules]
        rw [not_or] at hdest
        simp [hdest]
  | direct =>
      simp only [Pass.rules, Pass.hit, directRules]
      by_cases hdest : route.destination = SpecialDestination.direct.value
      · rw [if_neg (not_not.mpr hdest), dispatch_appendRouteRules,
          hspecial (hdest ▸ by decide)]
        simp [hdest]
      · simp [hdest, dispatch]
  | blockedIp =>
      simp only [Pass.rules, Pass.hit, blockedIpRules]
      by_cases hdest : route.destination = SpecialDestination.blocked.value
      · rw [hspecial (hdest ▸ by decide)]
        have hdispatch := dispatch_ite_singleton (given route.ips)
          { ip := route.ips, user := routeUserFilter route cfg.ns
            outTag := SpecialDestination.blocked.value } c
        rw [ip_rule_matches, ← HubRoute.admits] at hdispatch
        cases hgiven : given route.ips <;> simp_all [Bool.and_comm]
      · simp [hdest, dispatch]

theorem dispatch_pass (cfg : ConglomerateConfig) (c : Connection) (pass : Pass)
    (routes : List HubRoute) :
    dispatch (routes.flatMap (pass.rules cfg)) c =
      (routes.find? (pass.hit cfg.ns c)).map fun route => targetOf cfg route.destination :=
  find?_flatMap_map fun route _ => pass.dispatch_rules route

/-! ## The whole list -/

theorem dispatch_eq_none {rules : List Rule} (h : ∀ rule ∈ rules, rule.matches c = false) :
    dispatch rules c = none := by
  rw [dispatch, Option.map_eq_none_iff, List.find?_eq_none]
  intro rule hrule
  simp [h rule hrule]

theorem dispatch_default : dispatch [defaultRuleOf cfg] c =
    some (targetOf cfg cfg.routing.hubDefault) := by
  simp [dispatch, defaultRuleOf, Rule.matches, networkMatches]

theorem byPasses_passOrder (ns : Namespace) (c : Connection) (routes : List HubRoute) :
    byPasses passOrder (Pass.hit ns c) routes =
      (routes.find? (Pass.blockedDomain.hit ns c)).or
        ((routes.find? (Pass.steered.hit ns c)).or
          ((routes.find? (Pass.direct.hit ns c)).or (routes.find? (Pass.blockedIp.hit ns c)))) := by
  simp only [byPasses, passOrder, List.findSome?_cons, List.findSome?_nil]
  cases routes.find? (Pass.blockedDomain.hit ns c) <;>
    cases routes.find? (Pass.steered.hit ns c) <;>
      cases routes.find? (Pass.direct.hit ns c) <;>
        cases routes.find? (Pass.blockedIp.hit ns c) <;> rfl

theorem Undecided.blocked_or_portals (h : Undecided cfg published c) :
    (dispatch (cfg.routing.hubRoutes.flatMap (blockedDomainRules cfg.ns)) c).or
        (dispatch (cfg.portals.flatMap (portalRules cfg.ns)) c) =
      dispatch (cfg.routing.hubRoutes.flatMap (blockedDomainRules cfg.ns)) c := by
  rcases h.portals with hportals | ⟨route, hroute, rule, hrule, hmatches⟩
  · have hnone : dispatch (cfg.portals.flatMap (portalRules cfg.ns)) c = none := by
      refine dispatch_eq_none fun rule hrule => ?_
      obtain ⟨p, hp, hmem⟩ := List.mem_flatMap.mp hrule
      exact hportals p hp rule hmem
    rw [hnone, Option.or_none]
  · have hsome : (dispatch (cfg.routing.hubRoutes.flatMap (blockedDomainRules cfg.ns)) c).isSome :=
      by
        rw [dispatch, Option.isSome_map, List.find?_isSome]
        exact ⟨rule, List.mem_flatMap.mpr ⟨route, hroute, hrule⟩, hmatches⟩
    exact Option.or_of_isSome hsome

/-- An undecided connection is dispatched pass by pass. -/
theorem dispatch_hubRules (h : Undecided cfg published c) :
    dispatch (hubRules cfg published) c =
      some (((byPasses passOrder (Pass.hit cfg.ns c) cfg.routing.hubRoutes).map
        fun route => targetOf cfg route.destination).getD
          (targetOf cfg cfg.routing.hubDefault)) := by
  have hblocked : dispatch (cfg.routing.hubRoutes.flatMap (blockedDomainRules cfg.ns)) c = _ :=
    dispatch_pass cfg c .blockedDomain cfg.routing.hubRoutes
  have hsteered : dispatch (cfg.routing.hubRoutes.flatMap (steeredRulesOf cfg)) c = _ :=
    dispatch_pass cfg c .steered cfg.routing.hubRoutes
  have hdirect : dispatch (cfg.routing.hubRoutes.flatMap (directRules cfg.ns)) c = _ :=
    dispatch_pass cfg c .direct cfg.routing.hubRoutes
  have hblockedIp : dispatch (cfg.routing.hubRoutes.flatMap (blockedIpRules cfg.ns)) c = _ :=
    dispatch_pass cfg c .blockedIp cfg.routing.hubRoutes
  simp only [hubRules, dispatch_append, dispatch_eq_none h.selectors, Option.none_or,
    h.blocked_or_portals]
  rw [hblocked, hsteered, hdirect, hblockedIp, dispatch_default, byPasses_passOrder]
  simp only [Option.map_or, Option.or_assoc, Option.or_some]

/-! ## First match wins -/

/-- The rules lead the connection where the first matching entry does. -/
def FirstMatchWins (cfg : ConglomerateConfig) (rules : List Rule) (c : Connection) : Prop :=
  dispatch rules c = some (declaredTarget cfg c)

theorem inOrder_passOrder (ns : Namespace) (c : Connection) (routes : List HubRoute) :
    inOrder passOrder (Pass.hit ns c) routes = routes.find? (HubRoute.matches ns c) := by
  rw [inOrder]
  exact congrArg (routes.find? ·) (funext fun route => any_hit ns route)

theorem declaredTarget_eq (cfg : ConglomerateConfig) (c : Connection) :
    declaredTarget cfg c =
      ((inOrder passOrder (Pass.hit cfg.ns c) cfg.routing.hubRoutes).map
        fun route => targetOf cfg route.destination).getD
          (targetOf cfg cfg.routing.hubDefault) := by
  rw [declaredTarget, inOrder_passOrder]
  cases cfg.routing.hubRoutes.find? (HubRoute.matches cfg.ns c) <;> rfl

/-- The first matching entry decides an undecided connection exactly when no entry overtakes
it in an earlier pass and leads elsewhere. -/
theorem first_match_wins_iff (cfg : AcceptedConfig) {published : List PublishedPort}
    {rules : List Rule} {c : Connection}
    (hrules : buildHubRoutingRules cfg.toConglomerateConfig published = .ok rules)
    (hc : Undecided cfg.toConglomerateConfig published c) :
    FirstMatchWins cfg.toConglomerateConfig rules c ↔ OrderKept cfg.toConglomerateConfig c := by
  rw [buildHubRoutingRules_eq cfg.spec] at hrules
  cases hrules
  rw [FirstMatchWins, dispatch_hubRules hc, declaredTarget_eq, Option.some.injEq,
    byPasses_getD_eq_iff, inOrder_passOrder, OrderKept]

/-- A host kept direct, ahead of a route steering its whole domain to a region. -/
def directBeforeRegion : AcceptedConfig :=
  { Sample.topology
      [Sample.exitRegion Sample.nl Sample.lowRoute [Sample.exitNode Sample.nl1]]
      [Sample.user Sample.aliceName]
      [{ destination := "direct", domains := some ["full:intranet.example.com"] },
        { destination := "nl", domains := some ["domain:example.com"] }] with }

/-- A connection to the host. -/
def intranetConnection : Connection :=
  { inboundTag := "direct-in"
    source := fun _ => false
    domain := fun entry => entry = "full:intranet.example.com" || entry = "domain:example.com"
    ip := fun _ => false
    port := 443
    network := .tcp
    user := "alice@example.net"
    vlessRoute := none }

theorem intranetConnection_undecided :
    Undecided directBeforeRegion.toConglomerateConfig
      (resolveNodePublishes directBeforeRegion.toConglomerateConfig Sample.hubNode)
      intranetConnection :=
  { selectors := by decide, portals := .inl (by decide) }

theorem first_match_wins_iff_intranet :
    ∃ rules, buildHubRoutingRules directBeforeRegion.toConglomerateConfig
        (resolveNodePublishes directBeforeRegion.toConglomerateConfig Sample.hubNode) =
          .ok rules ∧
      (FirstMatchWins directBeforeRegion.toConglomerateConfig rules intranetConnection ↔
        OrderKept directBeforeRegion.toConglomerateConfig intranetConnection) :=
  ⟨_, buildHubRoutingRules_eq directBeforeRegion.spec _,
    first_match_wins_iff directBeforeRegion (buildHubRoutingRules_eq directBeforeRegion.spec _)
      intranetConnection_undecided⟩

/-- The later route to the region overtakes the direct one. -/
theorem later_region_route_wins :
    ¬ ∀ rules, buildHubRoutingRules directBeforeRegion.toConglomerateConfig
        (resolveNodePublishes directBeforeRegion.toConglomerateConfig Sample.hubNode) =
          .ok rules →
      Undecided directBeforeRegion.toConglomerateConfig
        (resolveNodePublishes directBeforeRegion.toConglomerateConfig Sample.hubNode)
        intranetConnection →
      FirstMatchWins directBeforeRegion.toConglomerateConfig rules intranetConnection := by
  intro h
  have hwins := h _ (buildHubRoutingRules_eq directBeforeRegion.spec _)
    intranetConnection_undecided
  revert hwins
  unfold FirstMatchWins
  decide

end HexRift
