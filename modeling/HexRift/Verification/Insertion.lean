import HexRift.Verification.Layouts

/-! # A node more

What the editor reads of a document with one node more than another. -/

namespace HexRift

open Checks

/-! ## What is read of a document -/

/-- How a topology file is read. -/
structure TopologySeen (yaml : Yaml) (lines : List String) (root : YamlNode) (t : Topology) :
    Prop where
  text : t.lines = lines
  line : keyLine (some root) "regions" = some t.regionsLine
  regions : ∃ value items out, entry (some root) "regions" = .ok (some value) ∧
    blockItems (some value) = some items ∧ spans lines value items = .ok out ∧
    mapEach out (regionItem yaml lines) = .ok t.regions ∧
    t.emptyFlowRegions = emptyFlow (some value)
  domain : ∃ holder, entry (some root) "global" = .ok holder ∧
    scalarText holder "aphelion_domain" = .ok t.aphelionDomain
  hubRoutes : hubRouteItems lines root = .ok t.hubRoutes

theorem ofText_eq_ok_iff {yaml : Yaml} {text : String} {t : Topology} :
    Topology.ofText yaml text = .ok t ↔
      ∃ root, composeRoot yaml (closeText text) = .ok root ∧
        TopologySeen yaml (Python.splitlines (closeText text)) root t ∧
        t.eol = eolOf (closeText text) := by
  simp only [Topology.ofText, bind_eq_ok]
  constructor
  · rintro ⟨root, hroot, value, hvalue, h⟩
    split at h
    · rename_i value line hline
      split at h
      · cases h
      · rename_i items hitems
        simp only [bind_eq_ok, pure_eq_ok] at h
        obtain ⟨out, hspans, regions, hregions, holder, hholder, domain, hdomain, hub, hhub,
          rfl⟩ := h
        exact ⟨root, hroot, ⟨rfl, hline, ⟨value, items, out, hvalue, hitems, hspans, hregions, rfl⟩,
          ⟨holder, hholder, hdomain⟩, hhub⟩, rfl⟩
    · cases h
  · rintro ⟨root, hroot, h, heol⟩
    obtain ⟨value, items, out, hvalue, hitems, hspans, hregions, hflow⟩ := h.regions
    obtain ⟨holder, hholder, hdomain⟩ := h.domain
    refine ⟨root, hroot, some value, hvalue, ?_⟩
    have hline := h.line
    have hlines := h.text
    have hhub := h.hubRoutes
    cases t
    simp only at hline hlines hhub heol hflow hdomain hregions
    subst hlines heol hflow
    rw [hline]
    simp only [hitems, bind_eq_ok, pure_eq_ok]
    exact ⟨out, hspans, _, hregions, holder, hholder, _, hdomain, _, hhub, rfl⟩

theorem composeRoot_mapping {yaml : Yaml} {text tag : String}
    {entries : List (YamlNode × YamlNode)} {flow : Bool} {start stop : Mark}
    (h : yaml.compose text = .ok (some (.mapping tag entries flow start stop), false)) :
    composeRoot yaml text = .ok (.mapping tag entries flow start stop) := by
  simp [composeRoot, h]

/-! ## Routes of the hubs -/

theorem mapEach_routeItem_of_content {out out' : List (YamlNode × ℕ × ℕ)}
    (h : out.map (·.1.content) = out'.map (·.1.content)) {routes : List RouteItem}
    (hroutes : mapEach out routeItem = .ok routes) :
    ∃ routes', mapEach out' routeItem = .ok routes' ∧
      routes'.map (·.destination) = routes.map (·.destination) := by
  induction out generalizing out' routes with
  | nil =>
      rw [List.map_nil, eq_comm, List.map_eq_nil_iff] at h
      subst h
      exact ⟨routes, hroutes, rfl⟩
  | cons item out ih =>
      cases out' with
      | nil => cases h
      | cons item' out' =>
          rw [List.map_cons, List.map_cons, List.cons.injEq] at h
          simp only [mapEach, routeItem, bind_eq_ok, pure_eq_ok] at hroutes ⊢
          obtain ⟨_, ⟨destination, hdestination, rfl⟩, xs, hxs, rfl⟩ := hroutes
          obtain ⟨xs', hxs', hseen⟩ := ih h.2 hxs
          refine ⟨_, ⟨_, ⟨destination, scalarText_of_content (.of_eq h.1) hdestination, rfl⟩, xs',
            hxs', rfl⟩, ?_⟩
          rw [List.map_cons, List.map_cons, hseen]

/-- The routes read of the value of `hub_routes`. -/
def valueRoutes (lines : List String) (value : Option YamlNode) : Except Error (List RouteItem) :=
  match blockItems value, value with
  | some items, some v => do mapEach (← spans lines v items) routeItem
  | _, _ => .ok []

/-- What stands against an edit of the routes. -/
def routesError (value : Option YamlNode) : Option String :=
  if (blockItems value).isNone then
    some "'routing.hub_routes' must be a bare key or a block sequence to edit"
  else none

theorem hubRouteItems_eq_ok {lines : List String} {root : YamlNode} {hub : HubRouteItems} :
    hubRouteItems lines root = .ok hub ↔
      ∃ routing value, entry (some root) "routing" = .ok routing ∧
        entry routing "hub_routes" = .ok value ∧ valueRoutes lines value = .ok hub.items ∧
        hub.line = keyLine routing "hub_routes" ∧ hub.error = routesError value := by
  obtain ⟨line, items, error⟩ := hub
  simp only [hubRouteItems, bind_eq_ok, valueRoutes, routesError]
  refine exists_congr fun routing => ?_
  rw [← exists_and_left]
  refine exists_congr fun value => and_congr_right fun _ => and_congr_right fun _ => ?_
  cases blockItems value with
  | none =>
      simp only [pure_eq_ok, HubRouteItems.mk.injEq, Option.isNone_none, if_true, Except.ok.injEq]
      constructor
      · rintro ⟨rfl, rfl, rfl⟩
        exact ⟨rfl, rfl, rfl⟩
      · rintro ⟨rfl, rfl, rfl⟩
        exact ⟨rfl, rfl, rfl⟩
  | some entries =>
      cases value with
      | none =>
          cases entries
          all_goals
            simp only [pure_eq_ok, HubRouteItems.mk.injEq, Option.isNone_some, Bool.false_eq_true,
              if_false, Except.ok.injEq]
            constructor
            · rintro ⟨rfl, rfl, rfl⟩
              exact ⟨rfl, rfl, rfl⟩
            · rintro ⟨rfl, rfl, rfl⟩
              exact ⟨rfl, rfl, rfl⟩
      | some v =>
          cases entries with
          | nil =>
              have hnil : spans lines v [] = .ok [] := rfl
              simp only [hnil, pure_eq_ok, HubRouteItems.mk.injEq, Option.isNone_some,
                Bool.false_eq_true, if_false, bind_eq_ok, Except.ok.injEq]
              constructor
              · rintro ⟨rfl, rfl, rfl⟩
                exact ⟨⟨[], rfl, rfl⟩, rfl, rfl⟩
              · rintro ⟨⟨_, rfl, hitems⟩, rfl, rfl⟩
                cases hitems
                exact ⟨rfl, rfl, rfl⟩
          | cons item entries =>
              simp only [bind_eq_ok, pure_eq_ok, HubRouteItems.mk.injEq, Option.isNone_some,
                Bool.false_eq_true, if_false]
              constructor
              · rintro ⟨out, hout, routes, hroutes, rfl, rfl, rfl⟩
                exact ⟨⟨out, hout, hroutes⟩, rfl, rfl⟩
              · rintro ⟨⟨out, hout, hroutes⟩, rfl, rfl⟩
                exact ⟨out, hout, items, hroutes, rfl, rfl, rfl⟩

theorem SameContent.blockItems {value value' : Option YamlNode} (h : SameContent value value') :
    (HexRift.blockItems value).map contents = (HexRift.blockItems value').map contents := by
  have hmap : ∀ o : Option YamlNode,
      HexRift.blockItems (o.map (·.content)) = (HexRift.blockItems o).map contents := by
    intro o
    cases o with
    | none => rfl
    | some v => exact blockItems_content v
  rw [← hmap value, ← hmap value', h]

theorem valueRoutes_of_content {lines lines' : List String} {value value' : Option YamlNode}
    (h : SameContent value value') (hwithin : ∀ v ∈ value', v.Within lines'.length)
    {routes : List RouteItem} (hroutes : valueRoutes lines value = .ok routes) :
    ∃ routes', valueRoutes lines' value' = .ok routes' ∧
      routes'.map (·.destination) = routes.map (·.destination) := by
  have hblock := h.blockItems
  cases hitems : blockItems value with
  | none =>
      rw [hitems, Option.map_none, eq_comm, Option.map_eq_none_iff] at hblock
      simp only [valueRoutes, hitems] at hroutes
      cases hroutes
      exact ⟨[], by simp only [valueRoutes, hblock], rfl⟩
  | some items =>
      rw [hitems, Option.map_some, eq_comm, Option.map_eq_some_iff] at hblock
      obtain ⟨items', hitems', hcontents⟩ := hblock
      rw [contents_eq_map, contents_eq_map] at hcontents
      cases value with
      | none =>
          cases value' with
          | none =>
              cases hroutes
              exact ⟨[], rfl, rfl⟩
          | some v' => cases h
      | some v =>
          cases value' with
          | none => cases h
          | some v' =>
              simp only [valueRoutes, hitems, bind_eq_ok] at hroutes
              obtain ⟨out, hspans, hroutes⟩ := hroutes
              have hin := itemsWithin_getD (hwithin v' rfl)
              rw [hitems', Option.getD_some] at hin
              obtain ⟨out', hspans'⟩ := spans_total hin v'
              have hsame : out.map (·.1.content) = out'.map (·.1.content) := by
                have hout := congrArg (List.map YamlNode.content) (spans_map_fst hspans)
                have hout' := congrArg (List.map YamlNode.content) (spans_map_fst hspans')
                rw [List.map_map] at hout hout'
                exact hout.trans (hcontents.symm.trans hout'.symm)
              obtain ⟨routes', hroutes', hseen⟩ := mapEach_routeItem_of_content hsame hroutes
              refine ⟨routes', ?_, hseen⟩
              simp only [valueRoutes, hitems', bind_eq_ok]
              exact ⟨out', hspans', hroutes'⟩

theorem within_of_entries {o : Option YamlNode} {n : YamlNode} {count : ℕ}
    (h : n.Within count) {key : String} (ho : entry (some n) key = .ok o) :
    ∀ key value, entry o key = .ok value → ∀ v ∈ value, v.Within count := by
  intro key value hvalue
  cases o with
  | none =>
      cases hvalue
      exact fun v hv => absurd hv (Option.not_mem_none v)
  | some v => exact within_of_entry (within_of_entry h ho v rfl) hvalue

theorem hubRouteItems_of_entry {lines lines' : List String} {root root' : YamlNode}
    (h : SameEntry (some root) (some root') "routing") (hwithin : root'.Within lines'.length)
    {hub : HubRouteItems} (hhub : hubRouteItems lines root = .ok hub) :
    ∃ hub', hubRouteItems lines' root' = .ok hub' ∧ hub'.error = hub.error ∧
      hub'.items.map (·.destination) = hub.items.map (·.destination) := by
  obtain ⟨routing, value, hrouting, hvalue, hitems, hline, herror⟩ := hubRouteItems_eq_ok.mp hhub
  obtain ⟨routing', hrouting', hsame⟩ := h routing hrouting
  obtain ⟨value', hvalue', hvalueSame⟩ := entry_of_content hsame "hub_routes" value hvalue
  obtain ⟨items', hitems', hseen⟩ := valueRoutes_of_content hvalueSame
    (within_of_entries hwithin hrouting' "hub_routes" value' hvalue') hitems
  refine ⟨{ line := keyLine routing' "hub_routes", items := items', error := routesError value' },
    hubRouteItems_eq_ok.mpr ⟨routing', value', hrouting', hvalue', hitems', rfl, rfl⟩, ?_, hseen⟩
  have hblock := congrArg Option.isNone hvalueSame.blockItems
  rw [Option.isNone_map, Option.isNone_map] at hblock
  rw [herror, routesError, routesError, hblock]

/-! ## One entry among others -/

section Hole

variable {tag key : String} {xs ys xs' ys' : List (YamlNode × YamlNode)} {k v : YamlNode}
  {flow : Bool} {start stop : Mark}

theorem isKey_of_ne {other : String} (h : isKey other k = true) (hne : key ≠ other) :
    isKey key k = false := by
  cases k with
  | scalar tag value start stop =>
      rw [isKey, decide_eq_true_eq] at h
      rw [isKey, decide_eq_false_iff_not, h]
      exact fun heq => hne heq.symm
  | sequence | mapping => rfl

/-- An entry is not seen under the other keys. -/
theorem entry_append_cons (h : isKey key k = false) {value : Option YamlNode} :
    entry (some (.mapping tag (xs ++ (k, v) :: ys) flow start stop)) key = .ok value ↔
      entry (some (.mapping tag (xs ++ ys) flow start stop)) key = .ok value := by
  rw [entry_mapping, entry_mapping, List.filter_append, List.filter_append,
    List.filter_cons_of_neg (by rw [h]; exact Bool.false_ne_true)]

theorem filter_cons_self (h : isKey key k = true) :
    ((k, v) :: ys).filter (fun e => isKey key e.1) =
      (k, v) :: ys.filter fun e => isKey key e.1 :=
  List.filter_cons_of_pos h

/-- Under its key an entry is the only one. -/
theorem entry_self (h : isKey key k = true) {value : Option YamlNode}
    (hvalue : entry (some (.mapping tag (xs ++ (k, v) :: ys) flow start stop)) key = .ok value) :
    value = some v ∧ (∀ e ∈ xs ++ ys, isKey key e.1 = false) ∧
      keyLine (some (.mapping tag (xs ++ (k, v) :: ys) flow start stop)) key =
        some k.startMark.line := by
  have hfilter := entry_mapping.mp hvalue
  rw [List.filter_append, filter_cons_self h, List.map_append, List.map_cons] at hfilter
  have hlength := congrArg List.length hfilter
  cases value with
  | none => simp at hlength
  | some w =>
      rw [List.length_append, List.length_cons, Option.toList_some, List.length_singleton,
        List.length_map, List.length_map] at hlength
      have hxs := List.length_eq_zero_iff.mp
        (show (xs.filter fun e => isKey key e.1).length = 0 by omega)
      have hys := List.length_eq_zero_iff.mp
        (show (ys.filter fun e => isKey key e.1).length = 0 by omega)
      have hline : keyLine (some (.mapping tag (xs ++ (k, v) :: ys) flow start stop)) key =
          some k.startMark.line := by
        simp only [keyLine, ← List.head?_filter, List.filter_append, hxs,
          filter_cons_self h]
        rfl
      rw [hxs, hys] at hfilter
      cases hfilter
      refine ⟨rfl, ?_, hline⟩
      intro e he
      rw [List.filter_eq_nil_iff] at hxs hys
      rcases List.mem_append.mp he with he | he
      · exact Bool.not_eq_true _ ▸ hxs e he
      · exact Bool.not_eq_true _ ▸ hys e he

theorem entry_self_of_forall (h : isKey key k = true)
    (hothers : ∀ e ∈ xs ++ ys, isKey key e.1 = false) :
    entry (some (.mapping tag (xs ++ (k, v) :: ys) flow start stop)) key = .ok (some v) := by
  have hnone : ∀ zs : List (YamlNode × YamlNode), zs ⊆ xs ++ ys →
      (zs.filter fun e => isKey key e.1) = [] := by
    intro zs hzs
    rw [List.filter_eq_nil_iff]
    intro e he
    rw [hothers e (hzs he)]
    exact Bool.false_ne_true
  rw [entry_mapping, List.filter_append, filter_cons_self h,
    hnone xs (List.subset_append_left xs ys), hnone ys (List.subset_append_right xs ys)]
  rfl

theorem forall_isKey_of_contents (hxs : entryContents xs = entryContents xs')
    (h : ∀ e ∈ xs, isKey key e.1 = false) : ∀ e ∈ xs', isKey key e.1 = false := by
  rw [entryContents_eq_map, entryContents_eq_map] at hxs
  intro e he
  have hmem : (e.1.content, e.2.content) ∈ xs.map fun e => (e.1.content, e.2.content) := by
    rw [hxs]
    exact List.mem_map_of_mem he
  obtain ⟨d, hd, heq⟩ := List.mem_map.mp hmem
  rw [← isKey_content, ← (Prod.mk.inj heq).1, isKey_content]
  exact h d hd

/-- Two mappings that differ in one entry agree on the others. -/
theorem sameEntry_append_cons {tag' : String} {k' v' : YamlNode} {flow' : Bool}
    {start' stop' : Mark} (hxs : entryContents xs = entryContents xs')
    (hys : entryContents ys = entryContents ys') (hk : isKey key k = false)
    (hk' : isKey key k' = false) :
    SameEntry (some (.mapping tag (xs ++ (k, v) :: ys) flow start stop))
      (some (.mapping tag' (xs' ++ (k', v') :: ys') flow' start' stop')) key := by
  have hsame : SameContent (some (.mapping "" (xs ++ ys) false start start))
      (some (.mapping "" (xs' ++ ys') false start start)) := by
    refine .of_eq ?_
    rw [entryContents_eq_map, entryContents_eq_map] at hxs hys
    rw [YamlNode.content, YamlNode.content, entryContents_eq_map, entryContents_eq_map,
      List.map_append, List.map_append, hxs, hys]
  intro value hvalue
  obtain ⟨value', hvalue', hcontent⟩ :=
    entry_of_content hsame key value ((entry_append_cons hk).mp hvalue)
  exact ⟨value', (entry_append_cons hk').mpr hvalue', hcontent⟩

end Hole

end HexRift
