import HexRift.Verification.Commuting

/-! # A node removed after it was added

`remove_node` cuts out the lines `add_node` put in, wherever they stand. -/

namespace HexRift

open Checks

/-! ## Removing a node alone -/

section RemoveFrom

variable {t : Topology} {region : RegionItem} {node : NodeItem} {stop : ℕ}

/-- A removal that drops neither a route nor the fallback deletes the lines of the node. -/
theorem removeFrom_alone (herror : region.nodesError = none) (hhub : t.hubRoutes.error = none)
    (hdead : t.deadRoutes region node = []) (hfallback : Topology.fallbackSpan region node = [])
    (hdash : checkDash t.lines node.start = .ok ())
    (hend : contentEnd t.lines node.start node.stop = .ok stop) :
    ∃ edit, t.removeFrom region node = .ok edit ∧
      edit.text = t.render (t.lines.take node.start ++ t.lines.drop (max node.start stop)) := by
  have hkey : t.deadKeySpan [] = [] := by
    rw [Topology.deadKeySpan]
    cases t.hubRoutes.line with
    | none => rfl
    | some line => simp
  have hspans : t.removeSpans region node = .ok [(node.start, stop)] := by
    rw [Topology.removeSpans, hdead, hkey, hfallback]
    simp only [List.map_nil, forEach, mapEach, Topology.itemSpan, hdash, hend]
    rfl
  simp only [Topology.removeFrom, herror, hhub, refuse, hspans]
  exact ⟨_, rfl, rfl⟩

end RemoveFrom

/-! ## The text after the addition -/

/-- The id occurs nowhere in the topology. -/
structure Topology.Unused (t : Topology) (id : String) : Prop where
  regions : ∀ q ∈ t.regions, q.id ≠ some id
  fallbacks : ∀ q ∈ t.regions, q.lbFallback ≠ some id
  nodes : ∀ q ∈ t.regions, ∀ n ∈ q.nodes, n.id ≠ some id
  routes : ∀ route ∈ t.hubRoutes.items, route.destination ≠ some id

section Added

variable {L L' : Layout} {yaml : Yaml} {text : String} {t t' : Topology} {id : String}
  {r r' : RegionItem} {rs₁ rs₂ rs₁' rs₂' : List RegionItem}

/-- The editor reads the text that differs in the nodes of the region. -/
theorem Layout.Shows.reads (h : L.Shows yaml text t id r) (hL' : L'.WellFormed)
    (hext : L.Extends L') (hfallback : L'.fieldsAt "lb_fallback" = L.fieldsAt "lb_fallback")
    (hreadBy : L'.ReadBy yaml) (hnodes : ∀ p ∈ L'.parts, ∃ x, NodeSeen p.node x) :
    ∃ rs₁ rs₂ t' rs₁' r' rs₂', t.regions = rs₁ ++ r :: rs₂ ∧
      Topology.ofText yaml L'.text = .ok t' ∧ t'.eol = L'.eol ∧ L'.Read t' rs₁' r' rs₂' ∧
        Rereads t rs₁ r rs₂ t' rs₁' r' rs₂' ∧ r'.lbFallback = r.lbFallback := by
  obtain ⟨T, rs₁, rs₂, hc, hseen, -, hread⟩ := h.read
  obtain ⟨T', hcompose', hc', hin'⟩ := hreadBy
  rw [← L'.closeText_text hL'] at hcompose'
  have hsame := hc.sameEntry_region hc' (by decide) hfallback
  have hfallback' := hsame.scalarText (hc.region_seen hseen hread).lbFallback
  obtain ⟨t', rs₁', r', rs₂', hseen', heol', hread', hre, hlb⟩ :=
    hc.reread hc' hL' hext hin' hseen hread hnodes hfallback'
  have hparsed := (L'.ofText_iff (L'.splitlines_text hL') (L'.eolOf_text hL') hcompose').mpr
    ⟨hseen', heol'⟩
  exact ⟨rs₁, rs₂, t', rs₁', r', rs₂', hread.regions, hparsed, heol', hread', hre, hlb⟩

theorem views_ids {rs rs' : List RegionItem}
    (h : rs'.map RegionItem.view = rs.map RegionItem.view) {q' : RegionItem} (hq : q' ∈ rs') :
    ∃ q ∈ rs, q.id = q'.id ∧ q.nodes.map (·.id) = q'.nodes.map (·.id) := by
  have hmem : q'.view ∈ rs.map RegionItem.view := by
    rw [← h]
    exact List.mem_map_of_mem hq
  obtain ⟨q, hq, hsame⟩ := List.mem_map.mp hmem
  have hids := congrArg (fun v : RegionView => v.nodes.map (·.1)) hsame
  simp only [RegionItem.view, List.map_map] at hids
  exact ⟨q, hq, congrArg RegionView.id hsame, hids⟩

/-- A node is found where it stands if no region before holds its id. -/
theorem findSome?_node {rs₁ rs₂ : List RegionItem} {r : RegionItem} {n : NodeItem}
    (hbefore : ∀ q ∈ rs₁, some id ∉ q.nodes.map (·.id))
    (hnode : r.nodes.find? (fun n => n.id = some id) = some n) :
    (rs₁ ++ r :: rs₂).findSome? (fun q =>
      (q.nodes.find? fun n => n.id = some id).map fun n => (q, n)) = some (r, n) := by
  have hnone : rs₁.findSome? (fun q =>
      (q.nodes.find? fun n => n.id = some id).map fun n => (q, n)) = none := by
    rw [List.findSome?_eq_none_iff]
    intro q hq
    rw [Option.map_eq_none_iff, List.find?_eq_none]
    intro n hn heq
    exact hbefore q hq (List.mem_map.mpr ⟨n, hn, of_decide_eq_true heq⟩)
  rw [List.findSome?_append, hnone, Option.none_or, List.findSome?_cons, hnode]
  rfl

/-- Of the nodes read, the new one alone has its id. -/
theorem Layout.Read.find?_added {p : NodePart} {key : List Chunk} (hread : L.Read t rs₁ r rs₂)
    (hread' : (L.added none key p).Read t' rs₁' r' rs₂') (hp : p.id? = some id)
    (hfresh : some id ∉ r.nodes.map (·.id)) :
    ∃ n, r'.nodes.find? (fun n => n.id = some id) = some n ∧
      r'.nodes[L.slotOf key]? = some n := by
  have hids := hread'.nodes.ids
  have hmem : some id ∈ r'.nodes.map (·.id) := by
    rw [← hids, ← hp, Layout.added_parts]
    exact List.mem_map_of_mem (Slots.mem_insert.mpr (.inl rfl))
  obtain ⟨m, hm, hid⟩ := List.mem_map.mp hmem
  have hsome : (r'.nodes.find? fun n => n.id = some id).isSome :=
    List.find?_isSome.mpr ⟨m, hm, decide_eq_true hid⟩
  obtain ⟨n, hn⟩ := Option.isSome_iff_exists.mp hsome
  refine ⟨n, hn, ?_⟩
  obtain ⟨j, hj⟩ := List.getElem?_of_mem (List.mem_of_find?_eq_some hn)
  obtain ⟨q, hq, -, -⟩ := hread'.located j n hj
  have hqid : q.id? = some id := by
    have hsame := congrArg (·[j]?) hids
    simp only [List.getElem?_map, hq, hj, Option.map_some, Option.some.injEq] at hsame
    have hnid := List.find?_some hn
    rw [hsame]
    exact of_decide_eq_true hnid
  by_cases hslot : j = L.slotOf key
  · rw [← hslot, hj]
  · rw [Layout.added_parts] at hq
    have hold := Slots.mem_of_getElem?_insert hq hslot
    rw [← hread.nodes.ids] at hfresh
    exact absurd (List.mem_map.mpr ⟨q, hold, hqid⟩) hfresh

theorem Layout.partRows_added (L : Layout) (key : List Chunk) (p : NodePart) :
    partRows (L.added none key p).parts (L.slotOf key) = partRows L.parts (L.slotOf key) := by
  have hle : L.slotOf key ≤ L.parts.length := Slots.slot_le_length _ _
  have htake : (L.added none key p).parts.take (L.slotOf key) = L.parts.take (L.slotOf key) := by
    rw [Layout.added_parts, Slots.insert]
    exact List.take_left' (List.length_take_of_le hle)
  rw [partRows, htake, partRows]

end Added

/-! ## The text restored -/

section Restore

variable {L : Layout} {yaml : Yaml} {t : Topology} {region : RegionModel} {r : RegionItem}
  {node : NodeModel} {p : NodePart} {key : List Chunk} {edit : AddEdit}

theorem addNode_setLbFallback (hregion : t.region region.id = some r)
    (hadd : t.addNode yaml region node = .ok edit) :
    edit.setLbFallback = (fallbackToSet r).map (·.1) := by
  simp only [Topology.addNode, Topology.checkAdd, hregion, bind_eq_ok, ensure_eq_ok, pure_eq_ok]
    at hadd
  obtain ⟨-, -, _, ⟨-, -, -, -, rfl⟩, hadd⟩ := hadd
  simp only [bind_eq_ok, pure_eq_ok] at hadd
  obtain ⟨ops, -, rfl⟩ := hadd
  rfl

/-- What is cut out is what was put in. -/
theorem Layout.added_lines_cut (L : Layout) (key : List Chunk) (p : NodePart) :
    (L.added none key p).lines.take (L.top.length + partRows L.parts (L.slotOf key)) ++
      (L.added none key p).lines.drop (L.top.length + partRows L.parts (L.slotOf key) +
        p.lines.length) = L.lines := by
  have hle : L.top.length + partRows L.parts (L.slotOf key) ≤ L.lines.length := by
    have hrows := partRows_le L.parts (L.slotOf key)
    rw [Layout.lines, Layout.partLines, List.length_append, List.length_append]
    omega
  have htake := List.length_take_of_le hle
  have hlines : (L.added none key p).lines =
      L.lines.take (L.top.length + partRows L.parts (L.slotOf key)) ++ (p.lines ++
        L.lines.drop (L.top.length + partRows L.parts (L.slotOf key))) := by
    rw [Layout.added, Layout.pinned, L.insertNode_lines, List.append_assoc]
  rw [hlines, List.take_left' htake, ← List.drop_drop, List.drop_left' htake, List.drop_left,
    List.take_append_drop]

theorem isDash_dash (text : List Char) : isDash (String.ofList ('-' :: ' ' :: text)) "" = true := by
  rw [isDash, Bool.and_eq_true, Python.startswith_iff, String.toList_ofList]
  exact ⟨⟨' ' :: text, rfl⟩, rfl⟩

theorem checkDash_of_body {lines : List String} {row : ℕ} (hp : p.Writes yaml L.eol node)
    (hline : lines[row]? = p.body[0]?) : checkDash lines row = .ok () := by
  obtain ⟨text, rest, hbody⟩ := hp.body_start
  rw [hbody, List.getElem?_cons_zero] at hline
  have hchars : (nodeIndent ++ "- " ++ text).toList =
      nodeIndent.toList ++ ('-' :: ' ' :: text.toList) := by
    rw [String.toList_append, String.toList_append, List.append_assoc]
    rfl
  have hstrip : Python.lstrip (nodeIndent ++ "- " ++ text).toList = '-' :: ' ' :: text.toList := by
    rw [hchars]
    rfl
  simp only [checkDash, lineAt, hline, bind_eq_ok, ensure_eq_ok]
  exact ⟨_, rfl, by rw [hstrip, isDash_dash]⟩

/-- Removing a node undoes adding it, wherever its lines were put. -/
theorem remove_undoes_add (h : L.Shows yaml L.text t region.id r)
    (hfree : L.Free yaml key) (hp : p.Writes yaml L.eol node)
    (hkey : naturalKey node.id = .ok key) (hsplice : L.Splices yaml none key p)
    (hhub : t.hubRoutes.error = none) (hunused : t.Unused node.id)
    (hadd : t.addNode yaml region node = .ok edit) (hset : edit.setLbFallback = none) :
    ∃ t' last, Topology.ofText yaml edit.text = .ok t' ∧ t'.removeNode node.id = .ok last ∧
      last.text = L.text := by
  have hfallback : fallbackToSet r = none := by
    rw [addNode_setLbFallback h.region_eq hadd, Option.map_eq_none_iff] at hset
    exact hset
  have hpin : L.PinOf yaml r none :=
    ⟨fun _ hmem => absurd hmem (Option.not_mem_none _),
      fun _ hmem => absurd hmem (Option.not_mem_none _), fun _ => hfallback⟩
  obtain ⟨T, rs₁₀, rs₂₀, hc, hseen, heol, hread⟩ := h.read
  obtain ⟨key', hkey', hcolumn, htext, -⟩ :=
    hread.addNode_eq_ok h.wellFormed h.parts heol h.region_eq hadd hp hpin
  rw [hkey] at hkey'
  cases hkey'
  -- the text read again
  have hL' := Layout.added_wellFormed h.wellFormed hpin.fits hcolumn hp hfree
  have hreadBy : L.ReadBy yaml := by
    have hreadAs := h.readAs
    rw [L.closeText_text h.wellFormed] at hreadAs
    exact hreadAs
  have hnodes : ∀ q ∈ (L.added none key p).parts, ∃ x, NodeSeen q.node x := by
    intro q hq
    rcases Layout.mem_added hq with rfl | hq
    · obtain ⟨x, hx, -⟩ := hp.seen
      exact ⟨x, hx⟩
    · exact hread.nodes.exists_seen q hq
  obtain ⟨rs₁, rs₂, t', rs₁', r', rs₂', hregions, hparsed, heol', hread', hre, hlb⟩ :=
    h.reads hL' (Layout.extends_added hpin.fits key) rfl
      (hsplice hreadBy hcolumn hfree hp.alone) hnodes
  have hr : r ∈ t.regions := by
    rw [hregions]
    exact List.mem_append_right _ List.mem_cons_self
  have hfresh : some node.id ∉ r.nodes.map (·.id) := by
    intro hmem
    obtain ⟨n, hn, hid⟩ := List.mem_map.mp hmem
    exact hunused.nodes r hr n hn hid
  obtain ⟨n, hfind, hat⟩ := hread.find?_added hread' hp.id?_eq hfresh
  obtain ⟨q, hq, hstart, hend⟩ := hread'.located _ n hat
  have hslot : (L.added none key p).parts[L.slotOf key]? = some p := by
    rw [Layout.added_parts]
    exact Slots.getElem?_insert_slot
  rw [hslot] at hq
  cases hq
  have hrows : partRows (L.added none key p).parts (L.slotOf key + 1) =
      partRows L.parts (L.slotOf key) + p.lines.length := by
    rw [partRows_succ hslot, Layout.partRows_added]
  have hrow : n.start = L.top.length + partRows L.parts (L.slotOf key) := by
    rw [hstart, Layout.partRows_added, hp.above]
    rfl
  have hstop : contentEnd t'.lines n.start n.stop =
      .ok (L.top.length + partRows L.parts (L.slotOf key) + p.lines.length) := by
    rw [hread'.lines, hend, hrows, Nat.add_assoc]
    rfl
  have hbody : (L.added none key p).lines[n.start]? = p.body[0]? := by
    have hget : (L.added none key p).lines[(L.added none key p).top.length +
        partRows (L.added none key p).parts (L.slotOf key) + p.above.length + 0]? = p.body[0]? :=
      getElem?_body hslot (Nat.lt_of_le_of_lt (Nat.zero_le _) hp.wellFormed.key)
    rw [Nat.add_zero, ← hstart] at hget
    exact hget
  -- nothing but the node goes
  have hmany : r'.nodes.length ≠ 1 := by
    have hcount := hread'.nodes.length_eq
    have hne := List.length_pos_of_ne_nil h.parts
    rw [Layout.added_parts, Slots.insert, List.length_append, List.length_cons, List.length_take,
      List.length_drop] at hcount
    omega
  have hid : n.id = some node.id := by
    have hnid := List.find?_some hfind
    exact of_decide_eq_true hnid
  have hdead : t'.deadRoutes r' n = [] := by
    rw [Topology.deadRoutes, List.filter_eq_nil_iff]
    intro route hroute hgone
    have hmem : route.destination ∈ t.hubRoutes.items.map (·.destination) := by
      rw [← hre.destinations]
      exact List.mem_map_of_mem hroute
    obtain ⟨route₀, hroute₀, hsame⟩ := List.mem_map.mp hmem
    have hdest := (Bool.and_eq_true_iff.mp hgone).2
    rw [decide_eq_true_eq, Topology.goneIds, if_neg hmany, hid] at hdest
    split at hdest
    · exact hunused.routes route₀ hroute₀ (hsame.trans (List.mem_singleton.mp hdest))
    · exact List.not_mem_nil hdest
  have hkept : Topology.fallbackSpan r' n = [] := by
    rw [Topology.fallbackSpan, hid, hlb]
    cases r'.lbFallbackLine with
    | none => rfl
    | some line => exact if_neg (hunused.fallbacks r hr)
  obtain ⟨last, hlast, hresult⟩ := removeFrom_alone hread'.nodesError (hre.error.trans hhub) hdead
    hkept (checkDash_of_body hp (hread'.lines ▸ hbody)) hstop
  refine ⟨t', last, by rw [htext, hparsed], ?_, ?_⟩
  · have hbefore : ∀ q ∈ rs₁', some node.id ∉ q.nodes.map (·.id) := by
      intro q hq hmem
      obtain ⟨q₀, hq₀, -, hids⟩ := views_ids hre.before hq
      rw [← hids] at hmem
      obtain ⟨m, hm, hmid⟩ := List.mem_map.mp hmem
      have hq₀' : q₀ ∈ t.regions := by
        rw [hregions]
        exact List.mem_append_left _ hq₀
      exact hunused.nodes q₀ hq₀' m hm hmid
    rw [Topology.removeNode, hread'.regions, findSome?_node hbefore hfind]
    exact hlast
  · have hle : n.start ≤ L.top.length + partRows L.parts (L.slotOf key) + p.lines.length := by
      rw [hrow]
      exact Nat.le_add_right _ _
    rw [hresult, Nat.max_eq_right hle, hrow, hread'.lines, L.added_lines_cut, Topology.render,
      heol', Layout.text]
    rfl

end Restore

theorem remove_undoes_add_hubs : ∃ t' last,
    Topology.ofText Sample.hubsYaml (Sample.hubsEdit ["h1", "h2"] 4 "h1").text = .ok t' ∧
      t'.removeNode "h1" = .ok last ∧ last.text = (Sample.hubsLayout ["h2"]).text := by
  have hfree : (Sample.hubsLayout ["h2"]).Free Sample.hubsYaml [.text ['h'], .num 1, .text []] :=
    Sample.hubs_free (Slots.slot_le_length _ _)
  have hsplice : (Sample.hubsLayout ["h2"]).Splices Sample.hubsYaml none
      [.text ['h'], .num 1, .text []] (Sample.hubPart "h1") := by
    intro _ _ _ _
    rw [Sample.added_h1]
    exact Sample.hubs_readBy (by simp [Sample.hubTexts])
  have hunused : (Sample.hubsTopology (Sample.hubsLayout ["h2"]).lines
      (Sample.hubNodes 4 ["h2"])).Unused "h1" :=
    { regions := by decide, fallbacks := by decide, nodes := by decide
      routes := fun route hroute => absurd hroute List.not_mem_nil }
  exact remove_undoes_add Sample.hubs_shows hfree (Sample.hub_writes (by simp [Sample.hubIds]))
    Sample.key_h1 hsplice rfl hunused (Sample.hubs_added ["h2"] 4 "h1" ["h1", "h2"]) rfl

/-! ## A document whose `hub_routes` is null -/

namespace Sample

def nullLines (ids : List String) : List String :=
  (hubsLayout ids).lines ++ ["routing:", "  hub_routes: null"]

def nullText (ids : List String) : String := "\n".intercalate (nullLines ids) ++ "\n"

/-- The document of the nodes, and `hub_routes` with a null for its routes. -/
def nullRoot (ids : List String) : YamlNode :=
  let index := 47 + 44 * ids.length
  let line := 4 + 2 * ids.length
  let here : Mark := ⟨index, line, 0⟩
  let stop : Mark := ⟨index + 28, line + 2, 0⟩
  let nodes := blockSequence (hubItems 55 4 ids) ⟨53, 4, 6⟩ here
  let region := blockMapping (hubsFields ++ [(plain "nodes" 40 3 4, nodes)]) ⟨13, 1, 4⟩ here
  let routes : YamlNode := .scalar nullTag "null" ⟨index + 23, line + 1, 14⟩
    ⟨index + 27, line + 1, 18⟩
  blockMapping
    [(plain "regions" 0 0 0, blockSequence [region] ⟨11, 1, 2⟩ here),
      (plain "routing" index line 0,
        blockMapping [(plain "hub_routes" (index + 11) (line + 1) 2, routes)]
          ⟨index + 11, line + 1, 2⟩ stop)] ⟨0, 0, 0⟩ stop

def nullYaml : Yaml :=
  documents ([["h2"], ["h1", "h2"]].map fun ids => (nullText ids, nullRoot ids))

/-- The topology of the nodes, which refuses to have routes removed. -/
def nullTopology (ids : List String) : Topology :=
  { eol := "\n", lines := nullLines ids, regionsLine := 0, emptyFlowRegions := none
    regions := [hubsRegion (hubNodes 4 ids) (4 + 2 * ids.length)], aphelionDomain := none
    hubRoutes := {
      line := some (5 + 2 * ids.length), items := []
      error := some "'routing.hub_routes' must be a bare key or a block sequence to edit" } }

theorem null_parsed (ids : List String) (h : ids = ["h2"] ∨ ids = ["h1", "h2"]) :
    Topology.ofText nullYaml (nullText ids) = .ok (nullTopology ids) := by
  have hroot : composeRoot nullYaml (nullText ids) = .ok (nullRoot ids) := by
    rcases h with rfl | rfl
    all_goals rfl
  refine parsed_of_compose (List.cons_ne_nil _ _) (plain_of_all ?_) hroot rfl ?_
  · rcases h with rfl | rfl
    all_goals decide
  · rcases h with rfl | rfl
    all_goals exact ⟨rfl, rfl, ⟨_, _, _, rfl, rfl, rfl, rfl, rfl⟩, ⟨_, rfl, rfl⟩, rfl⟩

end Sample

set_option maxRecDepth 4000 in
/-- A node is added to the document, and its removal is refused. -/
theorem null_routes_refused : ∃ t edit t',
    Topology.ofText Sample.nullYaml (Sample.nullText ["h2"]) = .ok t ∧ t.Unused "h1" ∧
      t.addNode Sample.nullYaml Sample.hubRegionModel (Sample.hubNodeModel "h1") = .ok edit ∧
        edit.setLbFallback = none ∧ Topology.ofText Sample.nullYaml edit.text = .ok t' ∧
          ∀ last, t'.removeNode "h1" ≠ .ok last := by
  refine ⟨_, { text := Sample.nullText ["h1", "h2"], ops := _, created := false
               setLbFallback := none }, _, Sample.null_parsed ["h2"] (.inl rfl), ?_, rfl, rfl,
    Sample.null_parsed ["h1", "h2"] (.inr rfl), ?_⟩
  · exact { regions := by decide, fallbacks := by decide, nodes := by decide
            routes := fun route hroute => absurd hroute List.not_mem_nil }
  · intro last hlast
    cases hlast

end HexRift
