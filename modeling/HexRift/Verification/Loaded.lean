import HexRift.Library.Distinct
import HexRift.Verification.Frame
import HexRift.Verification.Readers
import HexRift.Verification.Rendered

/-! # The editor sees what is loaded

A topology read by the editor is compared with the one the loader makes of the same text,
region by region. -/

namespace HexRift

open Checks

variable {l : Loader}

/-! ## Agreement -/

/-- `used_vless_routes` -/
def Topology.usedVlessRoutes (t : Topology) : List ℤ := t.regions.flatMap (·.vlessRoutes)

/-- The editor sees the topology that was loaded: what it picks is unused there, and what it
takes for free is. -/
structure Topology.Agrees (t : Topology) (cfg : ConglomerateConfig) : Prop where
  regions : t.regions.map RegionItem.view = cfg.regions.map Region.view
  routes : ∀ n : ℤ, n ∈ t.usedVlessRoutes ↔
    n ∈ (HexRift.usedVlessRoutes cfg).map (Nat.cast (R := ℤ))
  picked : ∀ choice route, pickVlessRoute (t.usedVlessRoutes.filterMap Int.toNat?) choice =
    .ok route → route ∉ HexRift.usedVlessRoutes cfg
  free : ∀ id, t.hasNode id = false → id ∉ nodeIds cfg

/-! ## Documents -/

theorem compose_of_composeRoot {yaml : Yaml} {text : String} {root : YamlNode}
    (h : composeRoot yaml text = .ok root) : yaml.compose text = .ok (some root, false) := by
  unfold composeRoot at h
  split at h
  · cases h
  · rename_i o anchored hcompose
    cases anchored with
    | true => cases h
    | false =>
        simp only [Bool.false_eq_true, if_false] at h
        split at h
        · cases h
          exact hcompose
        · cases h

theorem ofText_regions {yaml : Yaml} {text : String} {t : Topology} {root : YamlNode}
    (h : Topology.ofText yaml text = .ok t) (hroot : composeRoot yaml (closeText text) = .ok root) :
    ∃ value items, entry (some root) "regions" = .ok (some value) ∧
      blockItems (some value) = some items ∧
      List.Forall₂ (RegionSeen yaml t.lines) items t.regions := by
  simp only [Topology.ofText, bind_eq_ok, hroot] at h
  obtain ⟨_, hsame, value, hvalue, h⟩ := h
  cases hsame
  split at h
  · rename_i value line _
    split at h
    · cases h
    · rename_i items hitems
      simp only [bind_eq_ok, pure_eq_ok] at h
      obtain ⟨out, hspans, regions, hregions, _, _, _, _, _, _, rfl⟩ := h
      exact ⟨value, items, hvalue, hitems,
        forall₂_of_spans hspans hregions fun item r h => (regionItem_eq_ok.mp h).1⟩
  · cases h

theorem load_eq_some {text : String} {cfg : ConglomerateConfig} (hl : l.Documented)
    (h : l.load text = some cfg) :
    ∃ d, l.data text = some d ∧ l.validate d = .ok cfg ∧ Accepted cfg := by
  simp only [Loader.load, hl.lineBreaks, Option.bind_eq_bind, Option.bind_eq_some_iff,
    toOption_eq_some] at h
  obtain ⟨d, hd, cfg', hvalidate, u, haccepted, _, _, hcfg⟩ := h
  cases hcfg
  refine ⟨d, hd, hvalidate, validateReferences_isOk.mp ?_⟩
  rw [haccepted]
  rfl

/-- The regions of the document, as both sides read them. -/
theorem document_read (hl : l.Documented) {text : String} {t : Topology}
    {cfg : ConglomerateConfig} {root : YamlNode} (hparse : Topology.ofText l.yaml text = .ok t)
    (hload : l.load text = some cfg) (hroot : composeRoot l.yaml (closeText text) = .ok root)
    (hplain : PlainDocument root) (hfinal : l.data (closeText text) = l.data text) :
    List.Forall₂ (RegionSeen l.yaml t.lines) (itemsAt root "regions") t.regions ∧
      List.Forall₂ (ReadsNode l (ReadsRegion l.laxInt)) (itemsAt root "regions") cfg.regions := by
  obtain ⟨value, items, hvalue, hitems, hseen⟩ := ofText_regions hparse hroot
  obtain ⟨d, hd, hvalidate, -⟩ := load_eq_some hl hload
  rw [← hfinal, Loader.data, compose_of_composeRoot hroot] at hd
  have hconstruct := toOption_eq_some.mp hd
  obtain ⟨v, hv, hread⟩ := hl.validate d cfg hvalidate
  rcases entry_get hl hplain.mapping hconstruct hvalue with ⟨hnone, -⟩ | ⟨_, w, heq, hw, hbuilt⟩
  · cases hnone
  · cases heq
    rw [hw] at hv
    cases hv
    have hsame := blockItems_getD hl hbuilt
    rw [hitems, Option.getD_some] at hsame
    rw [itemsAt, valueAt_eq hvalue, ← hsame]
    refine ⟨hseen, ?_⟩
    rw [hsame]
    refine forall₂_of_readsList hl (fun region hregion => ?_) hbuilt hread
    cases region with
    | exit x =>
        obtain ⟨_, hget, -⟩ := hregion.id
        cases hget
    | hub x =>
        obtain ⟨_, hget, -⟩ := hregion.id
        cases hget

theorem usedVlessRoutes_eq (cfg : ConglomerateConfig) :
    HexRift.usedVlessRoutes cfg = cfg.regions.flatMap Region.vlessRoutes := by
  simp only [HexRift.usedVlessRoutes, ConglomerateConfig.exitRegions]
  induction cfg.regions with
  | nil => rfl
  | cons region regions ih =>
      rw [List.flatMap_cons, ← ih]
      cases region with
      | exit x => rfl
      | hub x => rfl

theorem routes_of_routeClaims {x : ExitRegion} (h : x.vlessRoute.isSome) :
    x.routeClaims.map RouteClaim.route = (Region.exit x).vlessRoutes := by
  obtain ⟨route, hroute⟩ := Option.isSome_iff_exists.mp h
  simp [ExitRegion.routeClaims, routeClaims, Region.vlessRoutes, hroute, Function.comp_def]

/-- The routes of an accepted topology are distinct. -/
theorem usedVlessRoutes_nodup {cfg : ConglomerateConfig} (h : Accepted cfg) :
    (HexRift.usedVlessRoutes cfg).Nodup := by
  have hsame : cfg.regions.flatMap Region.vlessRoutes =
      (cfg.regions.flatMap (·.routeClaims)).map RouteClaim.route := by
    rw [List.map_flatMap]
    refine List.flatMap_congr fun region hregion => ?_
    cases region with
    | hub x => rfl
    | exit x =>
        have hok : ExitRegionOk x := (h.region _ hregion).kind
        exact (routes_of_routeClaims hok.vlessRoute).symm
  rw [usedVlessRoutes_eq, hsame]
  exact h.routes

/-! ## What follows -/

/-- A route picked beside the used ones is not used. -/
theorem picked_unused {t : Topology} {cfg : ConglomerateConfig}
    (h : ∀ n : ℤ, n ∈ t.usedVlessRoutes ↔
      n ∈ (HexRift.usedVlessRoutes cfg).map (Nat.cast (R := ℤ)))
    {choice route : ℕ}
    (hpick : pickVlessRoute (t.usedVlessRoutes.filterMap Int.toNat?) choice = .ok route) :
    route ∉ HexRift.usedVlessRoutes cfg := by
  intro hused
  apply (pickVlessRoute_eq_ok.mp ⟨choice, hpick⟩).2
  rw [List.mem_filterMap]
  exact ⟨route, (h route).mpr (List.mem_map_of_mem hused), rfl⟩

/-- Nodes are looked up among all a view shows. -/
theorem free_of_views {t : Topology} {cfg : ConglomerateConfig}
    (h : t.regions.map RegionItem.view = cfg.regions.map Region.view) {id : String}
    (hfree : t.hasNode id = false) : id ∉ nodeIds cfg := by
  intro hmem
  obtain ⟨region, hregion, hid⟩ := List.mem_flatMap.mp hmem
  have hview : region.view ∈ t.regions.map RegionItem.view := by
    rw [h]
    exact List.mem_map_of_mem hregion
  obtain ⟨r, hr, hsame⟩ := List.mem_map.mp hview
  have hids : r.nodes.map (·.id) = (idsOf region.nodes).map some := by
    have hnodes := congrArg (fun v : RegionView => v.nodes.map (·.1)) hsame
    cases region
    all_goals simpa [RegionItem.view, Region.view, idsOf, Region.nodes, Function.comp_def,
      List.flatMap_map, Node.id, ← List.map_eq_flatMap] using hnodes
  have hsome : some id ∈ r.nodes.map (·.id) := by
    rw [hids]
    exact List.mem_map_of_mem hid
  obtain ⟨n, hn, hnid⟩ := List.mem_map.mp hsome
  have htrue : t.hasNode id = true := by
    simp only [Topology.hasNode, List.any_eq_true, decide_eq_true_eq]
    exact ⟨r, hr, n, hn, hnid⟩
  rw [htrue] at hfree
  cases hfree

/-- The editor sees the topology the loader builds unless an empty `hysteria:` or a route's
spelling comes between. -/
theorem editor_agrees_iff (hl : l.Documented) {text : String} {t : Topology}
    {cfg : ConglomerateConfig} {root : YamlNode} (hparse : Topology.ofText l.yaml text = .ok t)
    (hload : l.load text = some cfg) (hroot : composeRoot l.yaml (closeText text) = .ok root)
    (hplain : PlainDocument root) (hfinal : l.data (closeText text) = l.data text) :
    t.Agrees cfg ↔ (∀ region ∈ itemsAt root "regions", ¬ BareHysteria region) ∧
      ∀ region ∈ itemsAt root "regions", ∀ value ∈ routeValues region, SpelledAlike l value := by
  obtain ⟨hseen, hread⟩ := document_read hl hparse hload hroot hplain hfinal
  obtain ⟨d, hd, -, haccepted⟩ := load_eq_some hl hload
  have hviews : t.regions.map RegionItem.view = cfg.regions.map Region.view ↔
      ∀ region ∈ itemsAt root "regions", ¬ BareHysteria region :=
    map_eq_map_iff_of_forall₂ hseen hread fun node hnode r region hr hregion =>
      region_view_iff hl (hplain.regions node hnode) hr hregion
  have heditor : t.usedVlessRoutes =
      ((itemsAt root "regions").flatMap routeValues).filterMap (editorInt l.yaml) := by
    rw [List.filterMap_flatMap]
    refine flatMap_eq_of_forall₂ hseen fun node _ r hr => ?_
    obtain ⟨_, _, _, -, -, -, -, hroutes⟩ := routeValues_eq hr.routes
    exact hroutes
  have hloaded : (HexRift.usedVlessRoutes cfg).map (Nat.cast (R := ℤ)) =
      ((itemsAt root "regions").flatMap routeValues).filterMap l.readInt := by
    rw [usedVlessRoutes_eq, List.map_flatMap, List.filterMap_flatMap]
    refine flatMap_eq_of_forall₂ hread fun node hnode region hregion => ?_
    obtain ⟨r, hr⟩ := exists_of_forall₂ hseen hnode
    exact (region_routes hl (hplain.regions node hnode) hr hregion).1
  have hroutes : (∀ n : ℤ, n ∈ t.usedVlessRoutes ↔
      n ∈ (HexRift.usedVlessRoutes cfg).map (Nat.cast (R := ℤ))) ↔
      ∀ value ∈ (itemsAt root "regions").flatMap routeValues, SpelledAlike l value := by
    have hnonneg : ∀ value ∈ (itemsAt root "regions").flatMap routeValues, ∀ m,
        l.readInt value = some m → 0 ≤ m := by
      intro value hvalue m hm
      have hmem := List.mem_filterMap.mpr ⟨value, hvalue, hm⟩
      rw [← hloaded] at hmem
      obtain ⟨route, -, rfl⟩ := List.mem_map.mp hmem
      exact Int.natCast_nonneg route
    have hnodup := (usedVlessRoutes_nodup haccepted).map (Nat.cast_injective (R := ℤ))
    rw [hloaded] at hnodup
    rw [heditor, hloaded]
    refine Distinct.mem_filterMap_iff_iff_eq hnodup hnonneg
      (fun value hvalue n m hn hm => editorInt_le hl hn hm (hnonneg value hvalue m hm)) ?_
    intro value hvalue
    obtain ⟨node, hnode, hvalue⟩ := List.mem_flatMap.mp hvalue
    obtain ⟨r, hr⟩ := exists_of_forall₂ hseen hnode
    obtain ⟨region, hregion⟩ := exists_of_forall₂ hread hnode
    exact (region_routes hl (hplain.regions node hnode) hr hregion).2 value hvalue
  have hall : (∀ value ∈ (itemsAt root "regions").flatMap routeValues, SpelledAlike l value) ↔
      ∀ region ∈ itemsAt root "regions", ∀ value ∈ routeValues region, SpelledAlike l value := by
    simp only [List.mem_flatMap, forall_exists_index, and_imp]
    exact ⟨fun h region hregion value hvalue => h value region hregion hvalue,
      fun h value region hregion hvalue => h region hregion value hvalue⟩
  rw [← hall, ← hroutes, ← hviews]
  constructor
  · exact fun h => ⟨h.regions, h.routes⟩
  · rintro ⟨hregions, hsame⟩
    exact ⟨hregions, hsame, fun choice route => picked_unused hsame,
      fun id => free_of_views hregions⟩

/-! ## A document with an empty key -/

theorem universalNewlines_of_not_mem {cs : List Char} (h : '\r' ∉ cs) :
    universalNewlines cs = cs := by
  induction cs using universalNewlines.induct with
  | case1 => rfl
  | case2 cs ih => simp at h
  | case3 c cs hne ih =>
      have hc : c ≠ '\r' := by
        rintro rfl
        exact h List.mem_cons_self
      rw [universalNewlines, if_neg hc, ih fun hmem => h (List.mem_cons_of_mem c hmem)]
      exact hne

theorem not_mem_universalNewlines (cs : List Char) : '\r' ∉ universalNewlines cs := by
  induction cs using universalNewlines.induct with
  | case1 => exact List.not_mem_nil
  | case2 cs ih => simpa [universalNewlines] using ih
  | case3 c cs hne ih =>
      rw [universalNewlines]
      · intro hmem
        rcases List.mem_cons.mp hmem with heq | hmem
        · split at heq
          · cases heq
          · rename_i hc
            exact hc heq.symm
        · exact ih hmem
      · exact hne

theorem universalNewlines_idem (cs : List Char) :
    universalNewlines (universalNewlines cs) = universalNewlines cs :=
  universalNewlines_of_not_mem (not_mem_universalNewlines cs)

namespace Sample

def intTag : String := "tag:yaml.org,2002:int"
def boolTag : String := "tag:yaml.org,2002:bool"

def constructScalar (tag value : String) : Except String Data :=
  if tag = nullTag then .ok .null
  else if tag = HexRift.strTag then .ok (.str value)
  else if tag = boolTag then
    if value = "true" then .ok (.bool true)
    else if value = "false" then .ok (.bool false)
    else .error "no boolean"
  else if tag = intTag then
    match Python.int value.toList with
    | some n => .ok (.int n)
    | none => .error "no integer"
  else .error "no constructor for the tag"

/-- The entries with one added before them, unless they hold its key. -/
def addEntry (key : String) (value : Data) (entries : List (Data × Data)) : List (Data × Data) :=
  if entries.any fun e => e.1.isText key then entries else (.str key, value) :: entries

mutual

def construct : YamlNode → Except String Data
  | .scalar tag value _ _ => constructScalar tag value
  | .sequence tag items _ _ _ =>
      if tag = seqTag then do pure (.list (← constructItems items))
      else .error "no constructor for the tag"
  | .mapping tag entries _ _ _ =>
      if tag = mapTag then do pure (.dict (← constructEntries entries))
      else .error "no constructor for the tag"

def constructItems : List YamlNode → Except String (List Data)
  | [] => .ok []
  | item :: items => do
      let d ← construct item
      pure (d :: (← constructItems items))

def constructEntries : List (YamlNode × YamlNode) → Except String (List (Data × Data))
  | [] => .ok []
  | (key, value) :: rest => do
      let k ← construct key
      let v ← construct value
      let entries ← constructEntries rest
      match k with
      | .str s => pure (addEntry s v entries)
      | _ => .error "no key"

end

/-- The text of lines that all end in `\n`. -/
def linesText (lines : List String) : List Char := lines.flatMap fun line => line.toList ++ ['\n']

/-- PyYAML on the documents given, and pydantic by the validation given. -/
def loader (documents : List (List String × YamlNode))
    (validate : Data → Except String ConglomerateConfig) : Loader :=
  { yaml := {
      compose := fun text =>
        match documents.find? fun e => linesText e.1 = universalNewlines text.toList with
        | some e => .ok (some e.2, false)
        | none => .error "no document"
      safeLoad := fun raw =>
        match Python.int raw.toList with
        | some n => .ok (.int n)
        | none => .ok (.str raw) }
    construct := construct
    laxInt := fun
      | .int n => some n
      | .bool b => some b.toNat
      | _ => none
    validate := validate
    validators := [] }

theorem constructScalar_eq_ok {tag value : String} {d : Data}
    (h : constructScalar tag value = .ok d) :
    (tag = nullTag ∧ d = .null) ∨ (tag = HexRift.strTag ∧ d = .str value) ∨
      (tag = boolTag ∧ Python.int value.toList = none ∧ ∃ b, d = .bool b) ∨
        (tag = intTag ∧ ∃ n, Python.int value.toList = some n ∧ d = .int n) := by
  unfold constructScalar at h
  split_ifs at h with hnull hstr hbool htrue hfalse hint
  · cases h
    exact .inl ⟨hnull, rfl⟩
  · cases h
    exact .inr (.inl ⟨hstr, rfl⟩)
  · cases h
    exact .inr (.inr (.inl ⟨hbool, by rw [htrue]; decide, true, rfl⟩))
  · cases h
    exact .inr (.inr (.inl ⟨hbool, by rw [hfalse]; decide, false, rfl⟩))
  · split at h
    · rename_i n hn
      cases h
      exact .inr (.inr (.inr ⟨hint, n, hn, rfl⟩))
    · cases h

theorem constructItems_eq_ok {items : List YamlNode} {ds : List Data}
    (h : constructItems items = .ok ds) :
    List.Forall₂ (fun item d => construct item = .ok d ∨ d = .other) items ds := by
  induction items generalizing ds with
  | nil =>
      rw [constructItems] at h
      cases h
      exact .nil
  | cons item items ih =>
      rw [constructItems] at h
      obtain ⟨d, hd, h⟩ := bind_eq_ok.mp h
      obtain ⟨rest, hrest, h⟩ := bind_eq_ok.mp h
      cases h
      exact .cons (.inl hd) (ih hrest)

theorem get_addEntry {key name : String} {value : Data} {es : List (Data × Data)} :
    (Data.dict (addEntry name value es)).get key =
      ((Data.dict es).get key).or (if name = key then some value else none) := by
  simp only [Data.get, addEntry]
  by_cases hname : name = key
  · subst hname
    split
    · rename_i hany
      obtain ⟨e, he, htext⟩ := List.any_eq_true.mp hany
      cases hfind : es.find? fun e => e.1.isText name with
      | none => exact absurd htext (List.find?_eq_none.mp hfind e he)
      | some e => rfl
    · rename_i hany
      have hnone : es.find? (fun e => e.1.isText name) = none := by
        rw [List.find?_eq_none]
        intro e he htext
        exact hany (List.any_eq_true.mpr ⟨e, he, htext⟩)
      rw [hnone, List.find?_cons_of_pos (by simp [Data.isText])]
      simp
  · rw [if_neg hname, Option.or_none]
    split
    · rfl
    · rw [List.find?_cons_of_neg]
      simpa [Data.isText] using hname

theorem lastValue_cons {key : String} {e : YamlNode × YamlNode}
    {entries : List (YamlNode × YamlNode)} :
    lastValue key (e :: entries) =
      (lastValue key entries).or (if isKey key e.1 then some e.2 else none) := by
  unfold lastValue
  by_cases hkey : isKey key e.1 = true
  · rw [List.filter_cons_of_pos (by exact hkey), if_pos hkey, List.getLast?_cons]
    cases (entries.filter fun e => isKey key e.1).getLast? with
    | none => rfl
    | some last => rfl
  · rw [List.filter_cons_of_neg (by exact hkey), if_neg hkey, Option.or_none]

theorem constructEntries_get {entries : List (YamlNode × YamlNode)} {es : List (Data × Data)}
    (h : constructEntries entries = .ok es) (hplain : ∀ e ∈ entries, PlainKey e.1) (key : String) :
    match lastValue key entries with
    | none => (Data.dict es).get key = none
    | some node => ∃ v, (Data.dict es).get key = some v ∧ construct node = .ok v := by
  induction entries generalizing es with
  | nil =>
      rw [constructEntries] at h
      cases h
      rfl
  | cons e entries ih =>
      obtain ⟨k, node⟩ := e
      obtain ⟨name, start, stop, rfl⟩ := hplain (k, node) (by simp)
      rw [constructEntries] at h
      obtain ⟨kd, hk, h⟩ := bind_eq_ok.mp h
      obtain ⟨v, hv, h⟩ := bind_eq_ok.mp h
      obtain ⟨rest, hrest, h⟩ := bind_eq_ok.mp h
      have hkd : kd = .str name := by
        cases hk
        rfl
      subst hkd
      cases h
      have ih := ih hrest (fun e he => hplain e (by simp [he]))
      rw [get_addEntry, lastValue_cons]
      cases hlast : lastValue key entries with
      | some last =>
          rw [hlast] at ih
          obtain ⟨w, hw, hlast⟩ := ih
          exact ⟨w, by rw [hw, Option.some_or], hlast⟩
      | none =>
          rw [hlast] at ih
          simp only at ih
          rw [ih, Option.none_or, Option.none_or]
          by_cases hname : name = key
          · simp [isKey, hname, hv]
          · simp [isKey, hname]

theorem compose_universalNewlines (documents : List (List String × YamlNode))
    (validate : Data → Except String ConglomerateConfig) (text : String) :
    (loader documents validate).data (String.ofList (universalNewlines text.toList)) =
      (loader documents validate).data text := by
  simp only [Loader.data, loader, String.toList_ofList, universalNewlines_idem]

theorem documented_loader {documents : List (List String × YamlNode)}
    {validate : Data → Except String ConglomerateConfig}
    (hvalidate : ∀ d cfg, validate d = .ok cfg → ReadsField (ReadsList
      (ReadsRegion (loader documents validate).laxInt)) (d.get "regions") cfg.regions) :
    (loader documents validate).Documented where
  null := by
    intro node d h
    change construct node = .ok d at h
    cases node with
    | scalar tag value start stop =>
        rw [construct] at h
        rcases constructScalar_eq_ok h with ⟨htag, rfl⟩ | ⟨htag, rfl⟩ | ⟨htag, -, b, rfl⟩ |
          ⟨htag, n, -, rfl⟩
        all_goals simp [YamlNode.tag, htag, nullTag, HexRift.strTag, boolTag, intTag]
    | sequence tag items flow start stop =>
        rw [construct] at h
        split at h
        · rename_i htag
          obtain ⟨ds, -, h⟩ := bind_eq_ok.mp h
          cases h
          simp [YamlNode.tag, htag, nullTag, seqTag]
        · cases h
    | mapping tag entries flow start stop =>
        rw [construct] at h
        split at h
        · rename_i htag
          obtain ⟨ds, -, h⟩ := bind_eq_ok.mp h
          cases h
          simp [YamlNode.tag, htag, nullTag, mapTag]
        · cases h
  scalar := by
    intro tag value start stop d s h hs
    change construct _ = .ok d at h
    rw [construct] at h
    rcases constructScalar_eq_ok h with ⟨-, rfl⟩ | ⟨-, rfl⟩ | ⟨-, -, b, rfl⟩ | ⟨-, n, -, rfl⟩
    all_goals cases hs
    exact .inl rfl
  list := by
    intro node ds h
    change construct node = .ok (.list ds) at h
    cases node with
    | scalar tag value start stop =>
        rw [construct] at h
        rcases constructScalar_eq_ok h with ⟨-, h⟩ | ⟨-, h⟩ | ⟨-, -, b, h⟩ | ⟨-, n, -, h⟩
        all_goals cases h
    | sequence tag items flow start stop => exact ⟨tag, items, flow, start, stop, rfl⟩
    | mapping tag entries flow start stop =>
        rw [construct] at h
        split at h
        · obtain ⟨ds, -, h⟩ := bind_eq_ok.mp h
          cases h
        · cases h
  sequence := by
    intro tag items flow start stop d h
    change construct _ = .ok d at h
    rw [construct] at h
    split at h
    · obtain ⟨ds, hds, h⟩ := bind_eq_ok.mp h
      cases h
      exact ⟨ds, rfl, constructItems_eq_ok hds⟩
    · cases h
  mapping := by
    intro entries flow start stop d h hplain key
    change construct _ = .ok d at h
    rw [construct, if_pos rfl] at h
    obtain ⟨es, hes, h⟩ := bind_eq_ok.mp h
    cases h
    exact constructEntries_get hes hplain key
  lineBreaks := compose_universalNewlines documents validate
  laxNull := rfl
  laxText := by
    intro tag value start stop d n m h hn hm _
    change construct _ = .ok d at h
    rw [construct] at h
    simp only [yamlInt, loader] at hn
    rcases constructScalar_eq_ok h with ⟨-, rfl⟩ | ⟨-, rfl⟩ | ⟨-, hnone, b, rfl⟩ |
      ⟨-, k, hk, rfl⟩
    · cases hm
    · cases hm
    · rw [hnone] at hn
      cases hn
    · rw [hk] at hn
      cases hn
      cases hm
      exact le_refl _
  validate := hvalidate

def scalarAt (tag value : String) (index line column : ℕ) : YamlNode :=
  .scalar tag value ⟨index, line, column⟩ ⟨index + value.length, line, column + value.length⟩

/-- One exit region, its `hysteria:` left empty or left out. -/
def hysteriaLines (bare : Bool) : List String :=
  ["global:", "  namespace: example.net", "  aphelion_domain: ap.example.net",
    "defaults:", "  exit:", "    ipv6: true",
    "    keys:", "      mode: native", "      session_time: 600s",
    "  hub:", "    ipv6: true",
    "    keys:", "      mode: native", "      session_time: 600s",
    "    exit_connections:", "      method: mlkem768x25519plus",
    "    reality:", "      dest: www.example.com:443",
    "groups: []", "users: []", "routing:", "  hub_default: direct",
    "regions:", "  - id: de", "    type: exit", "    vless_route: 2000"] ++
  (if bare then ["    hysteria:"] else []) ++ ["    nodes:"]

def defaultsNode : YamlNode :=
  let stop : Mark := ⟨330, 18, 0⟩
  blockMapping
    [(plain "exit" 79 4 2, blockMapping
      [(plain "ipv6" 89 5 4, scalarAt boolTag "true" 95 5 10),
        (plain "keys" 104 6 4, blockMapping
          [(plain "mode" 116 7 6, plain "native" 122 7 12),
            (plain "session_time" 135 8 6, plain "600s" 149 8 20)] ⟨116, 7, 6⟩ ⟨156, 9, 2⟩)]
      ⟨89, 5, 4⟩ ⟨156, 9, 2⟩),
    (plain "hub" 156 9 2, blockMapping
      [(plain "ipv6" 165 10 4, scalarAt boolTag "true" 171 10 10),
        (plain "keys" 180 11 4, blockMapping
          [(plain "mode" 192 12 6, plain "native" 198 12 12),
            (plain "session_time" 211 13 6, plain "600s" 225 13 20)] ⟨192, 12, 6⟩ ⟨234, 14, 4⟩),
        (plain "exit_connections" 234 14 4, blockMapping
          [(plain "method" 258 15 6, plain "mlkem768x25519plus" 266 15 14)]
          ⟨258, 15, 6⟩ ⟨289, 16, 4⟩),
        (plain "reality" 289 16 4, blockMapping
          [(plain "dest" 304 17 6, plain "www.example.com:443" 310 17 12)] ⟨304, 17, 6⟩ stop)]
      ⟨165, 10, 4⟩ stop)]
    ⟨79, 4, 2⟩ stop

def bareKey (key : String) (index line : ℕ) : YamlNode × YamlNode :=
  let colon : Mark := ⟨index + key.length + 1, line, 4 + key.length + 1⟩
  (plain key index line 4, .scalar nullTag "" colon colon)

def hysteriaStop (bare : Bool) : Mark := if bare then ⟨464, 28, 0⟩ else ⟨450, 27, 0⟩

def hysteriaRegionNode (bare : Bool) : YamlNode :=
  blockMapping
    ([(plain "id" 395 23 4, plain "de" 399 23 8), (plain "type" 406 24 4, plain "exit" 412 24 10),
      (plain "vless_route" 421 25 4, scalarAt intTag "2000" 434 25 17)] ++
      if bare then [bareKey "hysteria" 443 26, bareKey "nodes" 457 27]
      else [bareKey "nodes" 443 26]) ⟨395, 23, 4⟩ (hysteriaStop bare)

/-- What PyYAML makes of the document. -/
def hysteriaRoot (bare : Bool) : YamlNode :=
  blockMapping
    [(plain "global" 0 0 0, blockMapping
      [(plain "namespace" 10 1 2, plain "example.net" 21 1 13),
        (plain "aphelion_domain" 35 2 2, plain "ap.example.net" 52 2 19)]
      ⟨10, 1, 2⟩ ⟨67, 3, 0⟩),
    (plain "defaults" 67 3 0, defaultsNode),
    (plain "groups" 330 18 0, .sequence seqTag [] true ⟨338, 18, 8⟩ ⟨340, 18, 10⟩),
    (plain "users" 341 19 0, .sequence seqTag [] true ⟨348, 19, 7⟩ ⟨350, 19, 9⟩),
    (plain "routing" 351 20 0, blockMapping
      [(plain "hub_default" 362 21 2, plain "direct" 375 21 15)] ⟨362, 21, 2⟩ ⟨382, 22, 0⟩),
    (plain "regions" 382 22 0,
      blockSequence [hysteriaRegionNode bare] ⟨393, 23, 2⟩ (hysteriaStop bare))]
    ⟨0, 0, 0⟩ (hysteriaStop bare)

def hysteriaRegion : ExitRegion :=
  { id := { val := "de" }, vlessRoute := some lowRoute, nodes := [] }

def hysteriaConfig : ConglomerateConfig :=
  { global := global
    defaults := { exit := { defaults.exit with xhttp := none }
                  hub := { defaults.hub with xhttp := none } }
    groups := []
    users := []
    routing := { hubDefault := "direct" }
    regions := [.exit hysteriaRegion] }

def isRoute (n : ℤ) : Data → Bool
  | .int k => k = n
  | _ => false

def isNull : Data → Bool
  | .null => true
  | _ => false

def isAbsent : Option Data → Bool
  | none => true
  | some .null => true
  | _ => false

/-- Validation of what the two documents say. -/
def hysteriaValidate (d : Data) : Except String ConglomerateConfig :=
  match d.get "regions" with
  | some (.list [r]) =>
      if (r.get "id").any (·.isText "de") ∧ (r.get "type").any (·.isText "exit") ∧
          (r.get "vless_route").any (isRoute 2000) ∧ (r.get "nodes").any isNull ∧
          ∀ key ∈ ["protocol", "hysteria", "lb_strategy", "lb_fallback", "warp"],
            isAbsent (r.get key) then
        .ok hysteriaConfig
      else .error "another topology"
  | _ => .error "another topology"

theorem readsText_of_isText {o : Option Data} {text : String}
    (h : o.any (·.isText text) = true) : ReadsField ReadsText o text := by
  obtain ⟨d, rfl, htext⟩ := (Option.any_eq_true _ _).mp h
  cases d with
  | str s =>
      obtain rfl : s = text := of_decide_eq_true htext
      exact ⟨_, rfl, .str s⟩
  | null | bool | int | float | bytes | list | dict | other => cases htext

theorem readsOptional_of_isAbsent {α : Type} {P : Data → α → Prop} {o : Option Data}
    (h : isAbsent o = true) : ReadsOptional P o none := by
  cases o with
  | none => rfl
  | some d =>
      cases d with
      | null => rfl
      | bool | int | float | str | bytes | list | dict | other => cases h

theorem hysteriaValidate_reads {documents : List (List String × YamlNode)} (d : Data)
    (cfg : ConglomerateConfig) (h : hysteriaValidate d = .ok cfg) :
    ReadsField (ReadsList (ReadsRegion (loader documents hysteriaValidate).laxInt))
      (d.get "regions") cfg.regions := by
  unfold hysteriaValidate at h
  split at h
  · rename_i r hregions
    split at h
    · rename_i hall
      obtain ⟨hid, htype, hroute, hnodes, habsent⟩ := hall
      cases h
      have hread : ReadsExitRegion (loader documents hysteriaValidate).laxInt r hysteriaRegion :=
        { id := readsText_of_isText hid
          type := readsText_of_isText htype
          vlessRoute := by
            obtain ⟨v, hv, hroute⟩ := (Option.any_eq_true _ _).mp hroute
            rw [hv]
            cases v with
            | int k =>
                obtain rfl : k = 2000 := of_decide_eq_true hroute
                exact ⟨_, rfl, rfl⟩
            | null | bool | float | str | bytes | list | dict | other => cases hroute
          protocol := readsOptional_of_isAbsent (habsent "protocol" (by simp))
          hysteria := readsOptional_of_isAbsent (habsent "hysteria" (by simp))
          lbStrategy := readsOptional_of_isAbsent (habsent "lb_strategy" (by simp))
          lbFallback := readsOptional_of_isAbsent (habsent "lb_fallback" (by simp))
          warp := readsOptional_of_isAbsent (habsent "warp" (by simp))
          nodes := by
            obtain ⟨v, hv, hnull⟩ := (Option.any_eq_true _ _).mp hnodes
            refine ⟨v, hv, .inl ⟨?_, rfl⟩⟩
            cases v with
            | null => rfl
            | bool | int | float | str | bytes | list | dict | other => cases hnull }
      exact ⟨_, hregions, .cons hread .nil⟩
    · cases h
  · cases h

def hysteriaText (bare : Bool) : String := String.ofList (linesText (hysteriaLines bare))

def hysteriaLoader : Loader :=
  loader [(hysteriaLines true, hysteriaRoot true), (hysteriaLines false, hysteriaRoot false)]
    hysteriaValidate

theorem splitlines_linesText {lines : List String}
    (h : ∀ line ∈ lines, ∀ c ∈ line.toList, Python.isLineBreak c = false) :
    Python.splitlines (String.ofList (linesText lines)) = lines := by
  have hchars : linesText lines = (lines.map String.toList).flatMap fun l => l ++ ['\n'] := by
    rw [linesText, List.flatMap_map]
  have hplain : ∀ l ∈ lines.map String.toList, ∀ c ∈ l, Python.isLineBreak c = false := by
    simpa using h
  rw [Python.splitlines, String.toList_ofList, hchars,
    Lines.split_flatMap Python.isLineBreak (by decide) (by decide) hplain]
  simp [Function.comp_def]

theorem universalNewlines_linesText {lines : List String}
    (h : ∀ line ∈ lines, ∀ c ∈ line.toList, Python.isLineBreak c = false) :
    universalNewlines (linesText lines) = linesText lines := by
  apply universalNewlines_of_not_mem
  intro hmem
  obtain ⟨line, hline, hmem⟩ := List.mem_flatMap.mp hmem
  rcases List.mem_append.mp hmem with hmem | hmem
  · exact absurd (h line hline _ hmem) (by decide)
  · exact absurd hmem (by decide)

theorem closeText_linesText {lines : List String} (h : lines ≠ []) :
    closeText (String.ofList (linesText lines)) = String.ofList (linesText lines) := by
  obtain ⟨before, last, rfl⟩ := List.eq_nil_or_concat lines |>.resolve_left h
  have hends : Python.endswith (String.ofList (linesText (before.concat last))) "\n" = true := by
    rw [Python.endswith, String.toList_ofList, List.isSuffixOf_iff_suffix]
    refine ⟨linesText before ++ last.toList, ?_⟩
    simp [linesText]
  rw [closeText, if_pos hends]

theorem hysteriaLines_plain (bare : Bool) :
    ∀ line ∈ hysteriaLines bare, ∀ c ∈ line.toList, Python.isLineBreak c = false := by
  have hall : (hysteriaLines bare).all (fun line =>
      line.toList.all fun c => !Python.isLineBreak c) = true := by
    cases bare
    all_goals decide
  simpa using hall

/-- A document is found by its text, whichever comes first. -/
theorem compose_loader {lines other : List String} {root node : YamlNode}
    (h : ∀ line ∈ lines, ∀ c ∈ line.toList, Python.isLineBreak c = false)
    (hne : linesText other ≠ linesText lines)
    {validate : Data → Except String ConglomerateConfig} {documents : List (List String × YamlNode)}
    (hdocuments : documents = [(lines, root), (other, node)] ∨
      documents = [(other, node), (lines, root)]) :
    (loader documents validate).yaml.compose (String.ofList (linesText lines)) =
      .ok (some root, false) := by
  simp only [loader, String.toList_ofList, universalNewlines_linesText h]
  rcases hdocuments with rfl | rfl
  · simp
  · simp [hne]

theorem hysteriaLines_ne (bare : Bool) :
    linesText (hysteriaLines !bare) ≠ linesText (hysteriaLines bare) := by
  intro h
  have hlength := congrArg List.length h
  revert hlength
  cases bare
  all_goals decide +kernel

theorem hysteria_compose (bare : Bool) :
    hysteriaLoader.yaml.compose (hysteriaText bare) = .ok (some (hysteriaRoot bare), false) := by
  unfold hysteriaLoader hysteriaText
  cases bare with
  | true => exact compose_loader (hysteriaLines_plain true) (hysteriaLines_ne true) (.inl rfl)
  | false => exact compose_loader (hysteriaLines_plain false) (hysteriaLines_ne false) (.inr rfl)

theorem closeText_hysteriaText (bare : Bool) :
    closeText (hysteriaText bare) = hysteriaText bare := by
  apply closeText_linesText
  rw [hysteriaLines]
  exact List.append_ne_nil_of_right_ne_nil _ (List.cons_ne_nil _ _)

theorem hysteria_parses (bare : Bool) :
    ((Topology.ofText hysteriaLoader.yaml (hysteriaText bare)).map fun t =>
      t.regions.map (·.hysteria)).toOption = some [bare] := by
  have hlines : Python.splitlines (hysteriaText bare) = hysteriaLines bare :=
    splitlines_linesText (hysteriaLines_plain bare)
  simp only [Topology.ofText, closeText_hysteriaText, hlines, composeRoot, hysteria_compose]
  cases bare
  all_goals decide

theorem hysteria_loads (bare : Bool) :
    hysteriaLoader.load (hysteriaText bare) = some hysteriaConfig := by
  rw [Loader.load, hysteriaLoader, compose_universalNewlines, ← hysteriaLoader, Loader.data,
    hysteria_compose]
  cases bare
  all_goals decide +kernel

theorem plainKey_plain (value : String) (index line column : ℕ) :
    PlainKey (plain value index line column) :=
  ⟨value, ⟨index, line, column⟩, ⟨index + value.length, line, column + value.length⟩, rfl⟩

theorem itemsAt_hysteriaRoot (bare : Bool) :
    itemsAt (hysteriaRoot bare) "regions" = [hysteriaRegionNode bare] := rfl

/-- Whether the node is a scalar of a text. -/
def isTextScalar : YamlNode → Bool
  | .scalar tag _ _ _ => tag ≠ binaryTag
  | _ => false

theorem hysteriaRegion_plain (bare : Bool) : PlainRegion (hysteriaRegionNode bare) where
  mapping := by
    refine ⟨rfl, ?_⟩
    cases bare
    all_goals
      simp only [List.cons_append, List.nil_append, Bool.false_eq_true, if_true, if_false, bareKey,
        List.forall_mem_cons, plainKey_plain, true_and]
      exact fun e he => absurd he List.not_mem_nil
  texts := by
    intro key hkey value hvalue
    have hscalar : ["id", "type", "protocol", "lb_strategy", "lb_fallback"].all (fun key =>
        (valueAt (hysteriaRegionNode bare) key).all isTextScalar) = true := by
      cases bare
      all_goals decide
    have hvalue := Option.all_eq_true _ _ |>.mp (List.all_eq_true.mp hscalar key hkey) value hvalue
    cases value with
    | scalar tag text start stop => exact ⟨tag, text, start, stop, rfl, of_decide_eq_true hvalue⟩
    | sequence | mapping => cases hvalue
  warp := by
    have hnone : valueAt (hysteriaRegionNode bare) "warp" = none := by
      cases bare
      all_goals rfl
    simp [hnone]
  nodes := by
    have hnil : itemsAt (hysteriaRegionNode bare) "nodes" = [] := by
      cases bare
      all_goals rfl
    simp [hnil]

theorem hysteria_plain (bare : Bool) : PlainDocument (hysteriaRoot bare) where
  mapping := by
    refine ⟨rfl, ?_⟩
    simp only [List.forall_mem_cons, plainKey_plain, true_and]
    exact fun e he => absurd he List.not_mem_nil
  regions := by
    rw [itemsAt_hysteriaRoot, List.forall_mem_singleton]
    exact hysteriaRegion_plain bare

end Sample

/-- A region without `hysteria:` is seen as it is loaded. -/
theorem editor_agrees_iff_plain : ∃ t,
    Topology.ofText Sample.hysteriaLoader.yaml (Sample.hysteriaText false) = .ok t ∧
      (t.Agrees Sample.hysteriaConfig ↔
        (∀ region ∈ itemsAt (Sample.hysteriaRoot false) "regions", ¬ BareHysteria region) ∧
          ∀ region ∈ itemsAt (Sample.hysteriaRoot false) "regions",
            ∀ value ∈ routeValues region, SpelledAlike Sample.hysteriaLoader value) := by
  have hparse := Sample.hysteria_parses false
  rw [toOption_eq_some, map_eq_ok] at hparse
  obtain ⟨t, hparse, -⟩ := hparse
  have hclose := Sample.closeText_hysteriaText false
  have hroot : composeRoot Sample.hysteriaLoader.yaml (closeText (Sample.hysteriaText false)) =
      .ok (Sample.hysteriaRoot false) := by
    rw [hclose, composeRoot, Sample.hysteria_compose]
    rfl
  exact ⟨t, hparse, editor_agrees_iff (Sample.documented_loader Sample.hysteriaValidate_reads)
    hparse (Sample.hysteria_loads false) hroot (Sample.hysteria_plain false) (by rw [hclose])⟩

/-- An empty `hysteria:` is a listener to the editor and none to the loader. -/
theorem bare_hysteria_differs :
    ¬ ∀ (t : Topology) (cfg : ConglomerateConfig),
      Topology.ofText Sample.hysteriaLoader.yaml (Sample.hysteriaText true) = .ok t →
        Sample.hysteriaLoader.load (Sample.hysteriaText true) = some cfg → t.Agrees cfg := by
  intro h
  have hparse := Sample.hysteria_parses true
  rw [toOption_eq_some, map_eq_ok] at hparse
  obtain ⟨t, hparse, hflags⟩ := hparse
  have hagrees := h t _ hparse (Sample.hysteria_loads true)
  have hviews := congrArg (List.map RegionView.hysteria) hagrees.regions
  rw [List.map_map] at hviews
  have hflags' : t.regions.map (RegionView.hysteria ∘ RegionItem.view) = [true] := hflags
  rw [hflags'] at hviews
  revert hviews
  decide

end HexRift
