import HexRift.Verification.Insertion

/-! # A text read again

What the editor finds in a text laid out in block lines, and what it finds there once a node is
added. -/

namespace HexRift

open Checks

/-! ## Lists of regions -/

section Lists

variable {α β ε : Type}

theorem mapEach_append_cons {f : α → Except ε β} {xs ys : List α} {x : α} {out : List β} :
    mapEach (xs ++ x :: ys) f = .ok out ↔ ∃ bs b cs, mapEach xs f = .ok bs ∧ f x = .ok b ∧
      mapEach ys f = .ok cs ∧ out = bs ++ b :: cs := by
  induction xs generalizing out with
  | nil =>
      simp only [List.nil_append, mapEach, bind_eq_ok, pure_eq_ok]
      constructor
      · rintro ⟨b, hb, cs, hcs, rfl⟩
        exact ⟨[], b, cs, rfl, hb, hcs, rfl⟩
      · rintro ⟨_, b, cs, hnil, hb, hcs, rfl⟩
        cases hnil
        exact ⟨b, hb, cs, hcs, rfl⟩
  | cons a xs ih =>
      simp only [List.cons_append, mapEach, bind_eq_ok, pure_eq_ok, ih]
      constructor
      · rintro ⟨d, hd, _, ⟨bs, b, cs, hbs, hb, hcs, rfl⟩, rfl⟩
        exact ⟨d :: bs, b, cs, ⟨d, hd, bs, hbs, rfl⟩, hb, hcs, rfl⟩
      · rintro ⟨_, b, cs, ⟨d, hd, bs, hbs, rfl⟩, hb, hcs, rfl⟩
        exact ⟨d, hd, _, ⟨bs, b, cs, hbs, hb, hcs, rfl⟩, rfl⟩

theorem mapEach_length {f : α → Except ε β} {xs : List α} {ys : List β}
    (h : mapEach xs f = .ok ys) : ys.length = xs.length :=
  (forall₂_of_mapEach h).length_eq.symm

theorem append_cons_inj_of_length {xs xs' ys ys' : List α} {x x' : α}
    (h : xs ++ x :: ys = xs' ++ x' :: ys') (hlength : xs.length = xs'.length) :
    xs = xs' ∧ x = x' ∧ ys = ys' := by
  obtain ⟨hxs, hrest⟩ := List.append_inj h hlength
  obtain ⟨hx, hys⟩ := List.cons.inj hrest
  exact ⟨hxs, hx, hys⟩

end Lists

/-- Regions of the same contents are seen alike, wherever they stand. -/
theorem mapEach_regionItem_of_content {yaml : Yaml} {lines lines' : List String}
    {out out' : List (YamlNode × ℕ × ℕ)} (h : out.map (·.1.content) = out'.map (·.1.content))
    (hwithin : ∀ item ∈ out', item.1.Within lines'.length) {regions : List RegionItem}
    (hregions : mapEach out (regionItem yaml lines) = .ok regions) :
    ∃ regions', mapEach out' (regionItem yaml lines') = .ok regions' ∧
      regions'.map RegionItem.view = regions.map RegionItem.view := by
  induction out generalizing out' regions with
  | nil =>
      rw [List.map_nil, eq_comm, List.map_eq_nil_iff] at h
      subst h
      exact ⟨regions, hregions, rfl⟩
  | cons item out ih =>
      cases out' with
      | nil => cases h
      | cons item' out' =>
          rw [List.map_cons, List.map_cons, List.cons.injEq] at h
          simp only [mapEach, bind_eq_ok, pure_eq_ok] at hregions ⊢
          obtain ⟨r, hr, rs, hrs, rfl⟩ := hregions
          obtain ⟨hseen, -, -⟩ := regionItem_eq_ok.mp hr
          obtain ⟨r', hr', hview, -⟩ := hseen.of_content h.1 (hwithin item' List.mem_cons_self)
            item'.2.1 item'.2.2
          obtain ⟨rs', hrs', hviews⟩ :=
            ih h.2 (fun other hother => hwithin other (List.mem_cons_of_mem item' hother)) hrs
          refine ⟨r' :: rs', ⟨r', hr', rs', hrs', rfl⟩, ?_⟩
          rw [List.map_cons, List.map_cons, hview, hviews]

/-! ## What the editor finds -/

/-- The nodes are read of their parts, in order. -/
def PartsSeen (parts : List NodePart) (nodes : List NodeItem) : Prop :=
  List.Forall₂ (fun p n => NodeSeen p.node n) parts nodes

/-- What the editor finds in a layout: its regions around the one that is opened. -/
structure Layout.Read (L : Layout) (t : Topology) (rs₁ : List RegionItem) (r : RegionItem)
    (rs₂ : List RegionItem) : Prop where
  lines : t.lines = L.lines
  regions : t.regions = rs₁ ++ r :: rs₂
  index : rs₁.length = L.regions₁.length
  nodesLine : ∃ row, r.nodesLine = some row ∧ row + 1 = L.top.length
  nodesError : r.nodesError = none
  emptyFlow : r.emptyFlowNodes = none
  fallbackLine : r.lbFallbackLine = none ↔ L.fieldsAt "lb_fallback" = []
  nodes : PartsSeen L.parts r.nodes
  located : ∀ k n, r.nodes[k]? = some n → ∃ p, L.parts[k]? = some p ∧
    n.start = L.top.length + partRows L.parts k + p.above.length ∧
    contentEnd L.lines n.start n.stop = .ok (L.top.length + partRows L.parts (k + 1))

theorem NodeSeen.of_content {n n' : YamlNode} {x : NodeItem} (h : NodeSeen n x)
    (hc : n.content = n'.content) : NodeSeen n' x := by
  obtain ⟨role, hrole, hbackup⟩ := h.backup
  exact ⟨scalarText_of_content (.of_eq hc) h.id, scalarText_of_content (.of_eq hc) h.hostname,
    role, scalarText_of_content (.of_eq hc) hrole, hbackup⟩

theorem NodesPlaced.partsSeen {line : ℕ} {ps : List NodePart} {ns : List YamlNode}
    (h : NodesPlaced line ps ns) {items : List NodeItem}
    (hitems : List.Forall₂ NodeSeen ns items) : PartsSeen ps items := by
  induction h generalizing items with
  | nil =>
      cases hitems
      exact .nil
  | cons content start tail ih =>
      cases hitems with
      | cons hitem hitems => exact .cons (hitem.of_content content) (ih hitems)

theorem emptyFlow_block {tag : String} {items : List YamlNode} {start stop : Mark} :
    emptyFlow (some (.sequence tag items false start stop)) = none := by
  cases items with
  | nil => rfl
  | cons item items => rfl

/-- The sequence of the opened nodes read as the editor reads it. -/
theorem Layout.Nodes.itemNodes_seen {L : Layout} {nodes : List YamlNode} {start stop : Mark}
    {tag : String} (h : L.Nodes nodes start stop) (htag : tag ≠ nullTag) {lines : List String}
    {items : List NodeItem}
    (hitems : itemNodes lines (some (.sequence tag nodes false start stop)) = .ok items) :
    PartsSeen L.parts items := by
  have hseen := HexRift.itemNodes_seen hitems
  rw [blockItems_sequence htag, Option.getD_some] at hseen
  exact h.placed.partsSeen hseen

/-- How the regions around the opened one are read. -/
theorem OpenTree.regions_seen {T : OpenTree} {yaml : Yaml} {lines : List String} {t : Topology}
    (hkey : isKey "regions" T.regionsKey = true) (htag : T.regionsTag ≠ nullTag)
    (h : TopologySeen yaml lines T.root t) :
    ∃ out₁ s e out₂ rs₁ r rs₂, out₁.map (·.1) = T.regions₁ ∧ out₂.map (·.1) = T.regions₂ ∧
      mapEach out₁ (regionItem yaml lines) = .ok rs₁ ∧
      regionItem yaml lines (T.region, s, e) = .ok r ∧
      mapEach out₂ (regionItem yaml lines) = .ok rs₂ ∧ t.regions = rs₁ ++ r :: rs₂ := by
  obtain ⟨value, items, out, hvalue, hitems, hspans, hregions, -⟩ := h.regions
  rw [OpenTree.root] at hvalue
  obtain rfl := Option.some.inj (entry_self hkey hvalue).1
  rw [OpenTree.regions, blockItems_sequence htag, Option.some.injEq] at hitems
  have hfst := spans_map_fst hspans
  rw [← hitems, List.map_eq_append_iff] at hfst
  obtain ⟨out₁, rest, rfl, hout₁, hrest⟩ := hfst
  rw [List.map_eq_cons_iff] at hrest
  obtain ⟨⟨region, s, e⟩, out₂, rfl, rfl, hout₂⟩ := hrest
  obtain ⟨rs₁, r, rs₂, hrs₁, hr, hrs₂, hall⟩ := mapEach_append_cons.mp hregions
  exact ⟨out₁, s, e, out₂, rs₁, r, rs₂, hout₁, hout₂, hrs₁, hr, hrs₂, hall⟩

/-! ## Another text of the same document -/

/-- The layouts differ in the nodes of the region and its `lb_fallback` alone. -/
structure Layout.Extends (L L' : Layout) : Prop where
  entries₁ : L'.entries₁ = L.entries₁
  entries₂ : L'.entries₂ = L.entries₂
  regions₁ : L'.regions₁ = L.regions₁
  regions₂ : L'.regions₂ = L.regions₂
  fields : ∀ key, key ≠ "lb_fallback" → L'.fieldsAt key = L.fieldsAt key

theorem entryContents_append (xs ys : List (YamlNode × YamlNode)) :
    entryContents (xs ++ ys) = entryContents xs ++ entryContents ys := by
  rw [entryContents_eq_map, entryContents_eq_map, entryContents_eq_map, List.map_append]

section Reread

variable {L L' : Layout} {T T' : OpenTree}

/-- An entry of the region besides its nodes. -/
theorem Layout.Composed.entry_region (hc : L.Composed T) {key : String} (hkey : key ≠ "nodes")
    {value : Option YamlNode} :
    entry (some T.region) key = .ok value →
      L.fieldsAt key = (value.map (·.content)).toList := by
  intro hvalue
  rw [OpenTree.region, entry_append_cons (isKey_of_ne hc.nodesKey hkey), entry_mapping] at hvalue
  rw [Layout.fieldsAt, entryContents_append, ← hc.fields₁, ← hc.fields₂, ← entryContents_append,
    filter_entryContents, hvalue, Option.toList_map]

theorem Layout.Composed.entry_region_total (hc : L.Composed T) {key : String}
    (hkey : key ≠ "nodes") {o : Option YamlNode} (h : L.fieldsAt key = o.toList) :
    ∃ value, entry (some T.region) key = .ok value ∧ value.map (·.content) = o := by
  rw [Layout.fieldsAt, entryContents_append, ← hc.fields₁, ← hc.fields₂, ← entryContents_append,
    filter_entryContents] at h
  obtain ⟨value, hvalue, hsame⟩ := exists_toList_of_map h
  refine ⟨value, ?_, hsame⟩
  rw [OpenTree.region, entry_append_cons (isKey_of_ne hc.nodesKey hkey), entry_mapping]
  exact hvalue

theorem Layout.Composed.sameEntry_region (hc : L.Composed T) (hc' : L'.Composed T')
    {key : String} (hkey : key ≠ "nodes") (hfields : L'.fieldsAt key = L.fieldsAt key) :
    SameEntry (some T.region) (some T'.region) key := by
  intro value hvalue
  obtain ⟨value', hvalue', hsame⟩ :=
    hc'.entry_region_total hkey (hfields.trans (hc.entry_region hkey hvalue))
  exact ⟨value', hvalue', hsame.symm⟩

theorem Layout.Composed.fieldsAt_eq_nil (hc : L.Composed T) {key : String} :
    L.fieldsAt key = [] ↔ ∀ e ∈ T.fields₁ ++ T.fields₂, isKey key e.1 = false := by
  rw [Layout.fieldsAt, entryContents_append, ← hc.fields₁, ← hc.fields₂, ← entryContents_append,
    filter_entryContents, List.map_map, List.map_eq_nil_iff, List.filter_eq_nil_iff]
  exact forall₂_congr fun e _ => by rw [Bool.not_eq_true]

/-- No other entry of the region has the key of its nodes. -/
theorem Layout.Composed.nodes_alone (hc : L.Composed T) (hc' : L'.Composed T')
    (hfields : L'.fieldsAt "nodes" = L.fieldsAt "nodes")
    (h : ∃ value, entry (some T.region) "nodes" = .ok value) :
    entry (some T'.region) "nodes" = .ok (some T'.sequence) := by
  obtain ⟨value, hvalue⟩ := h
  rw [OpenTree.region] at hvalue
  obtain ⟨-, hothers, -⟩ := entry_self hc.nodesKey hvalue
  rw [OpenTree.region]
  apply entry_self_of_forall hc'.nodesKey
  apply hc'.fieldsAt_eq_nil.mp
  rw [hfields]
  exact hc.fieldsAt_eq_nil.mpr hothers

theorem Layout.Composed.read {yaml : Yaml} {t : Topology} (hc : L.Composed T) (hL : L.WellFormed)
    (h : TopologySeen yaml L.lines T.root t) :
    ∃ rs₁ r rs₂, L.Read t rs₁ r rs₂ := by
  obtain ⟨out₁, s, e, out₂, rs₁, r, rs₂, hout₁, -, hrs₁, hr, -, hall⟩ :=
    OpenTree.regions_seen hc.regionsKey hc.regionsTag h
  obtain ⟨hseen, -, -⟩ := regionItem_eq_ok.mp hr
  obtain ⟨value, hvalue, hnodes, herror, hflow⟩ := hseen.nodes
  rw [OpenTree.region] at hvalue
  obtain ⟨rfl, -, hline⟩ := entry_self hc.nodesKey hvalue
  have hindex : rs₁.length = L.regions₁.length := by
    have hcount := congrArg List.length hc.regions₁
    rw [contents_eq_map, contents_eq_map, List.length_map, List.length_map] at hcount
    rw [mapEach_length hrs₁, ← hcount, ← hout₁, List.length_map]
  refine ⟨rs₁, r, rs₂, h.text, hall, hindex, ⟨T.nodesKey.startMark.line, ?_, hc.line⟩, ?_, ?_,
    ?_, hc.nodes.itemNodes_seen hc.nodesTag hnodes,
    fun k n hn => hc.nodes.located hL hc.nodesTag hnodes hn⟩
  · rw [hseen.nodesLine, OpenTree.region, hline]
  · rw [herror, nodesError, OpenTree.sequence, blockItems_sequence hc.nodesTag]
    rfl
  · rw [hflow, OpenTree.sequence, emptyFlow_block]
  · have hother : isKey "lb_fallback" T.nodesKey = false := isKey_of_ne hc.nodesKey (by decide)
    rw [hseen.lbFallbackLine, OpenTree.region, keyLine, Option.map_eq_none_iff,
      List.find?_eq_none, hc.fieldsAt_eq_nil, List.forall_mem_append, List.forall_mem_append,
      List.forall_mem_cons, hother]
    simp

theorem Layout.Composed.region_seen {yaml : Yaml} {t : Topology} {rs₁ rs₂ : List RegionItem}
    {r : RegionItem} (hc : L.Composed T) (h : TopologySeen yaml L.lines T.root t)
    (hread : L.Read t rs₁ r rs₂) : RegionSeen yaml L.lines T.region r := by
  obtain ⟨out₁, s, e, out₂, rs₁₀, r₀, rs₂₀, hout₁, -, hrs₁, hr, -, hall⟩ :=
    OpenTree.regions_seen hc.regionsKey hc.regionsTag h
  have hindex : rs₁₀.length = rs₁.length := by
    have hcount := congrArg List.length hc.regions₁
    rw [contents_eq_map, contents_eq_map, List.length_map, List.length_map] at hcount
    rw [mapEach_length hrs₁, hread.index, ← hcount, ← hout₁, List.length_map]
  obtain ⟨-, rfl, -⟩ := append_cons_inj_of_length (hall.symm.trans hread.regions) hindex
  exact (regionItem_eq_ok.mp hr).1

theorem nodeItem_of_seen {n : YamlNode} {x : NodeItem} (h : NodeSeen n x) (s e : ℕ) :
    nodeItem (n, s, e) = .ok { x with start := s, stop := e } := by
  obtain ⟨role, hrole, hbackup⟩ := h.backup
  simp only [nodeItem, bind_eq_ok, pure_eq_ok]
  exact ⟨x.id, h.id, x.hostname, h.hostname, role, hrole, by rw [hbackup]⟩

theorem Layout.Nodes.itemNodes_total {nodes : List YamlNode} {start stop : Mark} {tag : String}
    (h : L.Nodes nodes start stop) (hL : L.WellFormed) (htag : tag ≠ nullTag)
    (hparts : ∀ p ∈ L.parts, ∃ x, NodeSeen p.node x) :
    ∃ items, itemNodes L.lines (some (.sequence tag nodes false start stop)) = .ok items := by
  rw [itemNodes_some, blockItems_sequence htag, Option.getD_some, h.spans_eq_ok hL]
  refine mapEach_total.mpr fun item hitem => ?_
  have hnode : item.1 ∈ nodes := (List.of_mem_zip hitem).1
  have hcontent : item.1.content ∈ L.parts.map fun p => p.node.content := by
    rw [← h.placed.contents_eq]
    exact List.mem_map_of_mem hnode
  obtain ⟨p, hp, hsame⟩ := List.mem_map.mp hcontent
  obtain ⟨x, hx⟩ := hparts p hp
  exact ⟨_, nodeItem_of_seen (hx.of_content hsame) item.2.1 item.2.2⟩

theorem itemsWithin_iff {count : ℕ} {items : List YamlNode} :
    ItemsWithin count items ↔ ∀ item ∈ items, item.startMark.line < count ∧ item.Within count := by
  induction items with
  | nil => simp [ItemsWithin]
  | cons item items ih => rw [ItemsWithin, ih, List.forall_mem_cons, and_assoc]

theorem OpenTree.regions_within {count : ℕ} (h : T.root.Within count) : T.regions.Within count := by
  have hentries := entriesWithin_iff.mp h
  exact hentries (T.regionsKey, T.regions) (List.mem_append_right _ List.mem_cons_self)

/-- What is read of the document does not change but for the nodes of the region. -/
structure Rereads (t : Topology) (rs₁ : List RegionItem) (r : RegionItem) (rs₂ : List RegionItem)
    (t' : Topology) (rs₁' : List RegionItem) (r' : RegionItem) (rs₂' : List RegionItem) :
    Prop where
  before : rs₁'.map RegionItem.view = rs₁.map RegionItem.view
  after : rs₂'.map RegionItem.view = rs₂.map RegionItem.view
  region : { r'.view with nodes := [], lbFallback := none } =
    { r.view with nodes := [], lbFallback := none }
  error : t'.hubRoutes.error = t.hubRoutes.error
  destinations : t'.hubRoutes.items.map (·.destination) = t.hubRoutes.items.map (·.destination)

theorem Layout.Composed.same_root (hc : L.Composed T) (hc' : L'.Composed T')
    (hext : L.Extends L') {key : String} (hkey : key ≠ "regions") :
    SameEntry (some T.root) (some T'.root) key := by
  rw [OpenTree.root, OpenTree.root]
  apply sameEntry_append_cons
  · rw [hc.entries₁, hc'.entries₁, hext.entries₁]
  · rw [hc.entries₂, hc'.entries₂, hext.entries₂]
  · exact isKey_of_ne hc.regionsKey hkey
  · exact isKey_of_ne hc'.regionsKey hkey

theorem Layout.Composed.regions_alone (hc : L.Composed T) (hc' : L'.Composed T')
    (hext : L.Extends L') {value : YamlNode}
    (h : entry (some T.root) "regions" = .ok (some value)) :
    entry (some T'.root) "regions" = .ok (some T'.regions) ∧
      keyLine (some T'.root) "regions" = some T'.regionsKey.startMark.line := by
  rw [OpenTree.root] at h
  obtain ⟨-, hothers, -⟩ := entry_self hc.regionsKey h
  have hcontents : entryContents (T.entries₁ ++ T.entries₂) =
      entryContents (T'.entries₁ ++ T'.entries₂) := by
    rw [entryContents_append, entryContents_append, hc.entries₁, hc.entries₂, hc'.entries₁,
      hc'.entries₂, hext.entries₁, hext.entries₂]
  have hentry : entry (some T'.root) "regions" = .ok (some T'.regions) := by
    rw [OpenTree.root]
    exact entry_self_of_forall hc'.regionsKey (forall_isKey_of_contents hcontents hothers)
  refine ⟨hentry, ?_⟩
  rw [OpenTree.root] at hentry ⊢
  exact (entry_self hc'.regionsKey hentry).2.2

theorem map_content_of_fst {out out' : List (YamlNode × ℕ × ℕ)} {items items' : List YamlNode}
    (hout : out.map (·.1) = items) (hout' : out'.map (·.1) = items')
    (h : contents items = contents items') :
    out.map (·.1.content) = out'.map (·.1.content) := by
  rw [contents_eq_map, contents_eq_map, ← hout, ← hout', List.map_map, List.map_map] at h
  exact h

/-- The opened region of the other text. -/
theorem Layout.Composed.reread_region {yaml : Yaml} {r : RegionItem} (hc : L.Composed T)
    (hc' : L'.Composed T') (hL' : L'.WellFormed) (hext : L.Extends L')
    (hseen : RegionSeen yaml L.lines T.region r)
    (hparts : ∀ p ∈ L'.parts, ∃ x, NodeSeen p.node x) {fallback' : Option String}
    (hfallback' : scalarText (some T'.region) "lb_fallback" = .ok fallback') (s e : ℕ) :
    ∃ r', regionItem yaml L'.lines (T'.region, s, e) = .ok r' ∧
      { r'.view with nodes := [], lbFallback := none } =
        { r.view with nodes := [], lbFallback := none } ∧ r'.lbFallback = fallback' := by
  obtain ⟨value, hvalue, -⟩ := hseen.nodes
  have hvalue' := hc.nodes_alone hc' (hext.fields "nodes" (by decide)) ⟨value, hvalue⟩
  obtain ⟨items', hitems'⟩ := hc'.nodes.itemNodes_total hL' hc'.nodesTag hparts
  have hentries : ∀ key, key ≠ "nodes" → key ≠ "lb_fallback" →
      SameEntry (some T.region) (some T'.region) key :=
    fun key hkey hfallback => hc.sameEntry_region hc' hkey (hext.fields key hfallback)
  obtain ⟨r', hr', hview, -⟩ := hseen.of_entries hentries hvalue' hitems' hfallback' s e
  refine ⟨r', hr', ?_, ?_⟩
  · rw [hview]
  · have hfallback := congrArg RegionView.lbFallback hview
    exact hfallback

theorem Layout.Composed.reread {yaml : Yaml} {t : Topology} {rs₁ rs₂ : List RegionItem}
    {r : RegionItem} (hc : L.Composed T) (hc' : L'.Composed T') (hL' : L'.WellFormed)
    (hext : L.Extends L') (hin : T'.root.Within L'.lines.length)
    (h : TopologySeen yaml L.lines T.root t) (hread : L.Read t rs₁ r rs₂)
    (hparts : ∀ p ∈ L'.parts, ∃ x, NodeSeen p.node x) {fallback' : Option String}
    (hfallback' : scalarText (some T'.region) "lb_fallback" = .ok fallback') :
    ∃ t' rs₁' r' rs₂', TopologySeen yaml L'.lines T'.root t' ∧ t'.eol = L'.eol ∧
      L'.Read t' rs₁' r' rs₂' ∧ Rereads t rs₁ r rs₂ t' rs₁' r' rs₂' ∧
        r'.lbFallback = fallback' := by
  obtain ⟨out₁, s, e, out₂, rs₁₀, r₀, rs₂₀, hout₁, hout₂, hrs₁, hr, hrs₂, hall⟩ :=
    OpenTree.regions_seen hc.regionsKey hc.regionsTag h
  have hindex : rs₁₀.length = rs₁.length := by
    have hcount := congrArg List.length hc.regions₁
    rw [contents_eq_map, contents_eq_map, List.length_map, List.length_map] at hcount
    rw [mapEach_length hrs₁, hread.index, ← hcount, ← hout₁, List.length_map]
  obtain ⟨rfl, rfl, rfl⟩ := append_cons_inj_of_length (hall.symm.trans hread.regions) hindex
  -- the regions of the other text, located by their own marks
  have hwithin : ItemsWithin L'.lines.length (T'.regions₁ ++ T'.region :: T'.regions₂) :=
    OpenTree.regions_within hin
  obtain ⟨out', hspans'⟩ := spans_total hwithin T'.regions
  have hfst := spans_map_fst hspans'
  rw [List.map_eq_append_iff] at hfst
  obtain ⟨out₁', rest, rfl, hout₁', hrest⟩ := hfst
  rw [List.map_eq_cons_iff] at hrest
  obtain ⟨⟨_, s', e'⟩, out₂', rfl, rfl, hout₂'⟩ := hrest
  have hitem : ∀ item ∈ T'.regions₁ ++ T'.region :: T'.regions₂, item.Within L'.lines.length :=
    fun item hmem => (itemsWithin_iff.mp hwithin item hmem).2
  obtain ⟨rs₁', hrs₁', hview₁⟩ := mapEach_regionItem_of_content
    (map_content_of_fst hout₁ hout₁' (by rw [hc.regions₁, hc'.regions₁, hext.regions₁]))
    (fun item hmem => hitem item.1 (by
      rw [← hout₁']
      exact List.mem_append_left _ (List.mem_map_of_mem hmem))) hrs₁
  obtain ⟨rs₂', hrs₂', hview₂⟩ := mapEach_regionItem_of_content
    (map_content_of_fst hout₂ hout₂' (by rw [hc.regions₂, hc'.regions₂, hext.regions₂]))
    (fun item hmem => hitem item.1 (by
      rw [← hout₂']
      exact List.mem_append_right _ (List.mem_cons_of_mem _ (List.mem_map_of_mem hmem)))) hrs₂
  obtain ⟨r', hr', hview, hfallback⟩ :=
    hc.reread_region hc' hL' hext (regionItem_eq_ok.mp hr).1 hparts hfallback' s' e'
  have hregions' := mapEach_append_cons.mpr ⟨rs₁', r', rs₂', hrs₁', hr', hrs₂', rfl⟩
  -- what else is read of the document
  obtain ⟨value, _, _, hvalue, -⟩ := h.regions
  obtain ⟨hvalue', hline'⟩ := hc.regions_alone hc' hext hvalue
  obtain ⟨holder, hholder, hdomain⟩ := h.domain
  obtain ⟨holder', hholder', hsame⟩ := hc.same_root hc' hext (by decide) holder hholder
  obtain ⟨hub', hhub', herror, hdestinations⟩ :=
    hubRouteItems_of_entry (hc.same_root hc' hext (by decide)) hin h.hubRoutes
  have hseen' : TopologySeen yaml L'.lines T'.root
      { eol := L'.eol, lines := L'.lines, regionsLine := T'.regionsKey.startMark.line
        emptyFlowRegions := emptyFlow (some T'.regions), regions := rs₁' ++ r' :: rs₂'
        aphelionDomain := t.aphelionDomain, hubRoutes := hub' } := by
    refine ⟨rfl, hline', ⟨T'.regions, _, _, hvalue', blockItems_sequence hc'.regionsTag, hspans',
      hregions', rfl⟩, ⟨holder', hholder', scalarText_of_content hsame hdomain⟩, hhub'⟩
  obtain ⟨_, _, _, hread'⟩ := hc'.read hL' hseen'
  have hindex' : rs₁'.length = L'.regions₁.length := by
    have hcount := congrArg List.length hview₁
    rw [List.length_map, List.length_map] at hcount
    rw [hcount, hread.index, hext.regions₁]
  obtain ⟨rfl, rfl, rfl⟩ :=
    append_cons_inj_of_length hread'.regions (hindex'.trans hread'.index.symm)
  exact ⟨_, _, _, _, hseen', rfl, hread', ⟨hview₁, hview₂, hview, herror, hdestinations⟩, hfallback⟩

end Reread

end HexRift
