import HexRift.Model.Load

/-! # Two readers of a region

The editor reads the composed nodes and the loader the data built from them. In a document
written plainly both find the same in a region, but for an empty `hysteria:` and for spellings
of `vless_route`. -/

namespace HexRift

open Checks

/-! ## What both read -/

/-- What is read of a region, by either side. -/
structure RegionView where
  id : Option String
  type : Option String
  nodes : List (Option String × Bool)
  lbFallback : Option String
  lbStrategy : Bool
  hysteria : Bool
  deriving DecidableEq

def RegionItem.view (r : RegionItem) : RegionView :=
  { id := r.id
    type := r.type
    nodes := r.nodes.map fun n => (n.id, n.backup)
    lbFallback := r.lbFallback
    lbStrategy := r.lbStrategyEnd.isSome
    hysteria := r.hysteria }

/-- Whether an exit region listens on Hysteria. -/
def ExitRegion.hysteriaListener (r : ExitRegion) : Bool :=
  r.protocol = some .hysteria || r.hysteria.isSome

def Region.view : Region → RegionView
  | .exit r =>
      { id := some r.id.val
        type := some RegionType.exit.value
        nodes := r.nodes.map fun n => (some n.id.val, n.lbRole = some .backup)
        lbFallback := r.lbFallback
        lbStrategy := r.lbStrategy.isSome
        hysteria := r.hysteriaListener }
  | .hub r =>
      { id := some r.id.val
        type := some RegionType.hub.value
        nodes := r.nodes.map fun n => (some n.id.val, false)
        lbFallback := none
        lbStrategy := false
        hysteria := false }

/-- Vless routes of a region, of its warp variant included. -/
def Region.vlessRoutes : Region → List ℕ
  | .exit r => (r.vlessRoute.toList ++ r.warp.toList.map (·.vlessRoute)).map (·.val)
  | .hub _ => []

/-! ## Plain documents -/

/-- Value under a key, if there is one. -/
def valueAt (node : YamlNode) (key : String) : Option YamlNode :=
  match entry (some node) key with
  | .ok value => value
  | .error _ => none

def itemsAt (node : YamlNode) (key : String) : List YamlNode := sequenceItems (valueAt node key)

/-- A mapping all of whose entries are its own: no `<<` among its keys. -/
def PlainMapping : YamlNode → Prop
  | .mapping tag entries _ _ _ => tag = mapTag ∧ ∀ e ∈ entries, PlainKey e.1
  | _ => False

/-- The value under the key is not binary data, and no mapping that stands for a text. -/
def PlainText (node : YamlNode) (key : String) : Prop :=
  ∀ value ∈ valueAt node key, ∃ tag text start stop,
    value = .scalar tag text start stop ∧ tag ≠ binaryTag

structure PlainNode (node : YamlNode) : Prop where
  mapping : PlainMapping node
  id : PlainText node "id"
  lbRole : PlainText node "lb_role"

structure PlainRegion (node : YamlNode) : Prop where
  mapping : PlainMapping node
  texts : ∀ key ∈ ["id", "type", "protocol", "lb_strategy", "lb_fallback"], PlainText node key
  warp : ∀ value ∈ valueAt node "warp",
    (∃ text start stop, value = .scalar nullTag text start stop) ∨ PlainMapping value
  nodes : ∀ item ∈ itemsAt node "nodes", PlainNode item

structure PlainDocument (root : YamlNode) : Prop where
  mapping : PlainMapping root
  regions : ∀ item ∈ itemsAt root "regions", PlainRegion item

/-! ## Where they differ -/

/-- An empty `hysteria:` in a region without `protocol: hysteria`. -/
def BareHysteria (region : YamlNode) : Prop :=
  (∃ value ∈ valueAt region "hysteria", value.tag = nullTag) ∧
    (valueAt region "protocol").bind (·.text?) ≠ some "hysteria"

/-- The values read as vless routes of a region. -/
def routeValues (region : YamlNode) : List YamlNode :=
  (valueAt region "vless_route").toList ++
    ((valueAt region "warp").bind (valueAt · "vless_route")).toList

/-- The integer the editor reads of a value, by its text. -/
def editorInt (yaml : Yaml) (value : YamlNode) : Option ℤ := value.text?.bind (yamlInt yaml)

/-- The spelling stands for the same integer to both. -/
def SpelledAlike (l : Loader) (value : YamlNode) : Prop :=
  editorInt l.yaml value = l.readInt value

/-! ## Values of a plain mapping -/

variable {l : Loader} {node value : YamlNode} {d : Data} {key : String}

theorem valueAt_eq {o : Option YamlNode} (h : entry (some node) key = .ok o) :
    valueAt node key = o := by
  rw [valueAt, h]

/-- The two sides find a key at the same value. -/
theorem entry_get (hl : l.Documented) (hplain : PlainMapping node) (hd : l.construct node = .ok d)
    {o : Option YamlNode} (h : entry (some node) key = .ok o) :
    (o = none ∧ d.get key = none) ∨
      ∃ value v, o = some value ∧ d.get key = some v ∧ l.construct value = .ok v := by
  cases node with
  | mapping tag entries flow start stop =>
      obtain ⟨rfl, hkeys⟩ := hplain
      have hget := hl.mapping entries flow start stop d hd hkeys key
      simp only [entry] at h
      split at h
      · rename_i hfilter
        cases h
        rw [lastValue, hfilter] at hget
        exact .inl ⟨rfl, hget⟩
      · rename_i e hfilter
        cases h
        rw [lastValue, hfilter] at hget
        obtain ⟨v, hv, hconstruct⟩ := hget
        exact .inr ⟨e.2, v, rfl, hv, hconstruct⟩
      · cases h
  | scalar | sequence => cases hplain

theorem scalarText_eq_ok {s : Option String} : scalarText (some node) key = .ok s ↔
    ∃ o, entry (some node) key = .ok o ∧ o.bind (·.text?) = s := by
  rw [scalarText, bind_eq_ok]
  simp only [pure_eq_ok]

/-- What the editor reads of a scalar is what pydantic reads, null aside. -/
theorem text?_of_readsText (hl : l.Documented) {tag text : String} {start stop : Mark} {x : String}
    (hd : l.construct (.scalar tag text start stop) = .ok d) (htag : tag ≠ binaryTag)
    (hx : ReadsText d x) : YamlNode.text? (.scalar tag text start stop) = some x := by
  have hnull : tag ≠ nullTag := by
    intro h
    have hd := (hl.null _ _ hd).mpr h
    subst hd
    cases hx
  obtain rfl := (hl.scalar _ _ _ _ _ _ hd hx).resolve_right htag
  rw [YamlNode.text?, if_neg hnull]

theorem scalarText_of_readsField (hl : l.Documented) (hplain : PlainMapping node)
    (htext : PlainText node key) (hd : l.construct node = .ok d) {s : Option String} {x : String}
    (hs : scalarText (some node) key = .ok s) (hx : ReadsField ReadsText (d.get key) x) :
    s = some x := by
  obtain ⟨o, ho, rfl⟩ := scalarText_eq_ok.mp hs
  obtain ⟨v, hv, hx⟩ := hx
  rcases entry_get hl hplain hd ho with ⟨-, hnone⟩ | ⟨value, w, rfl, hw, hvalue⟩
  · rw [hnone] at hv
    cases hv
  · rw [hw] at hv
    obtain rfl := Option.some.inj hv
    obtain ⟨tag, text, start, stop, rfl, htag⟩ := htext value (valueAt_eq ho)
    exact text?_of_readsText hl hvalue htag hx

theorem readsOptional_some {α : Type} {P : Data → α → Prop} {a : Option α}
    (h : ReadsOptional P (some d) a) : d = .null ∧ a = none ∨ ∃ x, a = some x ∧ P d x := by
  cases d with
  | null => exact .inl ⟨rfl, h⟩
  | bool | int | float | str | bytes | list | dict | other => exact .inr h

theorem scalarText_of_readsOptional (hl : l.Documented) (hplain : PlainMapping node)
    (htext : PlainText node key) (hd : l.construct node = .ok d) {s a : Option String}
    (hs : scalarText (some node) key = .ok s) (ha : ReadsOptional ReadsText (d.get key) a) :
    s = a := by
  obtain ⟨o, ho, rfl⟩ := scalarText_eq_ok.mp hs
  rcases entry_get hl hplain hd ho with ⟨rfl, hnone⟩ | ⟨value, v, rfl, hv, hvalue⟩
  · rw [hnone] at ha
    exact ha.symm
  · obtain ⟨tag, text, start, stop, rfl, htag⟩ := htext value (valueAt_eq ho)
    rw [hv] at ha
    rcases readsOptional_some ha with ⟨rfl, rfl⟩ | ⟨x, rfl, hx⟩
    · have htag := (hl.null _ _ hvalue).mp rfl
      simp only [YamlNode.tag] at htag
      simp [YamlNode.text?, htag]
    · exact text?_of_readsText hl hvalue htag hx

/-- A key the loader does not allow is not written. -/
theorem entry_of_get_none (hl : l.Documented) (hplain : PlainMapping node)
    (hd : l.construct node = .ok d) {o : Option YamlNode} (ho : entry (some node) key = .ok o)
    (hnone : d.get key = none) : o = none := by
  rcases entry_get hl hplain hd ho with ⟨rfl, -⟩ | ⟨value, v, rfl, hv, -⟩
  · rfl
  · rw [hnone] at hv
    cases hv

theorem scalarText_of_get_none (hl : l.Documented) (hplain : PlainMapping node)
    (hd : l.construct node = .ok d) {s : Option String}
    (hs : scalarText (some node) key = .ok s) (hnone : d.get key = none) : s = none := by
  obtain ⟨o, ho, rfl⟩ := scalarText_eq_ok.mp hs
  rw [entry_of_get_none hl hplain hd ho hnone]
  rfl

/-! ## Lists of items -/

theorem map_eq_map_iff_of_forall₂ {ι α β γ : Type} {S : ι → α → Prop} {R : ι → β → Prop}
    {f : α → γ} {g : β → γ} {p : ι → Prop} {items : List ι} {xs : List α} {ys : List β}
    (hxs : List.Forall₂ S items xs) (hys : List.Forall₂ R items ys)
    (h : ∀ i ∈ items, ∀ x y, S i x → R i y → (f x = g y ↔ p i)) :
    xs.map f = ys.map g ↔ ∀ i ∈ items, p i := by
  induction hxs generalizing ys with
  | nil =>
      cases hys
      simp
  | @cons i x items xs hx _ ih =>
      cases hys with
      | @cons _ y _ ys hy htail =>
          rw [List.map_cons, List.map_cons, List.cons.injEq, List.forall_mem_cons,
            h i (by simp) x y hx hy, ih htail fun j hj => h j (by simp [hj])]

theorem flatMap_eq_of_forall₂ {ι α β : Type} {R : ι → α → Prop} {f : ι → List β}
    {g : α → List β} {items : List ι} {xs : List α} (hxs : List.Forall₂ R items xs)
    (h : ∀ i ∈ items, ∀ x, R i x → g x = f i) : xs.flatMap g = items.flatMap f := by
  induction hxs with
  | nil => rfl
  | @cons i x items xs hx _ ih =>
      rw [List.flatMap_cons, List.flatMap_cons, h i (by simp) x hx,
        ih fun j hj => h j (by simp [hj])]

theorem exists_of_forall₂ {ι α : Type} {R : ι → α → Prop} {items : List ι} {xs : List α}
    (hxs : List.Forall₂ R items xs) {i : ι} (hi : i ∈ items) : ∃ x, R i x := by
  induction hxs with
  | nil => cases hi
  | cons hx _ ih =>
      rcases List.mem_cons.mp hi with rfl | hi
      · exact ⟨_, hx⟩
      · exact ih hi

theorem itemStarts_length {lines : List String} {column lower : ℕ} {items : List YamlNode}
    {starts : List ℕ} (h : itemStarts lines column lower items = .ok starts) :
    starts.length = items.length := by
  induction items generalizing lower starts with
  | nil =>
      cases h
      rfl
  | cons item items ih =>
      simp only [itemStarts, bind_eq_ok, pure_eq_ok] at h
      obtain ⟨start, -, rest, hrest, rfl⟩ := h
      rw [List.length_cons, List.length_cons, ih hrest]

/-- Spans are handed out to all items, in order. -/
theorem spans_map_fst {lines : List String} {seq : YamlNode} {items : List YamlNode}
    {out : List (YamlNode × ℕ × ℕ)} (h : spans lines seq items = .ok out) :
    out.map (·.1) = items := by
  simp only [spans, bind_eq_ok, pure_eq_ok] at h
  obtain ⟨starts, hstarts, rfl⟩ := h
  have hlength := itemStarts_length hstarts
  apply List.map_fst_zip
  rw [List.length_zip, List.length_append, List.length_tail, List.length_singleton]
  omega

/-- What is made of the items with their spans, by the items alone. -/
theorem forall₂_of_spans {α : Type} {S : YamlNode → α → Prop} {lines : List String}
    {seq : YamlNode} {items : List YamlNode} {out : List (YamlNode × ℕ × ℕ)} {xs : List α}
    {f : YamlNode × ℕ × ℕ → Except Error α} (hspans : spans lines seq items = .ok out)
    (hxs : mapEach out f = .ok xs) (h : ∀ item x, f item = .ok x → S item.1 x) :
    List.Forall₂ S items xs := by
  rw [← spans_map_fst hspans, List.forall₂_map_left_iff]
  exact (forall₂_of_mapEach hxs).imp h

/-- What is read of a composed node through its data. -/
def ReadsNode {α : Type} (l : Loader) (P : Data → α → Prop) (node : YamlNode) (x : α) : Prop :=
  ∃ d, l.construct node = .ok d ∧ P d x

/-- A value is spliced at the items of its sequence. -/
theorem blockItems_getD (hl : l.Documented) (hd : l.construct value = .ok d) :
    (blockItems (some value)).getD (sequenceItems (some value)) = sequenceItems (some value) := by
  cases value with
  | sequence tag items flow start stop =>
      have htag : (YamlNode.sequence tag items flow start stop).tag ≠ nullTag := by
        intro htag
        obtain ⟨ds, rfl, -⟩ := hl.sequence _ _ _ _ _ _ hd
        cases (hl.null _ _ hd).mpr htag
      simp only [blockItems, sequenceItems, if_neg htag]
      split_ifs
      all_goals rfl
  | scalar =>
      simp only [blockItems, sequenceItems]
      split_ifs
      all_goals rfl
  | mapping =>
      simp only [blockItems, sequenceItems]
      split_ifs
      all_goals rfl

/-- A list is read item by item. -/
theorem forall₂_of_readsList (hl : l.Documented) {α : Type} {P : Data → α → Prop}
    (hother : ∀ x, ¬ P .other x) (hd : l.construct value = .ok d) {xs : List α}
    (hxs : ReadsList P d xs) :
    List.Forall₂ (ReadsNode l P) (sequenceItems (some value)) xs := by
  cases d with
  | list ds =>
      obtain ⟨tag, items, flow, start, stop, rfl⟩ := hl.list _ _ hd
      obtain ⟨_, hds, hitems⟩ := hl.sequence _ _ _ _ _ _ hd
      cases hds
      simp only [ReadsList] at hxs
      simp only [sequenceItems]
      clear hd
      induction hitems generalizing xs with
      | nil =>
          cases hxs
          exact .nil
      | cons hv _ ih =>
          cases hxs with
          | cons hx hxs =>
              rcases hv with hv | rfl
              · exact .cons ⟨_, hv, hx⟩ (ih hxs)
              · exact absurd hx (hother _)
  | other =>
      obtain rfl : xs = [] := hxs
      cases value with
      | sequence =>
          obtain ⟨ds, hds, -⟩ := hl.sequence _ _ _ _ _ _ hd
          cases hds
      | scalar => exact .nil
      | mapping => exact .nil
  | null => cases hxs
  | bool => cases hxs
  | int => cases hxs
  | float => cases hxs
  | str => cases hxs
  | bytes => cases hxs
  | dict => cases hxs

/-! ## Nodes -/

structure NodeSeen (node : YamlNode) (n : NodeItem) : Prop where
  id : scalarText (some node) "id" = .ok n.id
  hostname : scalarText (some node) "hostname" = .ok n.hostname
  backup : ∃ role, scalarText (some node) "lb_role" = .ok role ∧
    n.backup = decide (role = some "backup")

theorem nodeItem_seen {item : YamlNode × ℕ × ℕ} {n : NodeItem} (h : nodeItem item = .ok n) :
    NodeSeen item.1 n := by
  simp only [nodeItem, bind_eq_ok, pure_eq_ok] at h
  obtain ⟨id, hid, hostname, hhostname, role, hrole, rfl⟩ := h
  exact ⟨hid, hhostname, role, hrole, rfl⟩

theorem nodeView_exit (hl : l.Documented) (hplain : PlainNode node)
    (hd : l.construct node = .ok d) {n : NodeItem} (hn : NodeSeen node n) {x : ExitNode}
    (hx : ReadsExitNode d x) :
    (n.id, n.backup) = (some x.id.val, decide (x.lbRole = some .backup)) := by
  obtain ⟨role, hrole, hbackup⟩ := hn.backup
  have hid := scalarText_of_readsField hl hplain.mapping hplain.id hd hn.id hx.id
  have hsame := scalarText_of_readsOptional hl hplain.mapping hplain.lbRole hd hrole hx.lbRole
  rw [hid, hbackup, hsame]
  congr 1
  cases x.lbRole with
  | none => rfl
  | some role =>
      cases role
      all_goals rfl

theorem nodeView_hub (hl : l.Documented) (hplain : PlainNode node)
    (hd : l.construct node = .ok d) {n : NodeItem} (hn : NodeSeen node n) {x : HubNode}
    (hx : ReadsHubNode d x) : (n.id, n.backup) = (some x.id.val, false) := by
  obtain ⟨role, hrole, hbackup⟩ := hn.backup
  have hid := scalarText_of_readsField hl hplain.mapping hplain.id hd hn.id hx.id
  have hsame := scalarText_of_get_none hl hplain.mapping hd hrole hx.lbRole
  rw [hid, hbackup, hsame]
  rfl

/-! ## Regions -/

/-- The nodes of a region, read of the value of `nodes`. -/
def itemNodes (lines : List String) (value : Option YamlNode) : Except Error (List NodeItem) :=
  match (blockItems value).getD (sequenceItems value), value with
  | [], _ => pure []
  | _, none => pure []
  | items, some value => do mapEach (← spans lines value items) nodeItem

theorem itemNodes_some {lines : List String} : itemNodes lines (some value) =
    spans lines value ((blockItems (some value)).getD (sequenceItems (some value))) >>=
      (mapEach · nodeItem) := by
  simp only [itemNodes]
  cases (blockItems (some value)).getD (sequenceItems (some value)) with
  | nil => rfl
  | cons item items => rfl

theorem itemNodes_seen {lines : List String} {value : Option YamlNode} {nodes : List NodeItem}
    (h : itemNodes lines value = .ok nodes) :
    List.Forall₂ NodeSeen ((blockItems value).getD (sequenceItems value)) nodes := by
  cases value with
  | none =>
      cases h
      exact .nil
  | some value =>
      rw [itemNodes_some, bind_eq_ok] at h
      obtain ⟨out, hspans, hnodes⟩ := h
      exact forall₂_of_spans hspans hnodes fun item n => nodeItem_seen

theorem itemNodes_bind {α : Type} {lines : List String} {value : Option YamlNode}
    {rest : List NodeItem → Except Error α} :
    (match (blockItems value).getD (sequenceItems value), value with
      | [], _ => pure [] >>= rest
      | _, none => pure [] >>= rest
      | items, some value => spans lines value items >>= fun out => mapEach out nodeItem >>= rest) =
      itemNodes lines value >>= rest := by
  unfold itemNodes
  split
  · rfl
  · rfl
  · rw [bind_assoc]

/-- What stands against an edit of the nodes. -/
def nodesError (node : YamlNode) (id : Option String) (value : Option YamlNode) :
    Option String :=
  let owner := s!"region {Python.reprOption id}"
  if isFlowMapping node then some (owner ++ ": must be a block mapping to edit")
  else if (blockItems value).isNone then
    some (owner ++ ": 'nodes:' must be a bare key or a block sequence to edit")
  else none

/-- How the fields of a region are read. -/
structure RegionSeen (yaml : Yaml) (lines : List String) (node : YamlNode) (r : RegionItem) :
    Prop where
  id : scalarText (some node) "id" = .ok r.id
  type : scalarText (some node) "type" = .ok r.type
  lbFallback : scalarText (some node) "lb_fallback" = .ok r.lbFallback
  lbFallbackLine : r.lbFallbackLine = keyLine (some node) "lb_fallback"
  strategy : ∃ text strategy, scalarText (some node) "lb_strategy" = .ok text ∧
    entry (some node) "lb_strategy" = .ok strategy ∧
    r.lbStrategyEnd = (if text.isSome then strategy else none).map (·.endMark.line)
  hysteria : ∃ protocol, scalarText (some node) "protocol" = .ok protocol ∧
    if protocol = some "hysteria" then r.hysteria = true
    else ∃ value, entry (some node) "hysteria" = .ok value ∧ r.hysteria = value.isSome
  routes : itemRoutes yaml node = .ok r.vlessRoutes
  nodes : ∃ value, entry (some node) "nodes" = .ok value ∧ itemNodes lines value = .ok r.nodes ∧
    r.nodesError = nodesError node r.id value ∧ r.emptyFlowNodes = emptyFlow value
  nodesLine : r.nodesLine = keyLine (some node) "nodes"

theorem RegionSeen.strategy_isSome {yaml : Yaml} {lines : List String} {r : RegionItem}
    (h : RegionSeen yaml lines node r) :
    ∃ text, scalarText (some node) "lb_strategy" = .ok text ∧
      r.lbStrategyEnd.isSome = text.isSome := by
  obtain ⟨text, strategy, htext, hstrategy, hend⟩ := h.strategy
  refine ⟨text, htext, ?_⟩
  obtain ⟨o, ho, rfl⟩ := scalarText_eq_ok.mp htext
  rw [ho] at hstrategy
  cases hstrategy
  rw [hend]
  cases strategy with
  | none => rfl
  | some value => cases h : value.text? <;> simp [h]

theorem RegionSeen.nodes_seen {yaml : Yaml} {lines : List String} {r : RegionItem}
    (h : RegionSeen yaml lines node r) :
    ∃ value, entry (some node) "nodes" = .ok value ∧
      List.Forall₂ NodeSeen ((blockItems value).getD (sequenceItems value)) r.nodes := by
  obtain ⟨value, hvalue, hnodes, -⟩ := h.nodes
  exact ⟨value, hvalue, itemNodes_seen hnodes⟩

theorem regionItem_eq_ok {yaml : Yaml} {lines : List String} {s e : ℕ} {r : RegionItem} :
    regionItem yaml lines (node, s, e) = .ok r ↔
      RegionSeen yaml lines node r ∧ r.start = s ∧ r.stop = e := by
  simp only [regionItem, bind_eq_ok]
  constructor
  · rintro ⟨id, hid, value, hvalue, text, htext, strategy, hstrategy, h⟩
    have h := itemNodes_bind.symm.trans h
    simp only [bind_eq_ok] at h
    obtain ⟨nodes, hnodes, type, htype, routes, hroutes, fallback, hfallback, protocol,
      hprotocol, h⟩ := h
    split at h
    · rename_i hprot
      cases h
      refine ⟨⟨hid, htype, hfallback, rfl, ⟨text, strategy, htext, hstrategy, rfl⟩,
        ⟨protocol, hprotocol, ?_⟩, hroutes, ⟨value, hvalue, hnodes, rfl, rfl⟩, rfl⟩, rfl, rfl⟩
      rw [if_pos hprot]
    · rename_i hprot
      simp only [bind_eq_ok, pure_eq_ok] at h
      obtain ⟨hysteria, hhysteria, _, rfl, rfl⟩ := h
      refine ⟨⟨hid, htype, hfallback, rfl, ⟨text, strategy, htext, hstrategy, rfl⟩,
        ⟨protocol, hprotocol, ?_⟩, hroutes, ⟨value, hvalue, hnodes, rfl, rfl⟩, rfl⟩, rfl, rfl⟩
      rw [if_neg hprot]
      exact ⟨hysteria, hhysteria, rfl⟩
  · rintro ⟨h, rfl, rfl⟩
    obtain ⟨text, strategy, htext, hstrategy, hend⟩ := h.strategy
    obtain ⟨protocol, hprotocol, hflag⟩ := h.hysteria
    obtain ⟨value, hvalue, hnodes, herror, hflow⟩ := h.nodes
    refine ⟨r.id, h.id, value, hvalue, text, htext, strategy, hstrategy, itemNodes_bind.trans ?_⟩
    simp only [bind_eq_ok]
    refine ⟨r.nodes, hnodes, r.type, h.type, r.vlessRoutes, h.routes, r.lbFallback, h.lbFallback,
      protocol, hprotocol, ?_⟩
    have hline := h.lbFallbackLine
    have hnodesLine := h.nodesLine
    cases r
    simp only at hend hflag herror hflow hline hnodesLine
    subst hend herror hflow hline hnodesLine
    split
    · rename_i hprot
      rw [if_pos hprot] at hflag
      subst hflag
      rfl
    · rename_i hprot
      rw [if_neg hprot] at hflag
      obtain ⟨hysteria, hhysteria, rfl⟩ := hflag
      rw [hhysteria]
      rfl

/-- Apart from the flag of the listener, a region is seen as it was loaded. -/
theorem view_eq_iff {r : RegionItem} {region : Region}
    (h : { r.view with hysteria := false } = { region.view with hysteria := false }) :
    r.view = region.view ↔ r.hysteria = region.view.hysteria := by
  constructor
  · intro hview
    rw [← hview]
    rfl
  · intro hflag
    have hr : r.view = { ({ r.view with hysteria := false } : RegionView) with
      hysteria := r.hysteria } := rfl
    rw [hr, h, hflag]

/-- Both sides see the same nodes. -/
theorem nodes_map_eq (hl : l.Documented) (hplain : PlainRegion node)
    (hd : l.construct node = .ok d) {α : Type} {P : Data → α → Prop}
    {view : α → Option String × Bool} (hother : ∀ x, ¬ P .other x)
    (hview : ∀ node d n x, PlainNode node → l.construct node = .ok d → NodeSeen node n → P d x →
      (n.id, n.backup) = view x)
    {yaml : Yaml} {lines : List String} {r : RegionItem} (hr : RegionSeen yaml lines node r)
    {xs : List α} (hxs : ReadsField (ReadsNodes P) (d.get "nodes") xs) :
    r.nodes.map (fun n => (n.id, n.backup)) = xs.map view := by
  obtain ⟨o, ho, hns⟩ := hr.nodes_seen
  obtain ⟨v, hv, hxs⟩ := hxs
  have hitems := hplain.nodes
  rw [itemsAt, valueAt_eq ho] at hitems
  obtain ⟨value, rfl, hvalue⟩ : ∃ value, o = some value ∧ l.construct value = .ok v := by
    rcases entry_get hl hplain.mapping hd ho with ⟨-, hnone⟩ | ⟨value, w, rfl, hw, hvalue⟩
    · rw [hnone] at hv
      cases hv
    · rw [hw] at hv
      cases hv
      exact ⟨value, rfl, hvalue⟩
  rw [blockItems_getD hl hvalue] at hns
  have hread : List.Forall₂ (ReadsNode l P) (sequenceItems (some value)) xs := by
    rcases hxs with ⟨rfl, rfl⟩ | hxs
    · cases value with
      | sequence =>
          obtain ⟨ds, hds, -⟩ := hl.sequence _ _ _ _ _ _ hvalue
          cases hds
      | scalar => exact .nil
      | mapping => exact .nil
    · exact forall₂_of_readsList hl hother hvalue hxs
  refine (map_eq_map_iff_of_forall₂ (p := fun _ => True) hns hread ?_).mpr fun _ _ => trivial
  intro item hitem n x hn hx
  obtain ⟨d, hd, hx⟩ := hx
  exact iff_true_intro (hview item d n x (hitems item hitem) hd hn hx)

theorem view_exit (hl : l.Documented) (hplain : PlainRegion node) (hd : l.construct node = .ok d)
    {lines : List String} {r : RegionItem} (hr : RegionSeen l.yaml lines node r) {x : ExitRegion}
    (hx : ReadsExitRegion l.laxInt d x) :
    { r.view with hysteria := false } = { (Region.exit x).view with hysteria := false } := by
  have hmap := hplain.mapping
  have hid := scalarText_of_readsField hl hmap (hplain.texts "id" (by simp)) hd hr.id hx.id
  have htype := scalarText_of_readsField hl hmap (hplain.texts "type" (by simp)) hd hr.type hx.type
  have hfallback := scalarText_of_readsOptional hl hmap (hplain.texts "lb_fallback" (by simp)) hd
    hr.lbFallback hx.lbFallback
  obtain ⟨text, htext, hstrategy⟩ := hr.strategy_isSome
  have hsame := scalarText_of_readsOptional hl hmap (hplain.texts "lb_strategy" (by simp)) hd
    htext hx.lbStrategy
  have hnodes : r.nodes.map (fun n => (n.id, n.backup)) =
      x.nodes.map fun n => (some n.id.val, decide (n.lbRole = some .backup)) :=
    nodes_map_eq hl hplain hd (fun x hx => by
      obtain ⟨_, hget, -⟩ := hx.id
      cases hget)
    (fun _ _ _ _ hplain hd hn hx => nodeView_exit hl hplain hd hn hx) hr hx.nodes
  simp only [RegionItem.view, Region.view, hid, htype, hfallback, hstrategy, hsame, hnodes,
    Option.isSome_map]

theorem view_hub (hl : l.Documented) (hplain : PlainRegion node) (hd : l.construct node = .ok d)
    {lines : List String} {r : RegionItem} (hr : RegionSeen l.yaml lines node r) {x : HubRegion}
    (hx : ReadsHubRegion d x) :
    { r.view with hysteria := false } = { (Region.hub x).view with hysteria := false } := by
  have hmap := hplain.mapping
  have hid := scalarText_of_readsField hl hmap (hplain.texts "id" (by simp)) hd hr.id hx.id
  have htype := scalarText_of_readsField hl hmap (hplain.texts "type" (by simp)) hd hr.type hx.type
  have hfallback := scalarText_of_get_none hl hmap hd hr.lbFallback (hx.extra _ (by simp))
  obtain ⟨text, htext, hstrategy⟩ := hr.strategy_isSome
  have hsame := scalarText_of_get_none hl hmap hd htext (hx.extra _ (by simp))
  have hnodes : r.nodes.map (fun n => (n.id, n.backup)) =
      x.nodes.map fun n => (some n.id.val, false) :=
    nodes_map_eq hl hplain hd (fun x hx => by
      obtain ⟨_, hget, -⟩ := hx.id
      cases hget)
    (fun _ _ _ _ hplain hd hn hx => nodeView_hub hl hplain hd hn hx) hr hx.nodes
  simp only [RegionItem.view, Region.view, hid, htype, hfallback, hstrategy, hsame, hnodes]
  rfl

/-! ## The Hysteria listener -/

theorem hysteria_exit_iff (hl : l.Documented) (hplain : PlainRegion node)
    (hd : l.construct node = .ok d) {lines : List String} {r : RegionItem}
    (hr : RegionSeen l.yaml lines node r) {x : ExitRegion} (hx : ReadsExitRegion l.laxInt d x) :
    r.hysteria = x.hysteriaListener ↔ ¬ BareHysteria node := by
  obtain ⟨protocol, hprotocol, hflag⟩ := hr.hysteria
  obtain ⟨p, hp, hptext⟩ := scalarText_eq_ok.mp hprotocol
  have hsame := scalarText_of_readsOptional hl hplain.mapping (hplain.texts "protocol" (by simp)) hd
    hprotocol hx.protocol
  have hlistens : protocol = some "hysteria" ↔ x.protocol = some .hysteria := by
    rw [hsame]
    cases x.protocol with
    | none => simp
    | some p =>
        cases p
        all_goals simp [ExitProtocol.value]
  unfold BareHysteria ExitRegion.hysteriaListener
  rw [valueAt_eq hp, hptext]
  by_cases hprot : protocol = some "hysteria"
  · rw [if_pos hprot] at hflag
    simp [hflag, hprot, hlistens.mp hprot]
  · rw [if_neg hprot] at hflag
    obtain ⟨o, ho, hflag⟩ := hflag
    have hx' := hx.hysteria
    rw [valueAt_eq ho, hflag, decide_eq_false (mt hlistens.mpr hprot), Bool.false_or]
    rcases entry_get hl hplain.mapping hd ho with ⟨rfl, hnone⟩ | ⟨value, v, rfl, hv, hvalue⟩
    · rw [hnone] at hx'
      obtain hx' : x.hysteria = none := hx'
      simp [hx']
    · rw [hv] at hx'
      have htag := hl.null _ _ hvalue
      rcases readsOptional_some hx' with ⟨rfl, hnone⟩ | ⟨y, hsome, -⟩
      · simp [hnone, htag.mp rfl, hprot]
      · have hnull : value.tag ≠ nullTag := by
          intro hnull
          obtain rfl := htag.mpr hnull
          cases hx'.symm.trans hsome
        simp [hsome, hnull]

theorem hysteria_hub_iff (hl : l.Documented) (hplain : PlainRegion node)
    (hd : l.construct node = .ok d) {lines : List String} {r : RegionItem}
    (hr : RegionSeen l.yaml lines node r) {x : HubRegion}
    (hx : ReadsHubRegion d x) : r.hysteria = false ↔ ¬ BareHysteria node := by
  obtain ⟨protocol, hprotocol, hflag⟩ := hr.hysteria
  have hnone := scalarText_of_get_none hl hplain.mapping hd hprotocol (hx.extra _ (by simp))
  rw [hnone, if_neg (by simp)] at hflag
  obtain ⟨o, ho, hflag⟩ := hflag
  obtain rfl := entry_of_get_none hl hplain.mapping hd ho (hx.extra _ (by simp))
  refine iff_of_true hflag fun hbare => ?_
  obtain ⟨⟨value, hvalue, -⟩, -⟩ := hbare
  rw [valueAt_eq ho] at hvalue
  cases hvalue

/-- A region is seen as it was loaded unless its `hysteria:` is empty. -/
theorem region_view_iff (hl : l.Documented) (hplain : PlainRegion node) {lines : List String}
    {r : RegionItem} (hr : RegionSeen l.yaml lines node r) {region : Region}
    (hregion : ReadsNode l (ReadsRegion l.laxInt) node region) :
    r.view = region.view ↔ ¬ BareHysteria node := by
  obtain ⟨d, hd, hregion⟩ := hregion
  cases region with
  | exit x =>
      rw [view_eq_iff (view_exit hl hplain hd hr hregion)]
      exact hysteria_exit_iff hl hplain hd hr hregion
  | hub x =>
      rw [view_eq_iff (view_hub hl hplain hd hr hregion)]
      exact hysteria_hub_iff hl hplain hd hr hregion

/-! ## Vless routes -/

theorem intScalar_eq {yaml : Yaml} {holder : Option YamlNode} {n : Option ℤ}
    (h : intScalar yaml holder key = .ok n) :
    ∃ o, entry holder key = .ok o ∧ n = o.bind (editorInt yaml) := by
  simp only [intScalar, scalarText, bind_eq_ok, pure_eq_ok] at h
  obtain ⟨s, ⟨o, ho, rfl⟩, h⟩ := h
  refine ⟨o, ho, ?_⟩
  have hbind : o.bind (editorInt yaml) = (o.bind (·.text?)).bind (yamlInt yaml) := by
    rw [Option.bind_assoc]
    rfl
  rw [hbind]
  split at h
  · rename_i htext
    cases h
    rw [htext]
    rfl
  · rename_i raw htext
    rw [htext, Option.bind_some, yamlInt]
    generalize yaml.safeLoad raw = out at h ⊢
    cases out with
    | error e =>
        cases h
        rfl
    | ok value =>
        cases value
        all_goals
          cases h
          rfl

theorem toList_filterMap {α β : Type} (o : Option α) (f : α → Option β) :
    o.toList.filterMap f = (o.bind f).toList := by
  cases o with
  | none => rfl
  | some a => cases h : f a <;> simp [h]

/-- Where the editor reads routes. -/
theorem routeValues_eq {yaml : Yaml} {routes : List ℤ} (h : itemRoutes yaml node = .ok routes) :
    ∃ own holder warp, entry (some node) "vless_route" = .ok own ∧
      entry (some node) "warp" = .ok holder ∧ entry holder "vless_route" = .ok warp ∧
      routeValues node = own.toList ++ warp.toList ∧
      routes = (routeValues node).filterMap (editorInt yaml) := by
  simp only [itemRoutes, bind_eq_ok, pure_eq_ok] at h
  obtain ⟨holder, hholder, own, hown, warp, hwarp, rfl⟩ := h
  obtain ⟨o, ho, rfl⟩ := intScalar_eq hown
  obtain ⟨w, hw, rfl⟩ := intScalar_eq hwarp
  have hvalues : routeValues node = o.toList ++ w.toList := by
    rw [routeValues, valueAt_eq ho, valueAt_eq hholder]
    cases holder with
    | none =>
        cases hw
        rfl
    | some holder => rw [Option.bind_some, valueAt_eq hw]
  refine ⟨o, holder, w, ho, hholder, hw, hvalues, ?_⟩
  rw [hvalues, List.filterMap_append, toList_filterMap, toList_filterMap]

theorem text?_eq_none (h : value.tag = nullTag) : value.text? = none := by
  cases value with
  | scalar tag text start stop => exact if_pos h
  | sequence | mapping => rfl

/-- Of a value the editor reads, the loader takes a route, null aside. -/
theorem readInt_of_readsOptional (hl : l.Documented) (hplain : PlainMapping node)
    (hd : l.construct node = .ok d) {o : Option YamlNode} (ho : entry (some node) key = .ok o)
    {route : Option VlessRoute} (hroute : ReadsOptional (ReadsRoute l.laxInt) (d.get key) route) :
    (o.bind l.readInt = route.map fun x => (x.val : ℤ)) ∧
      ∀ value ∈ o, l.readInt value = none → editorInt l.yaml value = none := by
  rcases entry_get hl hplain hd ho with ⟨rfl, hnone⟩ | ⟨value, v, rfl, hv, hvalue⟩
  · rw [hnone] at hroute
    obtain rfl : route = none := hroute
    exact ⟨rfl, by simp⟩
  · rw [hv] at hroute
    have hread : l.readInt value = l.laxInt v := by
      rw [Loader.readInt, hvalue]
      rfl
    simp only [Option.bind_some, Option.mem_some_iff, forall_eq', hread]
    rcases readsOptional_some hroute with ⟨rfl, rfl⟩ | ⟨x, rfl, hx⟩
    · refine ⟨hl.laxNull, fun _ => ?_⟩
      rw [editorInt, text?_eq_none ((hl.null _ _ hvalue).mp rfl)]
      rfl
    · refine ⟨hx, fun hnone => ?_⟩
      cases hnone.symm.trans hx

theorem warp_route (hl : l.Documented) (hplain : PlainRegion node) (hd : l.construct node = .ok d)
    {holder o : Option YamlNode} (hholder : entry (some node) "warp" = .ok holder)
    (ho : entry holder "vless_route" = .ok o) {warp : Option WarpConfig}
    (hwarp : ReadsOptional (fun w warp => ReadsField (ReadsRoute l.laxInt) (w.get "vless_route")
      warp.vlessRoute) (d.get "warp") warp) :
    (o.bind l.readInt = warp.map fun w => (w.vlessRoute.val : ℤ)) ∧
      ∀ value ∈ o, l.readInt value = none → editorInt l.yaml value = none := by
  rcases entry_get hl hplain.mapping hd hholder with ⟨rfl, hnone⟩ | ⟨value, v, rfl, hv, hvalue⟩
  · rw [hnone] at hwarp
    obtain rfl : warp = none := hwarp
    cases ho
    exact ⟨rfl, by simp⟩
  · rw [hv] at hwarp
    rcases hplain.warp value (valueAt_eq hholder) with ⟨text, start, stop, rfl⟩ | hmapping
    · obtain rfl := (hl.null _ _ hvalue).mpr rfl
      obtain rfl : warp = none := hwarp
      cases ho
      exact ⟨rfl, by simp⟩
    · rcases readsOptional_some hwarp with ⟨rfl, -⟩ | ⟨w, rfl, route, hget, hroute⟩
      · have htag := (hl.null _ _ hvalue).mp rfl
        cases value with
        | mapping tag => exact absurd (hmapping.1.symm.trans htag) (by decide)
        | scalar | sequence => cases hmapping
      · have hread : ReadsOptional (ReadsRoute l.laxInt) (some route) (some w.vlessRoute) := by
          cases route with
          | null => cases hl.laxNull.symm.trans hroute
          | bool | int | float | str | bytes | list | dict | other => exact ⟨_, rfl, hroute⟩
        rw [← hget] at hread
        exact readInt_of_readsOptional hl hmapping hvalue ho hread

/-- Of the values the editor reads routes of, the loader takes the routes of the region. -/
theorem region_routes (hl : l.Documented) (hplain : PlainRegion node) {lines : List String}
    {r : RegionItem} (hr : RegionSeen l.yaml lines node r) {region : Region}
    (hregion : ReadsNode l (ReadsRegion l.laxInt) node region) :
    region.vlessRoutes.map (Nat.cast (R := ℤ)) = (routeValues node).filterMap l.readInt ∧
      ∀ value ∈ routeValues node, l.readInt value = none → editorInt l.yaml value = none := by
  obtain ⟨d, hd, hregion⟩ := hregion
  obtain ⟨own, holder, warp, hown, hholder, hwarp, hvalues, -⟩ := routeValues_eq hr.routes
  rw [hvalues]
  cases region with
  | hub x =>
      obtain rfl := entry_of_get_none hl hplain.mapping hd hown (hregion.extra _ (by simp))
      obtain rfl := entry_of_get_none hl hplain.mapping hd hholder (hregion.extra _ (by simp))
      cases hwarp
      exact ⟨rfl, by simp⟩
  | exit x =>
      obtain ⟨hown, hownNull⟩ :=
        readInt_of_readsOptional hl hplain.mapping hd hown hregion.vlessRoute
      obtain ⟨hwarp, hwarpNull⟩ := warp_route hl hplain hd hholder hwarp hregion.warp
      constructor
      · rw [List.filterMap_append, toList_filterMap, toList_filterMap, hown, hwarp,
          Option.toList_map, Option.toList_map]
        simp [Region.vlessRoutes, Function.comp_def]
      · intro value hvalue
        rcases List.mem_append.mp hvalue with hvalue | hvalue
        · exact hownNull value (Option.mem_toList.mp hvalue)
        · exact hwarpNull value (Option.mem_toList.mp hvalue)

/-- What the editor takes for less is octal to YAML. -/
theorem editorInt_le (hl : l.Documented) {n m : ℤ} (hn : editorInt l.yaml value = some n)
    (hm : l.readInt value = some m) (hpos : 0 ≤ m) : n ≤ m := by
  obtain ⟨raw, htext, hraw⟩ := Option.bind_eq_some_iff.mp hn
  obtain ⟨d, hd, hlax⟩ := Option.bind_eq_some_iff.mp hm
  cases value with
  | scalar tag text start stop =>
      obtain rfl : text = raw := by
        simp only [YamlNode.text?] at htext
        split at htext
        · cases htext
        · exact Option.some.inj htext
      exact hl.laxText _ _ _ _ d n m (toOption_eq_some.mp hd) hraw hlax hpos
  | sequence | mapping => cases htext

end HexRift
