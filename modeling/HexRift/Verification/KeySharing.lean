import HexRift.Model.KeyGen
import HexRift.Verification.Sharing

/-! # Shared keys

Hub nodes of a region with equal key settings are to be interchangeable for clients. Each call
of the key generation is read as one of four steps on the store, and every step keeps the keys
of such nodes the same. -/

namespace HexRift

open Checks

variable {cfg : ConglomerateConfig} {store store' : KeyStore} {nodeId : String} {force : Bool}
  {fresh : FreshKeys}

/-! ## Key files of nodes -/

theorem nodeKeysPath_identifier (id : Identifier) :
    nodeKeysPath id.val = .ok (id.val ++ ".yaml") := by
  have hnot : ∀ c, isIdentifierChar c = false → c ∉ id.val.toList :=
    fun c hc => Identifier.not_mem hc id
  have hdot : id.val ≠ "." := by
    intro heq
    apply hnot '.' (by decide)
    rw [heq]
    decide
  rw [nodeKeysPath, ensure, if_pos ⟨hdot, hnot '/' (by decide), hnot '\\' (by decide)⟩]
  rfl

theorem nodeKeysExist_identifier (store : KeyStore) (id : Identifier) :
    nodeKeysExist store id.val = .ok (store id.val).isSome := by
  rw [nodeKeysExist, nodeKeysPath_identifier]
  rfl

theorem saveNodeKeys_identifier (store : KeyStore) (id : Identifier) (keys : NodeKeys) :
    saveNodeKeys store id.val keys = .ok (Function.update store id.val (some keys)) := by
  rw [saveNodeKeys, nodeKeysPath_identifier]
  rfl

/-! ## The loops over a region -/

/-- The keys to reuse are those of the first sibling with equal settings that has some. -/
theorem siblingKeys_eq (region : Region) (keysCfg : KeysConfig) (nodes : List Node) :
    siblingKeys cfg store region nodeId keysCfg nodes =
      .ok (nodes.findSome? fun sibling =>
        if sibling.id.val ≠ nodeId ∧ resolveNodeKeys sibling region cfg.defaults = keysCfg then
          store sibling.id.val
        else none) := by
  induction nodes with
  | nil => rfl
  | cons sibling rest ih =>
      rw [siblingKeys, List.findSome?_cons, nodeKeysExist_identifier, ih]
      by_cases hself : sibling.id.val = nodeId
      · simp [hself]
      · by_cases hsame : resolveNodeKeys sibling region cfg.defaults = keysCfg
        · cases hkeys : store sibling.id.val with
          | none => simp [hself, hsame, bind, Except.bind]
          | some keys => simp [hself, hsame, hkeys, loadNodeKeys, bind, Except.bind]; rfl
        · cases (store sibling.id.val).isSome <;> simp [hself, hsame, bind, Except.bind]

theorem reusedKeys_some {region : Region} {keysCfg : KeysConfig} {keys : NodeKeys}
    (h : reusedKeys cfg store region nodeId keysCfg force = .ok (some keys)) :
    region.type = .hub ∧ force = false ∧ ∃ sibling ∈ region.nodes,
      resolveNodeKeys sibling region cfg.defaults = keysCfg ∧
        store sibling.id.val = some keys := by
  unfold reusedKeys at h
  split at h
  · rename_i hplain
    rw [siblingKeys_eq, Except.ok.injEq, List.findSome?_eq_some_iff] at h
    obtain ⟨before, sibling, after, hnodes, hsibling, -⟩ := h
    rw [Option.ite_none_right_eq_some] at hsibling
    refine ⟨hplain.1, by simpa using hplain.2, sibling, ?_, hsibling.1.2, hsibling.2⟩
    simp [hnodes]
  · cases h

theorem reusedKeys_none {region : Region} {keysCfg : KeysConfig}
    (h : reusedKeys cfg store region nodeId keysCfg false = .ok none) (hhub : region.type = .hub) :
    ∀ sibling ∈ region.nodes, sibling.id.val ≠ nodeId →
      resolveNodeKeys sibling region cfg.defaults = keysCfg → store sibling.id.val = none := by
  have hplain : region.type = .hub ∧ ¬ (false = true) := ⟨hhub, Bool.false_ne_true⟩
  rw [reusedKeys, if_pos hplain, siblingKeys_eq, Except.ok.injEq, List.findSome?_eq_none_iff] at h
  intro sibling hsibling hne hsame
  have hnone := h sibling hsibling
  rwa [if_pos ⟨hne, hsame⟩] at hnone

/-- A sibling that shares the keys of a rotated node. -/
def sharesWith (cfg : ConglomerateConfig) (region : Region) (nodeId : String)
    (keysCfg : KeysConfig) (sibling : Node) : Bool :=
  sibling.id.val ≠ nodeId ∧ resolveNodeKeys sibling region cfg.defaults = keysCfg

/-- A rotation writes the keys of every sibling that shares them and of no other node. -/
theorem rotate_eq (region : Region) (keysCfg : KeysConfig) (keys : NodeKeys) (nodes : List Node) :
    foldEach nodes (rotateSibling cfg region nodeId keysCfg keys) store =
      .ok fun id =>
        if nodes.any (fun n => n.id.val = id && sharesWith cfg region nodeId keysCfg n) then
          some keys
        else store id := by
  induction nodes generalizing store with
  | nil => rfl
  | cons sibling rest ih =>
      rw [foldEach, rotateSibling, saveNodeKeys_identifier]
      by_cases hshares : sibling.id.val ≠ nodeId ∧
          resolveNodeKeys sibling region cfg.defaults = keysCfg
      · rw [if_pos hshares]
        refine ih.trans (congrArg Except.ok (funext fun id => ?_))
        have hsame : sharesWith cfg region nodeId keysCfg sibling = true := decide_eq_true hshares
        rw [List.any_cons, hsame, Bool.and_true]
        by_cases hid : sibling.id.val = id
        · simp [hid]
        · simp [hid, Function.update_of_ne (Ne.symm hid)]
      · rw [if_neg hshares]
        refine ih.trans (congrArg Except.ok (funext fun id => ?_))
        have hother : sharesWith cfg region nodeId keysCfg sibling = false :=
          decide_eq_false hshares
        rw [List.any_cons, hother, Bool.and_false, Bool.false_or]

/-! ## Nodes that share keys -/

/-- Hub nodes of one region with equal key settings, given by their ids. -/
def Siblings (cfg : ConglomerateConfig) (a b : String) : Prop :=
  ∃ region ∈ cfg.regions, region.type = .hub ∧ ∃ n ∈ region.nodes, ∃ m ∈ region.nodes,
    n.id.val = a ∧ m.id.val = b ∧
      resolveNodeKeys n region cfg.defaults = resolveNodeKeys m region cfg.defaults

theorem Siblings.symm {a b : String} (h : Siblings cfg a b) : Siblings cfg b a := by
  obtain ⟨region, hregion, hhub, n, hn, m, hm, ha, hb, hsame⟩ := h
  exact ⟨region, hregion, hhub, m, hm, n, hn, hb, ha, hsame.symm⟩

theorem Siblings.trans (h : Accepted cfg) {a b c : String} (hab : Siblings cfg a b)
    (hbc : Siblings cfg b c) : Siblings cfg a c := by
  obtain ⟨region, hregion, hhub, n, hn, m, hm, ha, hb, hsame⟩ := hab
  obtain ⟨region', hregion', -, m', hm', k, hk, hb', hc, hsame'⟩ := hbc
  have heq : (region, m) = (region', m') :=
    h.node_eq (mem_allNodes hregion hm) (mem_allNodes hregion' hm') (hb.trans hb'.symm)
  cases heq
  exact ⟨region, hregion, hhub, n, hn, k, hk, ha, hc, hsame.trans hsame'⟩

/-! ## One call -/

/-- What a call of the key generation can do to the store. -/
inductive KeyStep (cfg : ConglomerateConfig) (store : KeyStore) (nodeId : String) :
    (force written : Bool) → KeyStore → Prop
  | skipped (hexists : (store nodeId).isSome = true) : KeyStep cfg store nodeId false false store
  | reused {sibling : String} {keys : NodeKeys} (hnone : store nodeId = none)
      (hsibling : Siblings cfg nodeId sibling) (hkeys : store sibling = some keys) :
      KeyStep cfg store nodeId false true (Function.update store nodeId (some keys))
  | generated {force : Bool} (keys : NodeKeys) (hnone : force = false → store nodeId = none)
      (halone : ∀ id, id ≠ nodeId → Siblings cfg nodeId id → store id = none) :
      KeyStep cfg store nodeId force true (Function.update store nodeId (some keys))
  | rotated {rotated : KeyStore} (keys : NodeKeys)
      (hshared : ∀ id, id = nodeId ∨ Siblings cfg nodeId id → rotated id = some keys)
      (hrest : ∀ id, ¬ (id = nodeId ∨ Siblings cfg nodeId id) → rotated id = store id) :
      KeyStep cfg store nodeId true true rotated

theorem nodeKeysExist_eq_ok {found : Bool} :
    nodeKeysExist store nodeId = .ok found → found = (store nodeId).isSome := by
  simp only [nodeKeysExist, bind_eq_ok, pure_eq_ok]
  rintro ⟨_, -, rfl⟩
  rfl

theorem saveNodeKeys_eq_ok {keys : NodeKeys} :
    saveNodeKeys store nodeId keys = .ok store' →
      store' = Function.update store nodeId (some keys) := by
  simp only [saveNodeKeys, bind_eq_ok, pure_eq_ok]
  rintro ⟨_, -, rfl⟩
  rfl

theorem mem_placed {p : Placed} (h : p ∈ cfg.placed) :
    p.region ∈ cfg.regions ∧ p.node ∈ p.region.nodes := by
  cases p with
  | exit region node =>
      obtain ⟨hregion, hnode⟩ := mem_placed_exit h
      exact ⟨hregion, List.mem_map_of_mem hnode⟩
  | hub region node =>
      obtain ⟨hregion, hnode⟩ := mem_placed_hub h
      exact ⟨hregion, List.mem_map_of_mem hnode⟩

theorem siblings_of_node (h : Accepted cfg) {region : Region} (hregion : region ∈ cfg.regions)
    {node : Node} (hnode : node ∈ region.nodes) {id : String} :
    Siblings cfg node.id.val id ↔ region.type = .hub ∧ ∃ m ∈ region.nodes, m.id.val = id ∧
      resolveNodeKeys m region cfg.defaults = resolveNodeKeys node region cfg.defaults := by
  constructor
  · rintro ⟨region', hregion', hhub, n, hn, m, hm, hself, hid, hsame⟩
    have heq : (region', n) = (region, node) :=
      h.node_eq (mem_allNodes hregion' hn) (mem_allNodes hregion hnode) hself
    cases heq
    exact ⟨hhub, m, hm, hid, hsame.symm⟩
  · rintro ⟨hhub, m, hm, hid, hsame⟩
    exact ⟨region, hregion, hhub, node, hnode, m, hm, rfl, hid, hsame.symm⟩

theorem any_sharesWith {region : Region} {keysCfg : KeysConfig} {id : String} :
    region.nodes.any (fun n => n.id.val = id && sharesWith cfg region nodeId keysCfg n) = true ↔
      id ≠ nodeId ∧ ∃ m ∈ region.nodes, m.id.val = id ∧
        resolveNodeKeys m region cfg.defaults = keysCfg := by
  simp only [List.any_eq_true, Bool.and_eq_true, decide_eq_true_eq, sharesWith]
  constructor
  · rintro ⟨m, hm, rfl, hne, hsame⟩
    exact ⟨hne, m, hm, rfl, hsame⟩
  · rintro ⟨hne, m, hm, rfl, hsame⟩
    exact ⟨m, hm, rfl, hne, hsame⟩

theorem genKeys_step (h : Accepted cfg) {written : Bool}
    (hgen : genKeys cfg fresh store nodeId force = .ok (written, store')) :
    KeyStep cfg store nodeId force written store' := by
  simp only [genKeys, bind_eq_ok] at hgen
  obtain ⟨found, hfound, hgen⟩ := hgen
  cases nodeKeysExist_eq_ok hfound
  split at hgen
  · rename_i hskip
    rw [pure_eq_ok] at hgen
    cases hgen
    rw [Bool.and_eq_true, Bool.not_eq_true'] at hskip
    obtain ⟨hexists, rfl⟩ := hskip
    exact .skipped hexists
  · rename_i hgo
    have hnone : force = false → store nodeId = none := by
      rintro rfl
      simpa using hgo
    simp only [bind_eq_ok] at hgen
    obtain ⟨placed, hplaced, slot, hslot, hgen⟩ := hgen
    obtain ⟨hmem, rfl⟩ := getNode_eq_ok hplaced
    obtain ⟨hregion, hnode⟩ := mem_placed hmem
    cases slot with
    | some keys =>
        simp only [bind_eq_ok, pure_eq_ok] at hgen
        obtain ⟨saved, hsaved, heq⟩ := hgen
        cases heq
        cases saveNodeKeys_eq_ok hsaved
        obtain ⟨hhub, rfl, sibling, hsibling, hsame, hkeys⟩ := reusedKeys_some hslot
        exact .reused (hnone rfl)
          ((siblings_of_node h hregion hnode).mpr ⟨hhub, sibling, hsibling, rfl, hsame⟩) hkeys
    | none =>
        simp only [bind_eq_ok] at hgen
        obtain ⟨saved, hsaved, hgen⟩ := hgen
        cases saveNodeKeys_eq_ok hsaved
        split at hgen
        · rename_i hrotate
          obtain ⟨hhub, rfl⟩ := hrotate
          rw [rotate_eq] at hgen
          cases hgen
          refine .rotated (freshNodeKeys fresh
            (resolveNodeKeys placed.node placed.region cfg.defaults)) ?_ ?_
          · intro id hid
            by_cases hself : id = placed.node.id.val
            · simp [hself]
            · have hsibling := (siblings_of_node h hregion hnode).mp (hid.resolve_left hself)
              rw [if_pos (any_sharesWith.mpr ⟨hself, hsibling.2⟩)]
          · intro id hid
            rw [not_or] at hid
            rw [if_neg, Function.update_of_ne hid.1]
            intro hany
            exact hid.2 ((siblings_of_node h hregion hnode).mpr ⟨hhub, (any_sharesWith.mp hany).2⟩)
        · rename_i hplain
          rw [pure_eq_ok] at hgen
          cases hgen
          refine .generated _ hnone ?_
          intro id hne hsibling
          obtain ⟨hhub, sibling, hmem, rfl, hsame⟩ := (siblings_of_node h hregion hnode).mp hsibling
          have hforce : force = false := by
            rw [← Bool.not_eq_true]
            exact fun hforce => hplain ⟨hhub, hforce⟩
          subst hforce
          exact reusedKeys_none hslot hhub sibling hmem hne hsame

/-- Keys can be generated for every node of a topology. -/
theorem genKeys_total {p : Placed} (hp : p ∈ cfg.placed) (fresh : FreshKeys) (store : KeyStore)
    (force : Bool) : ∃ result, genKeys cfg fresh store p.node.id.val force = .ok result := by
  unfold genKeys
  rw [nodeKeysExist_identifier]
  obtain ⟨placed, hplaced⟩ : ∃ placed, getNode cfg p.node.id.val = .ok placed := by
    unfold getNode
    cases hfind : cfg.placed.find? fun q => q.node.id.val = p.node.id.val with
    | some placed => exact ⟨placed, rfl⟩
    | none =>
        rw [List.find?_eq_none] at hfind
        exact absurd (decide_eq_true rfl) (hfind p hp)
  obtain ⟨slot, hslot⟩ : ∃ slot, reusedKeys cfg store placed.region p.node.id.val
      (resolveNodeKeys placed.node placed.region cfg.defaults) force = .ok slot := by
    rw [reusedKeys, siblingKeys_eq]
    split
    · exact ⟨_, rfl⟩
    · exact ⟨none, rfl⟩
  simp only [bind, Except.bind, pure, Except.pure, hplaced, hslot]
  split
  · exact ⟨_, rfl⟩
  · cases slot with
    | some keys =>
        simp only [saveNodeKeys_identifier]
        exact ⟨_, rfl⟩
    | none =>
        simp only [saveNodeKeys_identifier, rotate_eq]
        split
        · exact ⟨_, rfl⟩
        · exact ⟨_, rfl⟩

/-! ## Runs -/

/-- Siblings that both have stored keys have the same. -/
def KeysShared (cfg : ConglomerateConfig) (store : KeyStore) : Prop :=
  ∀ a b, Siblings cfg a b → ∀ ka kb, store a = some ka → store b = some kb → ka = kb

/-- New keys of one node keep the keys shared when they are those its siblings have. -/
theorem KeysShared.update (hshared : KeysShared cfg store) {keys : NodeKeys}
    (hkeys : ∀ id, id ≠ nodeId → Siblings cfg nodeId id → ∀ k, store id = some k → k = keys) :
    KeysShared cfg (Function.update store nodeId (some keys)) := by
  intro a b hab ka kb ha hb
  by_cases hself : a = nodeId
  · subst hself
    rw [Function.update_self] at ha
    cases ha
    by_cases hother : b = a
    · subst hother
      rw [Function.update_self] at hb
      exact Option.some.inj hb
    · rw [Function.update_of_ne hother] at hb
      exact (hkeys b hother hab kb hb).symm
  · rw [Function.update_of_ne hself] at ha
    by_cases hother : b = nodeId
    · subst hother
      rw [Function.update_self] at hb
      cases hb
      exact hkeys a hself hab.symm ka ha
    · rw [Function.update_of_ne hother] at hb
      exact hshared a b hab ka kb ha hb

/-- A call keeps the keys of siblings shared. -/
theorem KeysShared.step (h : Accepted cfg) (hshared : KeysShared cfg store) {written : Bool}
    (hstep : KeyStep cfg store nodeId force written store') : KeysShared cfg store' := by
  cases hstep with
  | skipped => exact hshared
  | reused hnone hsibling hkeys =>
      refine hshared.update fun id _ hid k hk => ?_
      exact hshared _ _ (hid.symm.trans h hsibling) k _ hk hkeys
  | generated keys hnone halone =>
      refine hshared.update fun id hne hid k hk => ?_
      rw [halone id hne hid] at hk
      cases hk
  | rotated keys hnew hrest =>
      -- of two siblings, a rotation reaches both or neither
      intro a b hab ka kb ha hb
      by_cases hreached : a = nodeId ∨ Siblings cfg nodeId a
      · have hother : b = nodeId ∨ Siblings cfg nodeId b := by
          rcases hreached with rfl | hreached
          · exact .inr hab
          · exact .inr (hreached.trans h hab)
        rw [hnew a hreached] at ha
        rw [hnew b hother] at hb
        cases ha
        exact Option.some.inj hb
      · have hother : ¬ (b = nodeId ∨ Siblings cfg nodeId b) := by
          rintro (rfl | hother)
          · exact hreached (.inr hab.symm)
          · exact hreached (.inr (hother.trans h hab.symm))
        rw [hrest a hreached] at ha
        rw [hrest b hother] at hb
        exact hshared a b hab ka kb ha hb

/-- The store after a run of calls, from an empty one. -/
def keyRun (cfg : ConglomerateConfig) (calls : List KeyCall) : KeyStore :=
  calls.foldl (KeyCall.run cfg) fun _ => none

theorem run_shared (h : Accepted cfg) (calls : List KeyCall) (hshared : KeysShared cfg store) :
    KeysShared cfg (calls.foldl (KeyCall.run cfg) store) := by
  induction calls generalizing store with
  | nil => exact hshared
  | cons call rest ih =>
      apply ih
      unfold KeyCall.run
      cases hgen : genKeys cfg call.fresh store call.nodeId call.force with
      | error e => exact hshared
      | ok result => exact hshared.step h (genKeys_step h hgen)

/-- What one call leaves untouched. -/
structure KeyFrame (cfg : ConglomerateConfig) (store : KeyStore) (call : KeyCall)
    (written : Bool) (store' : KeyStore) : Prop where
  kept : call.force = false → ∀ id, (store id).isSome = true → store' id = store id
  confined : call.force = true → ∀ id, store' id ≠ store id →
    id = call.nodeId ∨ Siblings cfg call.nodeId id
  skipped : written = false → store' = store

theorem KeyStep.frame {call : KeyCall} {written : Bool}
    (hstep : KeyStep cfg store call.nodeId call.force written store') :
    KeyFrame cfg store call written store' := by
  have hupdate : ∀ {keys : NodeKeys} {id : String},
      Function.update store call.nodeId (some keys) id ≠ store id → id = call.nodeId := by
    intro keys id hne
    by_contra hother
    exact hne (Function.update_of_ne hother _ _)
  have hkept : ∀ {keys : NodeKeys}, store call.nodeId = none → ∀ id, (store id).isSome = true →
      Function.update store call.nodeId (some keys) id = store id := by
    intro keys hnone id hsome
    apply Function.update_of_ne
    rintro rfl
    rw [hnone] at hsome
    cases hsome
  generalize hforce : call.force = force at hstep
  cases hstep with
  | skipped => exact ⟨fun _ _ _ => rfl, fun _ _ hne => absurd rfl hne, fun _ => rfl⟩
  | reused hnone =>
      refine ⟨fun _ => hkept hnone, fun htrue => ?_, fun hwritten => by cases hwritten⟩
      rw [hforce] at htrue
      cases htrue
  | generated keys hnone halone =>
      exact ⟨fun hfalse => hkept (hnone (hforce.symm.trans hfalse)),
        fun _ _ hne => .inl (hupdate hne), fun hwritten => by cases hwritten⟩
  | rotated keys hnew hrest =>
      refine ⟨fun hfalse => ?_, fun _ id hne => ?_, fun hwritten => by cases hwritten⟩
      · rw [hforce] at hfalse
        cases hfalse
      · by_contra hother
        exact hne (hrest id hother)

/-- Along every run of calls siblings share their keys, and each next call, which returns on
every node, leaves alone what it is to leave alone. -/
theorem shared_keys_kept (cfg : AcceptedConfig) (calls : List KeyCall) :
    KeysShared cfg.toConglomerateConfig (keyRun cfg.toConglomerateConfig calls) ∧
      (∀ p ∈ cfg.placed, ∀ fresh force, ∃ result,
        genKeys cfg.toConglomerateConfig fresh (keyRun cfg.toConglomerateConfig calls)
          p.node.id.val force = .ok result) ∧
      ∀ (call : KeyCall) (written : Bool) (store' : KeyStore),
        genKeys cfg.toConglomerateConfig call.fresh (keyRun cfg.toConglomerateConfig calls)
            call.nodeId call.force = .ok (written, store') →
          KeyFrame cfg.toConglomerateConfig (keyRun cfg.toConglomerateConfig calls) call written
            store' := by
  refine ⟨run_shared cfg.spec calls ?_, ?_, ?_⟩
  · intro a b _ ka kb ha
    cases ha
  · exact fun p hp fresh force => genKeys_total hp fresh _ force
  · exact fun call written store' hgen => (genKeys_step cfg.spec hgen).frame

namespace Sample

def twinHubs : HubRegion :=
  { hubRegion with nodes := [hubNode, { hubNode with id := h2 }] }

def twins : AcceptedConfig :=
  { toConglomerateConfig := topology [] [] [] twinHubs }

def freshKeys : FreshKeys :=
  { reality := ("private", "public"), x25519 := ("a", "b"), mlkem768 := ("seed", "ek") }

end Sample

theorem shared_keys_kept_twins :
    ∃ written store', genKeys Sample.twins.toConglomerateConfig Sample.freshKeys
        (keyRun Sample.twins.toConglomerateConfig [⟨"h1", false, Sample.freshKeys⟩]) "h2" true =
          .ok (written, store') ∧
      KeyFrame Sample.twins.toConglomerateConfig
        (keyRun Sample.twins.toConglomerateConfig [⟨"h1", false, Sample.freshKeys⟩])
        ⟨"h2", true, Sample.freshKeys⟩ written store' := by
  obtain ⟨-, htotal, hframe⟩ := shared_keys_kept Sample.twins [⟨"h1", false, Sample.freshKeys⟩]
  have hplaced : Placed.hub Sample.twinHubs { Sample.hubNode with id := { val := "h2" } } ∈
      Sample.twins.placed :=
    List.mem_flatMap.mpr ⟨.hub Sample.twinHubs, by decide, List.mem_map_of_mem (by decide)⟩
  obtain ⟨⟨written, store'⟩, hgen⟩ := htotal _ hplaced Sample.freshKeys true
  exact ⟨written, store', hgen, hframe ⟨"h2", true, Sample.freshKeys⟩ written store' hgen⟩

end HexRift
