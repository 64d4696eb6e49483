import HexRift.Library.Generations
import HexRift.Verification.KeySharing
import Mathlib.Data.List.Induction

/-! # The key store of a run

What a run of key generation leaves in the store is read off the log of its calls: who has keys
depends on the calls alone, and the keys of a group are those of one call of the log. -/

namespace HexRift

open Checks Generations

variable {cfg : ConglomerateConfig} {store : KeyStore} {p : Placed} {call : KeyCall}

instance (cfg : ConglomerateConfig) (a b : String) : Decidable (Siblings cfg a b) :=
  inferInstanceAs (Decidable (∃ region ∈ cfg.regions, region.type = .hub ∧
    ∃ n ∈ region.nodes, ∃ m ∈ region.nodes, n.id.val = a ∧ m.id.val = b ∧
      resolveNodeKeys n region cfg.defaults = resolveNodeKeys m region cfg.defaults))

/-! ## The log -/

/-- The call names the node or one that shares its keys. -/
def KeyCall.concerns (cfg : ConglomerateConfig) (id : String) (call : KeyCall) : Bool :=
  call.nodeId = id ∨ Siblings cfg call.nodeId id

/-- The call leaves the node with keys: it names the node, or rotates keys the node shares. -/
def KeyCall.equips (cfg : ConglomerateConfig) (id : String) (call : KeyCall) : Bool :=
  call.nodeId = id ∨ call.force ∧ Siblings cfg call.nodeId id

theorem KeyCall.equips_concerns {id : String} (h : call.equips cfg id = true) :
    call.concerns cfg id = true := by
  rw [equips, decide_eq_true_iff] at h
  exact decide_eq_true (h.imp_right And.right)

def Placed.keysConfig (cfg : ConglomerateConfig) (p : Placed) : KeysConfig :=
  resolveNodeKeys p.node p.region cfg.defaults

/-- The keys a log of calls leaves a node with. -/
def keysOf (cfg : ConglomerateConfig) (p : Placed) (calls : List KeyCall) : Option NodeKeys :=
  if calls.any (KeyCall.equips cfg p.node.id.val) then
    (current? (KeyCall.concerns cfg p.node.id.val) KeyCall.force calls).map fun call =>
      freshNodeKeys call.fresh (p.keysConfig cfg)
  else none

/-! ## One call, at one node -/

theorem Accepted.placed_eq (h : Accepted cfg) {p q : Placed} (hp : p ∈ cfg.placed)
    (hq : q ∈ cfg.placed) (hid : p.node.id.val = q.node.id.val) : p = q := by
  obtain ⟨hpregion, hpnode⟩ := mem_placed hp
  obtain ⟨hqregion, hqnode⟩ := mem_placed hq
  have heq : (p.region, p.node) = (q.region, q.node) :=
    h.node_eq (mem_allNodes hpregion hpnode) (mem_allNodes hqregion hqnode) hid
  cases p <;> cases q <;> cases heq <;> rfl

theorem getNode_placed (h : Accepted cfg) (hp : p ∈ cfg.placed) :
    getNode cfg p.node.id.val = .ok p := by
  obtain ⟨result, hresult⟩ : ∃ result, getNode cfg p.node.id.val = .ok result := by
    unfold getNode
    cases hfind : cfg.placed.find? fun q => q.node.id.val = p.node.id.val with
    | some placed => exact ⟨placed, rfl⟩
    | none =>
        rw [List.find?_eq_none] at hfind
        exact absurd (decide_eq_true rfl) (hfind p hp)
  obtain ⟨hmem, hid⟩ := getNode_eq_ok hresult
  rw [hresult, h.placed_eq hmem hp hid]

/-- Keys that a call on the node would reuse. -/
def Placed.reusable? (cfg : ConglomerateConfig) (store : KeyStore) (p : Placed) :
    Option NodeKeys :=
  if p.region.type = .hub then
    p.region.nodes.findSome? fun sibling =>
      if sibling.id.val ≠ p.node.id.val ∧
          resolveNodeKeys sibling p.region cfg.defaults = p.keysConfig cfg then
        store sibling.id.val
      else none
  else none

theorem reusedKeys_eq (cfg : ConglomerateConfig) (store : KeyStore) (p : Placed) :
    reusedKeys cfg store p.region p.node.id.val (p.keysConfig cfg) false =
      .ok (p.reusable? cfg store) := by
  rw [reusedKeys, siblingKeys_eq, Placed.reusable?]
  by_cases hhub : p.region.type = .hub <;> simp [hhub]

theorem run_of_kept (hcall : call.nodeId = p.node.id.val) (hplain : call.force = false)
    (hkeys : (store p.node.id.val).isSome = true) : call.run cfg store = store := by
  rw [KeyCall.run, hcall, genKeys, nodeKeysExist_identifier, hkeys, hplain]
  rfl

theorem run_of_plain (h : Accepted cfg) (hp : p ∈ cfg.placed)
    (hcall : call.nodeId = p.node.id.val) (hplain : call.force = false)
    (hkeys : store p.node.id.val = none) :
    call.run cfg store = Function.update store p.node.id.val
      (some ((p.reusable? cfg store).getD (freshNodeKeys call.fresh (p.keysConfig cfg)))) := by
  have hslot := reusedKeys_eq cfg store p
  rw [Placed.keysConfig] at hslot
  rw [KeyCall.run, hcall, genKeys, nodeKeysExist_identifier, hkeys, hplain]
  simp only [bind, Except.bind, getNode_placed h hp, hslot]
  cases p.reusable? cfg store with
  | some keys =>
      simp only [saveNodeKeys_identifier]
      rfl
  | none =>
      simp only [saveNodeKeys_identifier]
      simp [Placed.keysConfig, pure, Except.pure]

theorem run_of_force (h : Accepted cfg) (hp : p ∈ cfg.placed)
    (hcall : call.nodeId = p.node.id.val) (hforce : call.force = true) (id : String) :
    call.run cfg store id =
      if id = p.node.id.val ∨ Siblings cfg p.node.id.val id then
        some (freshNodeKeys call.fresh (p.keysConfig cfg))
      else store id := by
  obtain ⟨hregion, hnode⟩ := mem_placed hp
  have hslot : reusedKeys cfg store p.region p.node.id.val
      (resolveNodeKeys p.node p.region cfg.defaults) true = .ok none := by
    simp [reusedKeys]
  rw [KeyCall.run, hcall, genKeys, nodeKeysExist_identifier, hforce]
  simp only [bind, Except.bind, Bool.not_true, Bool.and_false, getNode_placed h hp, hslot,
    saveNodeKeys_identifier, rotate_eq]
  by_cases hhub : p.region.type = .hub
  · -- the loop reaches the siblings, the write before it the node itself
    simp only [hhub, and_self, if_true, any_sharesWith, siblings_of_node h hregion hnode,
      true_and, Placed.keysConfig]
    by_cases hself : id = p.node.id.val
    · simp [hself, pure, Except.pure]
    · simp [hself, pure, Except.pure]
  · have hnone : ¬ Siblings cfg p.node.id.val id :=
      fun hsiblings => hhub ((siblings_of_node h hregion hnode).mp hsiblings).1
    simp only [hhub, false_and, if_false, hnone, or_false]
    by_cases hself : id = p.node.id.val
    · simp [hself, Placed.keysConfig, pure, Except.pure]
    · simp [hself, pure, Except.pure]

/-- A call on an id that no node has writes nothing. -/
theorem run_of_unknown (hunknown : ∀ p ∈ cfg.placed, call.nodeId ≠ p.node.id.val) :
    call.run cfg store = store := by
  rw [KeyCall.run]
  cases hgen : genKeys cfg call.fresh store call.nodeId call.force with
  | error e => rfl
  | ok result =>
      simp only [genKeys, bind_eq_ok] at hgen
      obtain ⟨found, -, hgen⟩ := hgen
      split at hgen
      · rw [pure_eq_ok] at hgen
        cases hgen
        rfl
      · simp only [bind_eq_ok] at hgen
        obtain ⟨placed, hplaced, -⟩ := hgen
        obtain ⟨hmem, hid⟩ := getNode_eq_ok hplaced
        exact absurd hid.symm (hunknown placed hmem)

/-! ## Groups -/

/-- A node of the group of another, which a call concerns them both through. -/
theorem exists_placed_of_siblings {a b : String} (hsiblings : Siblings cfg a b) :
    ∃ q ∈ cfg.placed, q.node.id.val = a := by
  obtain ⟨region, hregion, -, n, hn, -, -, rfl, -⟩ := hsiblings
  cases region with
  | exit r =>
      obtain ⟨node, hnode, rfl⟩ := List.mem_map.mp hn
      exact ⟨.exit r node, List.mem_flatMap.mpr ⟨.exit r, hregion, List.mem_map_of_mem hnode⟩,
        rfl⟩
  | hub r =>
      obtain ⟨node, hnode, rfl⟩ := List.mem_map.mp hn
      exact ⟨.hub r node, List.mem_flatMap.mpr ⟨.hub r, hregion, List.mem_map_of_mem hnode⟩, rfl⟩

theorem Siblings.keysConfig_eq (h : Accepted cfg) {q : Placed} (hp : p ∈ cfg.placed)
    (hq : q ∈ cfg.placed) (hsiblings : Siblings cfg q.node.id.val p.node.id.val) :
    q.keysConfig cfg = p.keysConfig cfg := by
  obtain ⟨hpregion, hpnode⟩ := mem_placed hp
  obtain ⟨hqregion, hqnode⟩ := mem_placed hq
  obtain ⟨-, m, hm, hid, hsame⟩ := (siblings_of_node h hqregion hqnode).mp hsiblings
  have heq : (q.region, m) = (p.region, p.node) :=
    h.node_eq (mem_allNodes hqregion hm) (mem_allNodes hpregion hpnode) hid
  rw [Prod.mk.injEq] at heq
  rw [Placed.keysConfig, Placed.keysConfig, ← heq.1, ← heq.2]
  exact hsame.symm

/-- A call concerns either both of two siblings or none of them. -/
theorem concerns_congr (h : Accepted cfg) {a b : String} (hsiblings : Siblings cfg a b) :
    KeyCall.concerns cfg a = KeyCall.concerns cfg b := by
  funext call
  rw [KeyCall.concerns, KeyCall.concerns, decide_eq_decide]
  constructor
  · rintro (rfl | hcall)
    · exact .inr hsiblings
    · exact .inr (hcall.trans h hsiblings)
  · rintro (rfl | hcall)
    · exact .inr hsiblings.symm
    · exact .inr (hcall.trans h hsiblings.symm)

/-! ## Runs -/

/-- The store holds what the log says. -/
def KeysLogged (cfg : ConglomerateConfig) (store : KeyStore) (calls : List KeyCall) : Prop :=
  ∀ p ∈ cfg.placed, store p.node.id.val = keysOf cfg p calls

theorem KeysLogged.eq_none_iff {calls : List KeyCall} (hlogged : KeysLogged cfg store calls)
    (hp : p ∈ cfg.placed) : store p.node.id.val = none ↔
      calls.any (KeyCall.equips cfg p.node.id.val) = false := by
  rw [hlogged p hp, keysOf]
  cases hequips : calls.any (KeyCall.equips cfg p.node.id.val) with
  | false => simp
  | true =>
      obtain ⟨call, hcall, hequip⟩ := List.any_eq_true.mp hequips
      have hsome : (current? (KeyCall.concerns cfg p.node.id.val) KeyCall.force calls).isSome :=
        isSome_current? _ hcall (KeyCall.equips_concerns hequip)
      simp [Option.isSome_iff_ne_none.mp hsome]

theorem keysOf_append_of_not_concerns {calls : List KeyCall}
    (hother : call.concerns cfg p.node.id.val = false) :
    keysOf cfg p (calls ++ [call]) = keysOf cfg p calls := by
  have hequips : call.equips cfg p.node.id.val = false := by
    rw [← Bool.not_eq_true]
    intro hequips
    rw [KeyCall.equips_concerns hequips] at hother
    cases hother
  rw [keysOf, List.any_append, current?_append_of_not_mine hother, keysOf]
  simp [hequips]

theorem keysOf_append_of_force {calls : List KeyCall} (hforce : call.force = true)
    (hmine : call.concerns cfg p.node.id.val = true) :
    keysOf cfg p (calls ++ [call]) = some (freshNodeKeys call.fresh (p.keysConfig cfg)) := by
  have hequips : call.equips cfg p.node.id.val = true := by
    rw [KeyCall.concerns, decide_eq_true_iff] at hmine
    exact decide_eq_true (hmine.imp_right fun hsiblings => ⟨hforce, hsiblings⟩)
  rw [keysOf, List.any_append, current?_append_of_renews hmine hforce]
  simp [hequips]

theorem keysOf_append_of_plain {calls : List KeyCall} (hplain : call.force = false)
    (hmine : call.concerns cfg p.node.id.val = true) :
    keysOf cfg p (calls ++ [call]) =
      if calls.any (KeyCall.equips cfg p.node.id.val) ∨ call.nodeId = p.node.id.val then
        ((current? (KeyCall.concerns cfg p.node.id.val) KeyCall.force calls).or (some call)).map
          fun call => freshNodeKeys call.fresh (p.keysConfig cfg)
      else none := by
  rw [keysOf, List.any_append, current?_append_of_plain hmine hplain]
  simp [KeyCall.equips, hplain]

theorem KeysLogged.append_force (h : Accepted cfg) {calls : List KeyCall} {q : Placed}
    (hlogged : KeysLogged cfg store calls) (hq : q ∈ cfg.placed)
    (hcall : call.nodeId = q.node.id.val) (hforce : call.force = true) :
    KeysLogged cfg (call.run cfg store) (calls ++ [call]) := by
  intro p hp
  rw [run_of_force h hq hcall hforce]
  cases hmine : call.concerns cfg p.node.id.val with
  | true =>
      rw [keysOf_append_of_force hforce hmine]
      rw [KeyCall.concerns, decide_eq_true_iff, hcall] at hmine
      have hsettings : q.keysConfig cfg = p.keysConfig cfg := by
        rcases hmine with hid | hsiblings
        · rw [h.placed_eq hq hp hid]
        · exact hsiblings.keysConfig_eq h hp hq
      rw [if_pos (hmine.imp_left Eq.symm), hsettings]
  | false =>
      rw [keysOf_append_of_not_concerns hmine, ← hlogged p hp]
      rw [KeyCall.concerns, decide_eq_false_iff_not, hcall] at hmine
      rw [if_neg fun hor => hmine (hor.imp_left Eq.symm)]

/-- What a call reuses is what the log has for the group of its node. -/
theorem KeysLogged.reusable?_eq (h : Accepted cfg) {calls : List KeyCall}
    (hlogged : KeysLogged cfg store calls) (hp : p ∈ cfg.placed)
    (hkeys : store p.node.id.val = none) :
    p.reusable? cfg store =
      (current? (KeyCall.concerns cfg p.node.id.val) KeyCall.force calls).map fun call =>
        freshNodeKeys call.fresh (p.keysConfig cfg) := by
  obtain ⟨hregion, hnode⟩ := mem_placed hp
  have hsibling : ∀ id, Siblings cfg p.node.id.val id → ∃ q ∈ cfg.placed, q.node.id.val = id ∧
      q.keysConfig cfg = p.keysConfig cfg ∧
        KeyCall.concerns cfg id = KeyCall.concerns cfg p.node.id.val := by
    intro id hsiblings
    obtain ⟨q, hq, rfl⟩ := exists_placed_of_siblings hsiblings.symm
    exact ⟨q, hq, rfl, hsiblings.symm.keysConfig_eq h hp hq, concerns_congr h hsiblings.symm⟩
  have hslot := reusedKeys_eq cfg store p
  cases hreusable : p.reusable? cfg store with
  | some keys =>
      -- any sibling with keys has those of the call that the log names
      rw [hreusable] at hslot
      obtain ⟨hhub, -, m, hm, hsame, hstored⟩ := reusedKeys_some hslot
      obtain ⟨q, hq, hid, hsettings, hconcerns⟩ :=
        hsibling m.id.val ((siblings_of_node h hregion hnode).mpr ⟨hhub, m, hm, rfl, hsame⟩)
      have hlog := hlogged q hq
      rw [hid, hstored, keysOf, hid, hsettings, hconcerns] at hlog
      split at hlog
      · exact hlog
      · cases hlog
  | none =>
      rw [hreusable] at hslot
      symm
      rw [Option.map_eq_none_iff, current?_eq_none_iff]
      intro call hcall
      refine decide_eq_false ?_
      rintro (hself | hsiblings)
      · -- the node would have keys
        have hequips : call.equips cfg p.node.id.val = true := decide_eq_true (.inl hself)
        have hnone := (hlogged.eq_none_iff hp).mp hkeys
        rw [List.any_eq_false] at hnone
        exact hnone call hcall hequips
      · obtain ⟨q, hq, hid, -, -⟩ := hsibling call.nodeId hsiblings.symm
        obtain ⟨hhub, m, hm, hmid, hsame⟩ :=
          (siblings_of_node h hregion hnode).mp hsiblings.symm
        by_cases hself : call.nodeId = p.node.id.val
        · have hequips : call.equips cfg p.node.id.val = true := decide_eq_true (.inl hself)
          have hnone := (hlogged.eq_none_iff hp).mp hkeys
          rw [List.any_eq_false] at hnone
          exact hnone call hcall hequips
        · have hempty := reusedKeys_none hslot hhub m hm (hmid ▸ hself) hsame
          rw [hmid, ← hid, hlogged.eq_none_iff hq, List.any_eq_false] at hempty
          exact hempty call hcall (decide_eq_true (.inl hid.symm))

/-- A call that neither rotates keys nor names a node without any leaves its keys. -/
theorem keysOf_append_of_kept {calls : List KeyCall} (hplain : call.force = false)
    (hmine : call.concerns cfg p.node.id.val = true)
    (hnode : call.nodeId = p.node.id.val →
      calls.any (KeyCall.equips cfg p.node.id.val) = true) :
    keysOf cfg p (calls ++ [call]) = keysOf cfg p calls := by
  rw [keysOf_append_of_plain hplain hmine, keysOf]
  by_cases hany : calls.any (KeyCall.equips cfg p.node.id.val) = true
  · obtain ⟨made, hmem, hequips⟩ := List.any_eq_true.mp hany
    obtain ⟨current, hcurrent⟩ := Option.isSome_iff_exists.mp
      (isSome_current? KeyCall.force hmem (KeyCall.equips_concerns hequips))
    rw [if_pos (.inl hany), if_pos hany, hcurrent, Option.some_or]
  · have hother : call.nodeId ≠ p.node.id.val := fun hself => hany (hnode hself)
    rw [if_neg (not_or.mpr ⟨hany, hother⟩), if_neg hany]

theorem KeysLogged.append_plain (h : Accepted cfg) {calls : List KeyCall} {q : Placed}
    (hlogged : KeysLogged cfg store calls) (hq : q ∈ cfg.placed)
    (hcall : call.nodeId = q.node.id.val) (hplain : call.force = false) :
    KeysLogged cfg (call.run cfg store) (calls ++ [call]) := by
  intro p hp
  cases hmine : call.concerns cfg p.node.id.val with
  | false =>
      have hne : p.node.id.val ≠ q.node.id.val := by
        intro hid
        rw [KeyCall.concerns, hcall, hid] at hmine
        simp at hmine
      rw [keysOf_append_of_not_concerns hmine, ← hlogged p hp]
      cases hkeys : store q.node.id.val with
      | some keys =>
          rw [run_of_kept hcall hplain (Option.isSome_iff_exists.mpr ⟨keys, hkeys⟩)]
      | none =>
          rw [run_of_plain h hq hcall hplain hkeys, Function.update_of_ne hne]
  | true =>
      cases hkeys : store q.node.id.val with
      | some keys =>
          rw [run_of_kept hcall hplain (Option.isSome_iff_exists.mpr ⟨keys, hkeys⟩), hlogged p hp,
            keysOf_append_of_kept hplain hmine]
          intro hself
          cases h.placed_eq hp hq (hself.symm.trans hcall)
          by_contra hany
          rw [(hlogged.eq_none_iff hp).mpr (Bool.eq_false_iff.mpr hany)] at hkeys
          cases hkeys
      | none =>
          rw [run_of_plain h hq hcall hplain hkeys]
          by_cases hself : p.node.id.val = q.node.id.val
          · cases h.placed_eq hp hq hself
            rw [Function.update_self, hlogged.reusable?_eq h hq hkeys,
              keysOf_append_of_plain hplain hmine, if_pos (.inr hcall)]
            cases current? (KeyCall.concerns cfg q.node.id.val) KeyCall.force calls <;> simp
          · rw [Function.update_of_ne hself, hlogged p hp, keysOf_append_of_kept hplain hmine]
            exact fun hother => absurd (hother.symm.trans hcall) hself

theorem KeysLogged.append (h : Accepted cfg) {calls : List KeyCall}
    (hlogged : KeysLogged cfg store calls) (call : KeyCall) :
    KeysLogged cfg (call.run cfg store) (calls ++ [call]) := by
  by_cases hknown : ∃ q ∈ cfg.placed, call.nodeId = q.node.id.val
  · obtain ⟨q, hq, hcall⟩ := hknown
    cases hforce : call.force with
    | true => exact hlogged.append_force h hq hcall hforce
    | false => exact hlogged.append_plain h hq hcall hforce
  · have hunknown : ∀ q ∈ cfg.placed, call.nodeId ≠ q.node.id.val :=
      fun q hq hcall => hknown ⟨q, hq, hcall⟩
    intro p hp
    rw [run_of_unknown hunknown, hlogged p hp, keysOf_append_of_not_concerns]
    refine decide_eq_false ?_
    rintro (hself | hsiblings)
    · exact hunknown p hp hself
    · obtain ⟨q, hq, hid⟩ := exists_placed_of_siblings hsiblings
      exact hunknown q hq hid.symm

theorem keysLogged_keyRun (h : Accepted cfg) (calls : List KeyCall) :
    KeysLogged cfg (keyRun cfg calls) calls := by
  induction calls using List.reverseRecOn with
  | nil =>
      intro p hp
      rfl
  | append_singleton calls call ih =>
      rw [keyRun, List.foldl_append]
      exact ih.append h call

/-- After any run of calls from an empty store, exactly the nodes that were named, or whose keys
were rotated with those of a node that was, have keys. They were made under the settings of the
node, by the last rotation of the keys it shares or else by the first call on them. -/
theorem stored_keys_current (cfg : AcceptedConfig) (calls : List KeyCall) (hp : p ∈ cfg.placed) :
    keyRun cfg.toConglomerateConfig calls p.node.id.val =
      keysOf cfg.toConglomerateConfig p calls :=
  keysLogged_keyRun cfg.spec calls p hp

/-- The second hub gets the keys of the first, not what was drawn for it. -/
theorem stored_keys_current_twins :
    keyRun Sample.twins.toConglomerateConfig
        [⟨"h1", false, Sample.freshKeys⟩, ⟨"h2", false, { Sample.freshKeys with
          reality := ("other", "pair") }⟩] "h2" =
      some (freshNodeKeys Sample.freshKeys Sample.twins.defaults.hub.keys) := by
  have hplaced : Placed.hub Sample.twinHubs { Sample.hubNode with id := { val := "h2" } } ∈
      Sample.twins.placed :=
    List.mem_flatMap.mpr ⟨.hub Sample.twinHubs, by decide, List.mem_map_of_mem (by decide)⟩
  exact (stored_keys_current Sample.twins _ hplaced).trans (by decide)

end HexRift
