import HexRift.Model.Root

/-! # The route of a new exit region -/

namespace HexRift

def freeVlessRoutes (used : List ℕ) : List ℕ :=
  let (low, high) := vlessRouteRange
  (List.range' low (high + 1 - low)).filter fun route => route ∉ used

/-- A free route. Which of them `random.choice` returns is left open. -/
def pickVlessRoute (used : List ℕ) (choice : ℕ) : Except Error ℕ :=
  let (low, high) := vlessRouteRange
  let free := freeVlessRoutes used
  match free[choice % free.length]? with
  | some route => .ok route
  | none =>
      .error (.topologyError s!"No unused vless_route left in {low}..{high}, set one by hand")

/-- Routes the exit regions of a topology use. -/
def usedVlessRoutes (cfg : ConglomerateConfig) : List ℕ :=
  cfg.exitRegions.flatMap fun r =>
    (r.vlessRoute.toList ++ r.warp.toList.map (·.vlessRoute)).map (·.val)

/-- The topology with a new exit region at its end, holding one node. -/
def ConglomerateConfig.createExitRegion (cfg : ConglomerateConfig) (id : Identifier)
    (route : VlessRoute) (node : ExitNode) : ConglomerateConfig :=
  { cfg with
    regions := cfg.regions ++ [.exit { id := id, vlessRoute := some route, nodes := [node] }] }

theorem mem_freeVlessRoutes {used : List ℕ} {route : ℕ} :
    route ∈ freeVlessRoutes used ↔ (2000 ≤ route ∧ route ≤ 60000) ∧ route ∉ used := by
  simp only [freeVlessRoutes, vlessRouteRange, List.mem_filter, List.mem_range'_1,
    decide_eq_true_eq]
  refine and_congr_left fun _ => ?_
  omega

/-- The picker can return every route of its range that is not in use, and no other. -/
theorem pickVlessRoute_eq_ok {used : List ℕ} {route : ℕ} :
    (∃ choice, pickVlessRoute used choice = .ok route) ↔
      (2000 ≤ route ∧ route ≤ 60000) ∧ route ∉ used := by
  rw [← mem_freeVlessRoutes]
  constructor
  · rintro ⟨choice, h⟩
    simp only [pickVlessRoute] at h
    split at h
    · rename_i hget
      cases h
      exact List.mem_of_getElem? hget
    · cases h
  · intro hmem
    obtain ⟨i, hi, hget⟩ := List.getElem_of_mem hmem
    refine ⟨i, ?_⟩
    simp only [pickVlessRoute, Nat.mod_eq_of_lt hi, List.getElem?_eq_getElem hi, hget]

end HexRift
