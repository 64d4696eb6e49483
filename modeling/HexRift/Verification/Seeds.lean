import HexRift.Verification.ClientKeys
import HexRift.Verification.LinkEnds

/-! # Seeds of derived UUIDs

A derived UUID is a function of a base and a name. The names of portals hold a slash, which no
identifier does; the joined name of a hub and an exit node holds a dash, which any identifier
may. -/

namespace HexRift

open Checks

variable {cfg : ConglomerateConfig} {uuid5 : Uuid5}

/-- Joined names of the hub nodes with the exit nodes they dial. -/
def hubExitNames (cfg : ConglomerateConfig) : List String :=
  (hubNodePairs cfg).flatMap fun hub => (renderedExitNodes cfg).map fun exit =>
    hub.2.id.val ++ "-" ++ exit.2.id.val

/-- Seeds of the users, servers, guests and portals without override, and of the hub-exit links. -/
def networkSeeds (uuid5 : Uuid5) (cfg : ConglomerateConfig) : List (UUID × String) :=
  derivedSeeds uuid5 cfg ++ hubExitSeeds uuid5 cfg

/-- No joined name is that of two links, or of an identity derived from the namespace. -/
structure JoinedNamesClear (uuid5 : Uuid5) (cfg : ConglomerateConfig) : Prop where
  links : (hubExitNames cfg).Nodup
  users : ∀ u ∈ cfg.users, u.uuid = none → u.username.val ∉ hubExitNames cfg
  based : ∀ u ∈ cfg.users, cfg.ns.userUuid uuid5 u.username.val u.uuid = cfg.ns.uuid uuid5 →
    u.username.val ++ UserSuffix.server ∉ hubExitNames cfg ∧
      ∀ label ∈ u.guests, label.val ∉ hubExitNames cfg

/-! ## Links -/

theorem hubExitSeeds_eq (uuid5 : Uuid5) (cfg : ConglomerateConfig) :
    hubExitSeeds uuid5 cfg = (hubExitNames cfg).map fun name => (cfg.ns.uuid uuid5, name) := by
  simp only [hubExitSeeds, hubExitNames, List.map_flatMap, List.map_map]
  rfl

theorem hubExitSeeds_nodup : (hubExitSeeds uuid5 cfg).Nodup ↔ (hubExitNames cfg).Nodup := by
  rw [hubExitSeeds_eq]
  constructor
  · exact List.Nodup.of_map _
  · exact List.Nodup.map fun _ _ h => congrArg Prod.snd h

theorem mem_hubExitSeeds {seed : UUID × String} :
    seed ∈ hubExitSeeds uuid5 cfg ↔ seed.1 = cfg.ns.uuid uuid5 ∧ seed.2 ∈ hubExitNames cfg := by
  obtain ⟨base, name⟩ := seed
  simp only [hubExitSeeds_eq, List.mem_map, Prod.mk.injEq]
  constructor
  · rintro ⟨joined, hjoined, rfl, rfl⟩
    exact ⟨rfl, hjoined⟩
  · rintro ⟨rfl, hname⟩
    exact ⟨name, hname, rfl, rfl⟩

theorem slash_not_mem_hubExitNames {name : String} (h : name ∈ hubExitNames cfg) :
    '/' ∉ name.toList := by
  have hid : ∀ id : Identifier, '/' ∉ id.val.toList := Identifier.not_mem (by decide)
  obtain ⟨hub, -, hname⟩ := List.mem_flatMap.mp h
  obtain ⟨exit, -, rfl⟩ := List.mem_map.mp hname
  simp only [String.toList_append, List.mem_append, not_or]
  exact ⟨⟨hid _, by decide⟩, hid _⟩

/-- The name of a portal is that of no link. -/
theorem portal_not_mem_hubExitNames (id : Identifier) : "portal/" ++ id.val ∉ hubExitNames cfg := by
  intro h
  apply slash_not_mem_hubExitNames h
  rw [String.toList_append, List.mem_append]
  exact .inl (by decide)

/-! ## Identities -/

/-- Derived UUIDs that the check keeps apart have different seeds. -/
theorem derivedSeeds_nodup (hcheck : (checkIdentityCollisions uuid5 cfg).isOk = true) :
    (derivedSeeds uuid5 cfg).Nodup := by
  have huuids : (((identities cfg).filter fun i => i.override = none).map
      (Identity.uuid uuid5 cfg.ns)).Nodup :=
    (checkIdentityCollisions_isOk.mp hcheck).sublist (List.filter_sublist.map _)
  have hmap : (derivedSeeds uuid5 cfg).map (fun s => uuid5.run s.1 s.2) =
      ((identities cfg).filter fun i => i.override = none).map (Identity.uuid uuid5 cfg.ns) := by
    rw [derivedSeeds, List.map_map]
    refine List.map_congr_left fun i hi => ?_
    have hnone : i.override = none := of_decide_eq_true (List.mem_filter.mp hi).2
    exact (Identity.uuid_derived hnone).symm
  rw [← hmap] at huuids
  exact huuids.of_map _

/-- A derived identity has the seed of a link only with a joined name under the namespace. -/
theorem disjoint_iff :
    (∀ seed ∈ derivedSeeds uuid5 cfg, seed ∉ hubExitSeeds uuid5 cfg) ↔
      (∀ u ∈ cfg.users, u.uuid = none → u.username.val ∉ hubExitNames cfg) ∧
      ∀ u ∈ cfg.users, cfg.ns.userUuid uuid5 u.username.val u.uuid = cfg.ns.uuid uuid5 →
        u.username.val ++ UserSuffix.server ∉ hubExitNames cfg ∧
          ∀ label ∈ u.guests, label.val ∉ hubExitNames cfg := by
  have hseeds : (∀ seed ∈ derivedSeeds uuid5 cfg, seed ∉ hubExitSeeds uuid5 cfg) ↔
      ∀ i ∈ identities cfg, i.override = none → (i.seed uuid5 cfg.ns).1 = cfg.ns.uuid uuid5 →
        (i.seed uuid5 cfg.ns).2 ∉ hubExitNames cfg := by
    simp only [derivedSeeds, List.forall_mem_map, List.mem_filter, decide_eq_true_eq,
      mem_hubExitSeeds, not_and, and_imp]
  rw [hseeds]
  constructor
  · intro h
    refine ⟨fun u hu hnone => ?_, fun u hu hbase => ⟨?_, fun label hlabel => ?_⟩⟩
    · exact h (.user u) (mem_identities.mpr (.inl ⟨u, hu, .inl rfl⟩)) hnone rfl
    · exact h (.server u) (mem_identities.mpr (.inl ⟨u, hu, .inr (.inl rfl)⟩)) rfl hbase
    · exact h (.guest u label)
        (mem_identities.mpr (.inl ⟨u, hu, .inr (.inr ⟨label, hlabel, rfl⟩)⟩)) rfl hbase
  · rintro ⟨husers, hbased⟩ i hi hnone hbase
    rcases mem_identities.mp hi with ⟨u, hu, rfl | rfl | ⟨label, hlabel, rfl⟩⟩ | ⟨p, -, rfl⟩
    · exact husers u hu hnone
    · exact (hbased u hu hbase).1
    · exact (hbased u hu hbase).2 label hlabel
    · exact portal_not_mem_hubExitNames p.id

/-! ## The network -/

/-- UUIDs derived from distinct seeds are distinct where UUID5 does not collide on them. -/
def DerivedUuidsDistinct (uuid5 : Uuid5) (cfg : ConglomerateConfig) : Prop :=
  (∀ s ∈ networkSeeds uuid5 cfg, ∀ t ∈ networkSeeds uuid5 cfg,
      uuid5.run s.1 s.2 = uuid5.run t.1 t.2 → s = t) →
    ((networkSeeds uuid5 cfg).map fun s => uuid5.run s.1 s.2).Nodup

/-- The seeds of a checked topology are distinct, and with them the UUIDs derived from them,
exactly when its joined names are clear. -/
theorem seeds_distinct_iff (cfg : AcceptedConfig)
    (hcheck : (checkIdentityCollisions uuid5 cfg.toConglomerateConfig).isOk = true) :
    ((networkSeeds uuid5 cfg.toConglomerateConfig).Nodup ∧
        DerivedUuidsDistinct uuid5 cfg.toConglomerateConfig) ↔
      JoinedNamesClear uuid5 cfg.toConglomerateConfig := by
  have hnodup : (networkSeeds uuid5 cfg.toConglomerateConfig).Nodup ↔
      JoinedNamesClear uuid5 cfg.toConglomerateConfig := by
    rw [networkSeeds, List.nodup_append', hubExitSeeds_nodup]
    constructor
    · rintro ⟨-, hlinks, hdisjoint⟩
      obtain ⟨husers, hbased⟩ := disjoint_iff.mp fun seed h h' => hdisjoint h h'
      exact ⟨hlinks, husers, hbased⟩
    · intro h
      exact ⟨derivedSeeds_nodup hcheck, h.links,
        fun seed hseed => disjoint_iff.mpr ⟨h.users, h.based⟩ seed hseed⟩
  rw [← hnodup]
  refine and_iff_left_of_imp fun hseeds hinj => ?_
  exact hseeds.map_on fun s hs t ht heq => hinj s hs t ht heq

theorem seeds_distinct_iff_office :
    (networkSeeds Sample.officeUuid5 Sample.office.toConglomerateConfig).Nodup ∧
      DerivedUuidsDistinct Sample.officeUuid5 Sample.office.toConglomerateConfig :=
  (seeds_distinct_iff Sample.office (by decide)).mpr ⟨by decide, by decide, by decide⟩

/-! ## Two splittings of a joined name -/

namespace Sample

def dashedHubs : HubRegion :=
  { hubRegion with
    nodes := [{ id := { val := "a" }, hostname := { val := "a.example.net" } },
      { id := { val := "a-b" }, hostname := { val := "ab.example.net" } }] }

def dashedExits : ExitRegion :=
  exitRegion fra lowRoute [exitNode { val := "c" }, exitNode { val := "b-c" }]

def dashedNodes : AcceptedConfig :=
  { toConglomerateConfig := topology [dashedExits] [user aliceName] [] dashedHubs }

def dashedUuid5 : Uuid5 :=
  Sample.uuid5 [((⟨0, 0, 0x5000, 0x8000, 0⟩, "alice-server"), ⟨1, 0, 0x5000, 0x8000, 0⟩)]
    (by decide)

end Sample

/-- The links from `a` to `b-c` and from `a-b` to `c` have one seed. -/
theorem dashed_links_collide :
    (checkIdentityCollisions Sample.dashedUuid5 Sample.dashedNodes.toConglomerateConfig).isOk =
        true ∧
      ¬ (networkSeeds Sample.dashedUuid5 Sample.dashedNodes.toConglomerateConfig).Nodup := by
  decide

end HexRift
