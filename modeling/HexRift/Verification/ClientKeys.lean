import HexRift.Verification.Identities

/-! # Client keys

A client is identified by its UUID without the third segment. The collision check compares
whole UUIDs, which is enough for derived UUIDs but not for explicit ones. -/

namespace HexRift

variable {cfg : ConglomerateConfig} {uuid5 : Uuid5}

/-- Base and name of every UUID of the topology that is derived. -/
def derivedSeeds (uuid5 : Uuid5) (cfg : ConglomerateConfig) : List (UUID × String) :=
  ((identities cfg).filter fun i => i.override = none).map (Identity.seed uuid5 cfg.ns)

/-- Different seeds of the list derive UUIDs with different client keys. -/
def Uuid5.SeparatesKeys (uuid5 : Uuid5) (seeds : List (UUID × String)) : Prop :=
  ∀ s ∈ seeds, ∀ t ∈ seeds, s ≠ t → (uuid5.run s.1 s.2).clientKey ≠ (uuid5.run t.1 t.2).clientKey

instance (seeds : List (UUID × String)) : Decidable (uuid5.SeparatesKeys seeds) :=
  inferInstanceAs (Decidable (∀ s ∈ seeds, ∀ t ∈ seeds, s ≠ t → _ ≠ _))

/-- No two identities that can land on a hub inbound share a client key. -/
def ClientKeysDistinct (uuid5 : Uuid5) (cfg : ConglomerateConfig) : Prop :=
  ((iterHubIdentities uuid5 cfg cfg.ns).map fun i => i.1.clientKey).Nodup

/-- No explicit UUID agrees with that of another identity outside the third segment. -/
def OverridesClear (uuid5 : Uuid5) (cfg : ConglomerateConfig) : Prop :=
  ∀ i ∈ identities cfg, ∀ u ∈ i.override, ∀ j ∈ identities cfg, j ≠ i →
    u.clientKey ≠ (j.uuid uuid5 cfg.ns).clientKey

theorem clientKeysDistinct_iff_nodup :
    ClientKeysDistinct uuid5 cfg ↔
      ((identities cfg).map fun i => (i.uuid uuid5 cfg.ns).clientKey).Nodup := by
  rw [ClientKeysDistinct, iterHubIdentities_eq, List.map_map]
  rfl

theorem Identity.uuid_of_override {i : Identity} {u : UUID} {ns : Namespace}
    (h : i.override = some u) : i.uuid uuid5 ns = u := by
  rw [Identity.uuid, h, Option.getD_some]

theorem Identity.uuid_derived {i : Identity} {ns : Namespace} (h : i.override = none) :
    i.uuid uuid5 ns = uuid5.run (i.seed uuid5 ns).1 (i.seed uuid5 ns).2 := by
  rw [Identity.uuid, h, Option.getD_none]

theorem seed_mem_derivedSeeds {i : Identity} (hi : i ∈ identities cfg) (h : i.override = none) :
    i.seed uuid5 cfg.ns ∈ derivedSeeds uuid5 cfg :=
  List.mem_map_of_mem (List.mem_filter.mpr ⟨hi, by simpa using h⟩)

/-- Two derived UUIDs share a client key only when they are one. -/
theorem derived_key_inj (hcheck : (checkIdentityCollisions uuid5 cfg).isOk = true)
    (hkeys : uuid5.SeparatesKeys (derivedSeeds uuid5 cfg)) {i j : Identity}
    (hi : i ∈ identities cfg) (hj : j ∈ identities cfg) (hnone : i.override = none)
    (hnone' : j.override = none)
    (heq : (i.uuid uuid5 cfg.ns).clientKey = (j.uuid uuid5 cfg.ns).clientKey) : i = j := by
  by_cases hseed : i.seed uuid5 cfg.ns = j.seed uuid5 cfg.ns
  · refine uuid_inj hcheck hi hj ?_
    rw [Identity.uuid_derived hnone, Identity.uuid_derived hnone', hseed]
  · have hne := hkeys _ (seed_mem_derivedSeeds hi hnone) _ (seed_mem_derivedSeeds hj hnone') hseed
    rw [Identity.uuid_derived hnone, Identity.uuid_derived hnone'] at heq
    exact absurd heq hne

/-- The check keeps client keys apart exactly when no explicit UUID is a variant of another
identity's. -/
theorem client_keys_distinct_iff (hcheck : (checkIdentityCollisions uuid5 cfg).isOk = true)
    (hkeys : uuid5.SeparatesKeys (derivedSeeds uuid5 cfg)) :
    ClientKeysDistinct uuid5 cfg ↔ OverridesClear uuid5 cfg := by
  rw [clientKeysDistinct_iff_nodup]
  constructor
  · intro hnodup i hi u hu j hj hne hkey
    have huuid : i.uuid uuid5 cfg.ns = u := Identity.uuid_of_override hu
    rw [← huuid] at hkey
    exact hne (List.inj_on_of_nodup_map hnodup hi hj hkey).symm
  · intro hclear
    refine (identities_nodup hcheck).map_on fun i hi j hj heq => ?_
    by_contra hne
    cases hi' : i.override with
    | some u =>
        rw [Identity.uuid_of_override hi'] at heq
        exact hclear i hi u hi' j hj (Ne.symm hne) heq
    | none =>
        cases hj' : j.override with
        | some v =>
            rw [Identity.uuid_of_override hj'] at heq
            exact hclear j hj v hj' i hi hne heq.symm
        | none => exact hne (derived_key_inj hcheck hkeys hi hj hi' hj' heq)

/-- Two users whose explicit UUIDs differ in the third segment only. -/
def variantUuids : AcceptedConfig :=
  { Sample.topology []
      [Sample.user Sample.aliceName []
          (some ⟨0x1a2b3c4d, 0x5e6f, 0x4a00, 0x8123, 0x456789abcdef⟩),
        Sample.user { val := "bob" } []
          (some ⟨0x1a2b3c4d, 0x5e6f, 0x4b00, 0x8123, 0x456789abcdef⟩)] with }

def variantUuid5 : Uuid5 :=
  Sample.uuid5 [
    ((⟨0x1a2b3c4d, 0x5e6f, 0x4a00, 0x8123, 0x456789abcdef⟩, "alice-server"),
      ⟨0xeba0867a, 0x4ff6, 0x5899, 0x8448, 0x44f4ffe2d8cd⟩),
    ((⟨0x1a2b3c4d, 0x5e6f, 0x4b00, 0x8123, 0x456789abcdef⟩, "bob-server"),
      ⟨0xa0407b4b, 0x25d5, 0x51d0, 0xb7e7, 0x5ab45f153246⟩)] (by decide)

theorem client_keys_distinct_iff_variantUuids :
    ClientKeysDistinct variantUuid5 variantUuids.toConglomerateConfig ↔
      OverridesClear variantUuid5 variantUuids.toConglomerateConfig :=
  client_keys_distinct_iff (by decide) (by decide)

/-- The check accepts the two users, who share a client key. -/
theorem variant_uuids_share_key :
    ¬ ((checkIdentityCollisions variantUuid5 variantUuids.toConglomerateConfig).isOk = true →
      variantUuid5.SeparatesKeys (derivedSeeds variantUuid5 variantUuids.toConglomerateConfig) →
      ClientKeysDistinct variantUuid5 variantUuids.toConglomerateConfig) := by
  unfold ClientKeysDistinct
  decide

end HexRift
