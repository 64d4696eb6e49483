import HexRift.Verification.Strict

/-! # The two ends of a reverse tunnel

A hub steers connections into the tunnel of a portal; they emerge at the portal, whose own rules
decide whether they may leave. What a hub sends, the portal lets out. -/

namespace HexRift

variable {cfg : ConglomerateConfig} {crypto : Crypto} {store : KeyStore} {region : HubRegion}
  {node : HubNode} {config : XrayConfig} {portal : Portal} {c c' : Connection}

theorem Portal.PublishedTo.published (hp : portal ∈ cfg.portals)
    (h : portal.PublishedTo node c) : ∃ entry ∈ portal.publish,
      publishedPort portal entry ∈ resolveNodePublishes cfg node ∧
        c.inboundTag = (publishedPort portal entry).tag := by
  obtain ⟨entry, hentry, hon, htag, -⟩ := h
  exact ⟨entry, hentry, mem_resolveNodePublishes.mpr ⟨portal, hp, entry, hentry, hon, rfl⟩, htag⟩

namespace Sample

end Sample

end HexRift
