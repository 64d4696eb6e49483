import HexRift.Model.Links

/-! # Stream settings

Transport and security of the inbounds and of the links, as each end is configured. -/

namespace HexRift

/-! ## Transport -/

/-- `xhttpSettings`. The CDN has paddings of its own. -/
structure XhttpSettings where
  host : String
  path : String
  mode : String
  cdn : Bool

def makeXhttpSettings (host path : String) (cdn : Bool) : XhttpSettings :=
  { host := host, path := path, mode := "auto", cdn := cdn }

/-- QUIC parameters of a trunk. -/
structure QuicTuning where
  maxIncomingStreams : Option ℕ := none
  keepAlivePeriod : Option ℕ := none
  maxStreamReceiveWindow : ℕ := hysteriaTrunkStreamReceiveWindow
  maxConnectionReceiveWindow : ℕ := hysteriaTrunkConnReceiveWindow
  disableChromeParrot : Option Bool := none

def hysteriaTrunkListenerQuic : QuicTuning :=
  { maxIncomingStreams := some hysteriaTrunkMaxIncomingStreams }

def hysteriaTrunkDialerQuic (chromeParrot : Bool) : QuicTuning :=
  { keepAlivePeriod := some hysteriaTrunkKeepaliveSecs, disableChromeParrot := some !chromeParrot }

/-- `finalmask` of a Hysteria end: its `quicParams`, and the password of the salamander mask. -/
structure HysteriaFinalmask where
  congestion : HysteriaCongestion
  brutalUp : Option String
  brutalDown : Option String
  quicTuning : Option QuicTuning
  obfsPassword : Option String

def makeHysteriaFinalmask (congestion : HysteriaCongestion)
    (brutalUp brutalDown obfsPassword : Option String) (quicTuning : Option QuicTuning) :
    HysteriaFinalmask :=
  { congestion := congestion, brutalUp := brutalUp, brutalDown := brutalDown
    quicTuning := quicTuning, obfsPassword := obfsPassword }

inductive TransportSettings where
  | xhttp (settings : XhttpSettings)
  /-- mKCP in DNS queries for the domains. -/
  | kcp (domains : List String)
  | hysteriaListener (masqueradeUrl : String) (finalmask : HysteriaFinalmask)
  | hysteriaDialer (auth : UUID) (finalmask : HysteriaFinalmask)

/-! ## Security -/

structure RealityListener where
  dest : String
  serverNames : List String
  privateKey : String
  shortIds : List String
  fallbackLimits : RealityFallbackLimits

structure RealityDialer where
  publicKey : String
  fingerprint : TlsFingerprint
  serverName : String
  shortId : String

structure TlsListener where
  certificates : List CertificateEntry
  alpn : List String

structure TlsDialer where
  serverName : String
  alpn : List String
  pinnedPeerCertSha256 : Option String

/-- `realitySettings` or `tlsSettings`, of an inbound or of a link. -/
inductive SecuritySettings where
  | realityListener (settings : RealityListener)
  | realityDialer (settings : RealityDialer)
  | tlsListener (settings : TlsListener)
  | tlsDialer (settings : TlsDialer)

structure StreamSettings where
  transport : TransportSettings
  security : Option SecuritySettings := none

end HexRift
