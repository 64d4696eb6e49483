import HexRift.Model.Render

/-! # The HAProxy config of a node

HAProxy holds port 443 where the node's settings say so. It passes TLS connections on by their
server name, and terminates TLS for the CDN inbound. -/

namespace HexRift

open Checks

/-! ## Sections -/

/-- A line of a section. Those that say where a connection goes are kept apart. -/
inductive Directive where
  | blank
  | other (text : String)
  | bind (address options : String)
  /-- `req.ssl_sni -i`, in full or by its end. -/
  | aclSni (name : String) (byEnd : Bool) (value : String)
  | useBackend (backend acl : String)
  | defaultBackend (backend : String)
  | server (name address options : String)

def Directive.text : Directive → String
  | blank => ""
  | other text => "  " ++ text
  | bind address options => "  bind " ++ address ++ options
  | aclSni name byEnd value =>
      "  acl " ++ name ++ " req.ssl_sni -i " ++ (if byEnd then "-m end " else "") ++ value
  | useBackend backend acl => "  use_backend " ++ backend ++ " if " ++ acl
  | defaultBackend backend => "  default_backend " ++ backend
  | server name address options => "  server " ++ name ++ " " ++ address ++ options

inductive SectionKind where
  | «global»
  | defaults
  | crtStore
  | frontend
  | backend
  deriving DecidableEq

def SectionKind.value : SectionKind → String
  | «global» => "global"
  | defaults => "defaults"
  | crtStore => "crt-store"
  | frontend => "frontend"
  | backend => "backend"

structure HaproxySection where
  /-- Words of the comment above the section. -/
  banner : List String := []
  kind : SectionKind
  name : String := ""
  directives : List Directive

def bannerRule : String := "#---------------------------------------------------------------------"

namespace HaproxySection

def bannerLines (s : HaproxySection) : List String :=
  if s.banner = [] then []
  else [bannerRule] ++ s.banner.map ("#  " ++ ·) ++ [bannerRule]

def header (s : HaproxySection) : String :=
  if s.name = "" then s.kind.value else s.kind.value ++ " " ++ s.name

def lines (s : HaproxySection) : List String :=
  s.bannerLines ++ s.header :: s.directives.map Directive.text

end HaproxySection

abbrev HaproxyConfig := List HaproxySection

/-! ## Rendering a template -/

/-- At most two line ends in a row, `run` of which have been written. -/
def squeezeBlankRuns : ℕ → List Char → List Char
  | _, [] => []
  | run, c :: cs =>
      if c = '\n' then
        if run < 2 then c :: squeezeBlankRuns (run + 1) cs else squeezeBlankRuns (run + 1) cs
      else c :: squeezeBlankRuns 0 cs

/-- `BLANK_RUN_RE.sub("\n\n", text).rstrip("\n") + "\n"` -/
def tidyText (text : String) : String :=
  String.ofList (((squeezeBlankRuns 0 text.toList).reverse.dropWhile (· = '\n')).reverse ++ ['\n'])

def HaproxyConfig.text (config : HaproxyConfig) : String :=
  tidyText (String.join ((config.flatMap HaproxySection.lines).map (· ++ "\n")))

/-! ## The template -/

/-- What the template is told about the CDN inbound. -/
structure HaproxyCdn where
  certAlias : String
  domain : String
  trustedHeader : String
  /-- Exits take any name under the domain, hubs the domain itself. -/
  byEnd : Bool

def globalSection : HaproxySection :=
  { banner := ["GLOBAL"]
    kind := .global
    directives := [
      .other "log /dev/log local0",
      .other "stats socket /run/haproxy/admin.sock mode 660 expose-fd listeners",
      .other "daemon",
      .blank,
      .other "nbthread 1",
      .other "# cpu-map auto:1/1-2 0-1",
      .other "maxconn 20000",
      .other "tune.bufsize 32768",
      .other "tune.maxrewrite 8192",
      .other "tune.maxaccept 32",
      .other "tune.idletimer 60000",
      .other "tune.comp.maxlevel 3",
      .other "tune.http.cookielen 4096",
      .other "tune.h2.header-table-size 16384",
      .other "tune.h2.initial-window-size 131072",
      .other "tune.h2.max-concurrent-streams 256",
      .other "tune.ssl.default-dh-param 2048",
      .other "tune.ssl.cachesize 100000",
      .other "tune.ssl.lifetime 600",
      .blank] }

def defaultsSection : HaproxySection :=
  { kind := .defaults
    directives := [
      .other "option tcpka",
      .other "timeout http-request    20s",
      .other "timeout http-keep-alive 120s",
      .other "timeout connect 5s",
      .other "timeout client  3600s",
      .other "timeout server  3600s",
      .blank] }

def crtStoreSection (cdn : HaproxyCdn) : HaproxySection :=
  { banner := ["CRT STORE"]
    kind := .crtStore
    name := "certs"
    directives := [
      .other "crt-base /usr/local/etc/haproxy/pki",
      .other "key-base /usr/local/etc/haproxy/pki",
      .other ("load crt \"" ++ cdn.certAlias ++ ".pem\" key \"" ++ cdn.certAlias ++
        ".key\" alias \"" ++ cdn.certAlias ++ "\""),
      .blank] }

def edgeCdnDirectives (cdn : HaproxyCdn) : List Directive :=
  [.other "tcp-request inspect-delay 5s",
    .other "tcp-request content accept if \x7b req.ssl_hello_type 1 \x7d",
    .blank,
    .aclSni "sni_cdn" cdn.byEnd (if cdn.byEnd then "." ++ cdn.domain else cdn.domain),
    .blank,
    .useBackend "bk_local_tls_front" "sni_cdn"]

def edgeAddresses (ipv6 : Bool) : List String :=
  "*:443" :: if ipv6 then ["[::]:443"] else []

def edgeSection (ipv6 : Bool) (cdn : Option HaproxyCdn) : HaproxySection :=
  { banner := ["FRONTEND (Edge TCP)"]
    kind := .frontend
    name := "fe_edge_tcp"
    directives :=
      [.other "mode tcp"] ++ (edgeAddresses ipv6).map (.bind · "") ++ [.blank] ++
        cdn.elim [] edgeCdnDirectives ++ [.defaultBackend "bk_reality", .blank] }

def unixAddress (socket : String) : String := "unix@" ++ socket

def cdnFrontSection (cdn : HaproxyCdn) : HaproxySection :=
  { banner := ["FRONTEND (TLS pass-through)"]
    kind := .frontend
    name := "fe_cdn_https_local"
    directives := [
      .other "mode http",
      .bind (unixAddress Socket.haproxyCdn) (" ssl crt \"@certs/" ++ cdn.certAlias ++
        "\" ssl-min-ver TLSv1.2 accept-proxy alpn h2,http/1.1"),
      .other "option http-keep-alive",
      .blank,
      .other "# Restore client info",
      .other "http-request set-header X-Forwarded-Proto https",
      .other ("http-request set-header " ++ cdn.trustedHeader ++ " %[src]"),
      .other "http-request del-header X-Forwarded-For",
      .other "http-request set-header X-Forwarded-For %[src]",
      .other "http-request del-header Proxy",
      .other "http-request del-header Forwarded",
      .blank,
      .defaultBackend "bk_cdn_xhttp",
      .blank] }

def realitySection : HaproxySection :=
  { banner := ["BACKEND (Reality)"]
    kind := .backend
    name := "bk_reality"
    directives := [
      .other "mode tcp",
      .server "xh1" (unixAddress Socket.vlessReality) "",
      .blank] }

def cdnBackendSection : HaproxySection :=
  { banner := ["BACKEND (CDN sockets)"]
    kind := .backend
    name := "bk_cdn_xhttp"
    directives := [
      .other "mode http",
      .other "option http-keep-alive",
      .other "http-reuse always",
      .other "timeout server  3700s",
      .other "timeout connect 5s",
      .other "http-response add-header X-Accel-Buffering no",
      .other "http-response add-header Cache-Control no-store",
      .server "xcdn" (unixAddress Socket.vlessTls) "",
      .blank] }

def localTlsSection : HaproxySection :=
  { kind := .backend
    name := "bk_local_tls_front"
    directives := [
      .other "mode tcp",
      .server "localtls" (unixAddress Socket.haproxyCdn) " send-proxy-v2"] }

/-- `haproxy.cfg.j2` -/
def haproxyTemplate (ipv6 : Bool) (cdn : Option HaproxyCdn) : HaproxyConfig :=
  [globalSection, defaultsSection] ++ cdn.elim [] (fun cdn => [crtStoreSection cdn]) ++
    [edgeSection ipv6 cdn] ++ cdn.elim [] (fun cdn => [cdnFrontSection cdn]) ++
    [realitySection] ++ cdn.elim [] fun _ => [cdnBackendSection, localTlsSection]

/-- `haproxy_disabled.cfg.j2` -/
def haproxyDisabled : HaproxyConfig :=
  [{ banner := [
        "HAProxy DISABLED for this node.",
        "Xray binds :443 directly.",
        "This is a no-op config: nothing is bound, so managed HAProxy",
        "service starts cleanly without conflicting with Xray on :443."]
     kind := .global
     directives := [
       .other "log /dev/log local0",
       .other "daemon",
       .other "maxconn 20000",
       .blank] },
    { kind := .defaults
      directives := [
        .other "timeout connect 5s",
        .other "timeout client  3600s",
        .other "timeout server  3600s"] }]

/-! ## Rendering -/

/-- A character of an HTTP field name. -/
def isHeaderChar (c : Char) : Bool :=
  c.isAlphanum || c ∈ "!#$%&'*+-.^_`|~".toList

/-- A match of the whole of `HTTP_HEADER_TOKEN_RE`. -/
def isHeaderName (header : String) : Bool := header ≠ "" && header.toList.all isHeaderChar

/-- The check of `global.cdn.trusted_forwarded_headers`. -/
def validateTrustedForwardedHeaders (headers : List String) : Except Error (List String) := do
  forEach headers fun header => ensure (isHeaderName header) (.valueError
    ("trusted_forwarded_headers entry must be an RFC-compliant HTTP header field-name, got: " ++
      Python.repr header))
  pure headers

/-- The first trusted header, or the default one. -/
def safeHeader (headers : List String) : Except Error String :=
  match headers with
  | [] => .ok defaultTrustedHeader
  | header :: _ =>
      if isHeaderName header then .ok header
      else
        .error (.renderError
          s!"Invalid trusted forwarded header name: {Python.repr header}")

/-- What the configs of a node are rendered from. -/
inductive NodeContext where
  | exit (ctx : ExitContext)
  | hub (ctx : HubContext)

namespace NodeContext

def shared : NodeContext → SharedContext
  | exit ctx => ctx.shared
  | hub ctx => ctx.shared

def slots : NodeContext → Slots
  | exit ctx => ctx.slots
  | hub ctx => ctx.slots

def nodeType : NodeContext → RegionType
  | exit _ => .exit
  | hub _ => .hub

end NodeContext

def haproxyConfig (ctx : NodeContext) : Except Error HaproxyConfig :=
  if ctx.shared.haproxy then do
    let header ← safeHeader ctx.shared.trustedForwardedHeaders
    pure (haproxyTemplate ctx.shared.ipv6 (ctx.slots.cdn.map fun cdn =>
      { certAlias := cdn.certAlias
        domain := cdn.domain
        trustedHeader := header
        byEnd := ctx.nodeType = .exit }))
  else .ok haproxyDisabled

def renderHaproxy (ctx : NodeContext) : Except Error String := do
  pure (← haproxyConfig ctx).text

/-- The context of a node, from its stored keys and for a hub those of every exit node. -/
def buildContext (crypto : Crypto) (cfg : ConglomerateConfig) (store : KeyStore) :
    Placed → Except Error NodeContext
  | .exit region node => do
      let keys ← loadNodeKeys store node.id.val
      pure (.exit (← buildExitContext crypto cfg region node keys))
  | .hub region node => do
      let keys ← loadNodeKeys store node.id.val
      let exitIds := cfg.exitRegions.flatMap fun r => r.nodes.map (·.id.val)
      let exitKeys ← mapEach exitIds fun id => do pure (id, ← loadNodeKeys store id)
      pure (.hub (← buildHubContext crypto cfg region node keys fun id => exitKeys.lookup id))

def Placed.role : Placed → RegionType
  | exit .. => .exit
  | hub .. => .hub

/-- The HAProxy config of a node, from the stored keys. -/
def nodeHaproxy (crypto : Crypto) (cfg : ConglomerateConfig) (store : KeyStore) (p : Placed) :
    Except Error HaproxyConfig := do
  haproxyConfig (← buildContext crypto cfg store p)

end HexRift
