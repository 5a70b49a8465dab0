import Veysrs.Http.Message

/-!
# Choosing a proxy route

The pure part of `server/proxy.rs`: the host a request names, the routes that match it, and the
header filters of the forwarded request.
-/

namespace Veysrs.Proxy

open Core

/-- The host of a bracketed address: an address literal followed by nothing, or by a suffix that
reads as a number or is `:80`. -/
def bracketHost (stripped : Str) : Option Str :=
  match splitOnce ']' stripped with
  | none => none
  | some (address, suffix) =>
    if !suffix.isEmpty && (parseUnsigned (2 ^ 16) suffix).isNone && suffix != ":80".toList then
      none
    else some address

/-- `request_host`: the Host header lower-cased and without its port. -/
def requestHost (req : HttpRequest) : Option Str :=
  match req.getHeader "Host" with
  | none => none
  | some value =>
    let raw := toAsciiLowercase (trim value)
    if raw.isEmpty || (utf8 raw).any (fun b => b ≤ 0x20 || b == 0x7f) then none
    else if raw.head? = some '[' then bracketHost raw.tail
    else match rsplitOnce ':' raw with
      | some (name, _) => some name
      | none => some raw

def routeHostMatches (route : ProxyRoute) (host : Str) : Bool :=
  route.host = "*".toList || route.host = host || trimEndMatches ':' route.host = host

def routeMatches (route : ProxyRoute) (req : HttpRequest) : Bool :=
  routeHostMatches route ((requestHost req).getD []) && route.routePrefix.isPrefixOf req.uri

def routeMatchesRequest (req : HttpRequest) (config : ServerConfig) : Bool :=
  config.proxyRoutes.any fun route => routeMatches route req

/-- `max_by_key(|route| route.prefix.len())`: of the longest, the last. -/
def longestRoute (routes : List ProxyRoute) : Option ProxyRoute :=
  routes.foldl (fun best route => match best with
    | none => some route
    | some b =>
      if (utf8 b.routePrefix).length ≤ (utf8 route.routePrefix).length then some route else best)
    none

/-- The route a request is forwarded by. -/
def selectRoute (req : HttpRequest) (config : ServerConfig) : Option ProxyRoute :=
  longestRoute (config.proxyRoutes.filter fun route => routeMatches route req)

lemma longestRoute_isSome {routes : List ProxyRoute} (h : routes ≠ []) :
    (longestRoute routes).isSome = true := by
  obtain ⟨route, rest, rfl⟩ := List.exists_cons_of_ne_nil h
  refine List.foldlRecOn (motive := fun best : Option ProxyRoute => best.isSome = true) rest _ rfl ?_
  intro best hb other _
  obtain ⟨b, rfl⟩ := Option.isSome_iff_exists.mp hb
  simp only
  split_ifs <;> rfl

/-- A request that some route matches has a route. -/
lemma selectRoute_of_matches {req : HttpRequest} {config : ServerConfig}
    (h : routeMatchesRequest req config = true) : ∃ route, selectRoute req config = some route := by
  refine Option.isSome_iff_exists.mp (longestRoute_isSome fun hn => ?_)
  obtain ⟨route, hmem, hm⟩ := List.any_eq_true.mp h
  exact List.filter_eq_nil_iff.mp hn route hmem hm

def isWebsocketUpgrade (req : HttpRequest) : Bool :=
  (match req.getHeader "Upgrade" with
    | some v => eqIgnoreAsciiCase v "websocket".toList
    | none => false) &&
  (match req.getHeader "Connection" with
    | some v => (v.splitOn ',').any fun p => eqIgnoreAsciiCase (trim p) "upgrade".toList
    | none => false)

def isHeaderNameByte (b : UInt8) : Bool :=
  (0x30 ≤ b && b ≤ 0x39) || (0x41 ≤ b && b ≤ 0x5a) || (0x61 ≤ b && b ≤ 0x7a) ||
    (utf8 "!#$%&'*+-.^_`|~".toList).contains b

def validHeader (name value : Str) : Bool :=
  !name.isEmpty && (utf8 name).all isHeaderNameByte &&
    !(utf8 value).any fun b => b == 0x0d || b == 0x0a || b == 0

def hopByHopNames : List String :=
  ["connection", "keep-alive", "proxy-connection", "te", "trailer", "transfer-encoding", "upgrade"]

def hopByHop (name : Str) : Bool :=
  hopByHopNames.any fun n => toAsciiLowercase name = n.toList

end Veysrs.Proxy
