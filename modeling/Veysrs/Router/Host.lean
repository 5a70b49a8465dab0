import Veysrs.FastCgi.Request

/-!
# The host a request names

Three functions read the Host header of one request: `normalize_host` for the virtual host
(`router/handler.rs`), `request_host` for the proxy routes and the first lines of `select_route` for
the FastCGI routes.  They agree on `name` and `name:port` and on little else (`hosts_agree_iff`):
a bracketed address is a name of its own to each of them, white space around the value is cut off
by two of them only, and a value the first one refuses still selects routes.

An HTTP/2 request carries its host in `:authority`, which `dispatch_h2_request` appends to the
regular headers; a regular `host` field comes before it (`authority_decides_iff`).
-/

namespace Veysrs

open Core List

/-! ## Virtual hosts -/

/-- The name in brackets, if nothing or a port follows it. -/
def normalizeBracketed (stripped : Str) : Option Str :=
  match splitOnce ']' stripped with
  | none => none
  | some (address, suffix) =>
    if !suffix.isEmpty && (suffix.head? ≠ some ':' || (parseUnsigned (2 ^ 16) suffix.tail).isNone)
    then none
    else some address

def normalizeHost (value : Str) : Option Str :=
  let value := toAsciiLowercase (trim value)
  if value.isEmpty || (utf8 value).any (fun b => b ≤ 0x20 || b == 0x7f) then none
  else if value.head? = some '[' then normalizeBracketed value.tail
  else match rsplitOnce ':' value with
    | some (name, port) =>
      if name.contains ':' || (parseUnsigned (2 ^ 16) port).isNone then none else some name
    | none => some value

def selectVhost (config : ServerConfig) (req : HttpRequest) : Option VhostConfig :=
  match (req.getHeader "Host").bind normalizeHost with
  | none => none
  | some host =>
    match config.vhosts.find? fun vhost => vhost.host = host with
    | some vhost => some vhost
    | none => config.vhosts.find? fun vhost => vhost.host = "*".toList || vhost.host = "_".toList

/-! ## Three readings of one value -/

/-- **One meaning for a Host value.**  A name that `normalize_host` returns is the one the proxy
and the FastCGI routes are compared with, and with a value it refuses no route is selected that
names a host. -/
structure HostsAgree (value : Str) : Prop where
  accepted : ∀ name, normalizeHost value = some name →
    ∀ req : HttpRequest, req.getHeader "Host" = some value →
      Proxy.requestHost req = some name ∧ FastCgi.routeHost req = name
  rejected : normalizeHost value = none →
    ∀ req : HttpRequest, req.getHeader "Host" = some value → ∀ config : ServerConfig,
      (∀ route, Proxy.selectRoute req config = some route → route.host = "*".toList) ∧
      (∀ env route controller, FastCgi.selectRoute env req config = some (route, controller) →
        route.host = "*".toList)

/-- A name, alone or with a port, that starts where the value does.  White space may follow a port
but not the name. -/
structure PlainHost (value : Str) : Prop where
  accepted : (normalizeHost value).isSome = true
  unbracketed : (trim value).head? ≠ some '['
  flush : value.dropWhile isWhitespace = value
  tight : ':' ∉ value → trim value = value

/-! ### Where the readings meet -/

section Readings

variable {value name : Str} {req : HttpRequest}

/-- The guard that `normalize_host` and `request_host` share. -/
lemma clean_of_normalizeHost (h : normalizeHost value = some name) :
    ¬((toAsciiLowercase (trim value)).isEmpty ||
      (utf8 (toAsciiLowercase (trim value))).any (fun b => b ≤ 0x20 || b == 0x7f)) = true := by
  intro hu
  rw [normalizeHost] at h
  simp only [if_pos hu] at h
  cases h

lemma head_lower {s : Str} : (toAsciiLowercase s).head? = some '[' ↔ s.head? = some '[' := by
  cases s with
  | nil => simp [toAsciiLowercase]
  | cons c s => simp [toAsciiLowercase, toLower_eq_iff (show '['.isAlpha = false by decide)]

/-- A name outside brackets stands before the only colon, or there is none. -/
lemma normalizeHost_unbracketed (hpl : (trim value).head? ≠ some '[')
    (h : normalizeHost value = some name) :
    (rsplitOnce ':' (toAsciiLowercase (trim value)) = none ∧
        name = toAsciiLowercase (trim value)) ∨
      (∃ port, rsplitOnce ':' (toAsciiLowercase (trim value)) = some (name, port) ∧ ':' ∉ name) := by
  rw [normalizeHost, if_neg (clean_of_normalizeHost h),
    if_neg (head_lower.not.mpr hpl)] at h
  cases hs : rsplitOnce ':' (toAsciiLowercase (trim value)) with
  | none =>
    rw [hs] at h
    cases h
    exact .inl ⟨rfl, rfl⟩
  | some parts =>
    obtain ⟨before, port⟩ := parts
    rw [hs] at h
    simp only at h
    split_ifs at h with hp
    cases h
    simp only [Bool.or_eq_true, contains_iff_mem, not_or] at hp
    exact .inr ⟨port, rfl, hp.1⟩

lemma requestHost_of_normalizeHost (hp : (trim value).head? ≠ some '[')
    (h : normalizeHost value = some name) (hr : req.getHeader "Host" = some value) :
    Proxy.requestHost req = some name := by
  rw [Proxy.requestHost, hr]
  simp only
  rw [if_neg (clean_of_normalizeHost h),
    if_neg (head_lower.not.mpr hp)]
  rcases normalizeHost_unbracketed hp h with ⟨hs, rfl⟩ | ⟨port, hs, -⟩
  · rw [hs]
  · rw [hs]

lemma routeHost_eq (hr : req.getHeader "Host" = some value) :
    FastCgi.routeHost req = toAsciiLowercase (value.takeWhile (· ≠ ':')) := by
  rw [FastCgi.routeHost, hr]
  rfl

/-- What comes before the first colon is at least what has none. -/
lemma length_le_takeWhile {p q : Str} (hp : ':' ∉ p) :
    p.length ≤ ((p ++ q).takeWhile (· ≠ ':')).length := by
  rw [takeWhile_append_of_pos fun c hc => by
    rw [decide_eq_true_eq]
    rintro rfl
    exact hp hc]
  simp

lemma colon_not_whitespace {c : Char} (h : isWhitespace c = true) : c ≠ ':' := by
  rintro rfl
  cases h

/-- The leading white space and the trimmed value, in front of the rest. -/
lemma value_eq (value : Str) : ∃ after,
    value = value.takeWhile isWhitespace ++ trim value ++ after ∧ ∀ c ∈ after, c ≠ ':' := by
  obtain ⟨after, hd, ha⟩ := exists_trim_append value
  refine ⟨after, ?_, fun c hc => colon_not_whitespace (ha c hc)⟩
  rw [append_assoc, ← hd, takeWhile_append_dropWhile]

lemma colon_notMem_leading (value : Str) : ':' ∉ value.takeWhile isWhitespace :=
  fun h => colon_not_whitespace (mem_takeWhile_imp h) rfl

/-- In brackets the FastCGI routes are compared with another name: one that still has its bracket,
or one that ends before the address does. -/
lemma routeHost_ne_of_bracketed (hb : (trim value).head? = some '[')
    (h : normalizeHost value = some name) :
    toAsciiLowercase (value.takeWhile (· ≠ ':')) ≠ name := by
  intro heq
  rw [normalizeHost, if_neg (clean_of_normalizeHost h),
    if_pos (head_lower.mpr hb), normalizeBracketed] at h
  obtain ⟨rest, hr⟩ : ∃ rest, trim value = '[' :: rest := by
    cases ht : trim value with
    | nil => rw [ht] at hb; cases hb
    | cons c rest => rw [ht] at hb; cases hb; exact ⟨rest, rfl⟩
  have hta : (toAsciiLowercase (trim value)).tail = toAsciiLowercase rest := by
    rw [hr]
    rfl
  rw [hta] at h
  cases hs : splitOnce ']' (toAsciiLowercase rest) with
  | none => rw [hs] at h; cases h
  | some parts =>
    obtain ⟨address, suffix⟩ := parts
    rw [hs] at h
    simp only at h
    split_ifs at h
    cases h
    obtain ⟨hp, -⟩ := splitOnce_eq_some hs
    -- the address is the lower-case form of a part of the value
    obtain ⟨a, b, hab, ha⟩ : ∃ a b, rest = a ++ b ∧ toAsciiLowercase a = name := by
      refine ⟨rest.take name.length, rest.drop name.length, (take_append_drop _ _).symm, ?_⟩
      rw [toAsciiLowercase, map_take, ← toAsciiLowercase, hp, take_left]
    by_cases hc : ':' ∈ name
    · rw [← heq, mem_toAsciiLowercase (by decide)] at hc
      have := mem_takeWhile_imp hc
      simp at this
    · obtain ⟨after, hv, -⟩ := value_eq value
      have hn : ':' ∉ value.takeWhile isWhitespace ++ '[' :: a := by
        rw [mem_append, mem_cons]
        rintro (hl | hbr | hm)
        · exact colon_notMem_leading value hl
        · cases hbr
        · exact hc (by rw [← ha, mem_toAsciiLowercase (by decide)]; exact hm)
      have hlen := length_le_takeWhile (q := b ++ after) hn
      have hw : value.takeWhile isWhitespace ++ '[' :: a ++ (b ++ after) = value := by
        conv_rhs => rw [hv, hr, hab]
        simp
      rw [hw] at hlen
      have hsa := congrArg List.length heq
      rw [← ha] at hsa
      simp only [length_toAsciiLowercase, length_append, length_cons] at hsa hlen
      omega

/-- Outside brackets the FastCGI routes are compared with the leading white space and the name,
and with what follows the name if there is no port. -/
lemma routeHost_unbracketed (hpl : (trim value).head? ≠ some '[')
    (h : normalizeHost value = some name) :
    ∃ raw, name = toAsciiLowercase raw ∧
      ((':' ∈ value ∧ value.takeWhile (· ≠ ':') = value.takeWhile isWhitespace ++ raw) ∨
        (':' ∉ value ∧ value.takeWhile (· ≠ ':') = value ∧ raw = trim value)) := by
  obtain ⟨after, hv, ha⟩ := value_eq value
  rcases normalizeHost_unbracketed hpl h with ⟨hs, hn⟩ | ⟨port, hs, hn⟩
  · rw [rsplitOnce_eq_none, mem_toAsciiLowercase (by decide)] at hs
    have hno : ':' ∉ value := by
      rw [hv, mem_append, mem_append]
      rintro ((hl | htr) | hm)
      · exact colon_notMem_leading value hl
      · exact hs htr
      · exact ha _ hm rfl
    refine ⟨trim value, hn, .inr ⟨hno, ?_, rfl⟩⟩
    rw [takeWhile_eq_self_iff]
    intro c hc
    rw [decide_eq_true_eq]
    rintro rfl
    exact hno hc
  · obtain ⟨hp, -⟩ := rsplitOnce_eq_some hs
    -- cut the value itself where its lower-case form is cut
    have ht : toAsciiLowercase ((trim value).take name.length) = name := by
      rw [toAsciiLowercase, map_take, ← toAsciiLowercase, hp, take_left]
    have hd : toAsciiLowercase ((trim value).drop name.length) = ':' :: port := by
      rw [toAsciiLowercase, map_drop, ← toAsciiLowercase, hp, drop_left]
    obtain ⟨c, rest, hr⟩ : ∃ c rest, (trim value).drop name.length = c :: rest := by
      cases hca : (trim value).drop name.length with
      | nil => rw [hca] at hd; cases hd
      | cons c rest => exact ⟨c, rest, rfl⟩
    have hc : c = ':' := by
      rw [hr, toAsciiLowercase, map_cons, List.cons.injEq] at hd
      exact (toLower_eq_iff (by decide)).mp hd.1
    subst hc
    have hcut : value = (value.takeWhile isWhitespace ++ (trim value).take name.length) ++
        ':' :: (rest ++ after) := by
      conv_lhs => rw [hv, ← take_append_drop name.length (trim value), hr]
      simp
    have hraw : ':' ∉ value.takeWhile isWhitespace ++ (trim value).take name.length := by
      rw [mem_append]
      rintro (hl | hm)
      · exact colon_notMem_leading value hl
      · refine hn ?_
        rw [← ht, mem_toAsciiLowercase (by decide)]
        exact hm
    refine ⟨(trim value).take name.length, ht.symm, .inl ⟨?_, ?_⟩⟩
    · rw [hcut]
      simp
    · conv_lhs => rw [hcut]
      rw [takeWhile_append_of_pos fun c hc => by
        rw [decide_eq_true_eq]
        rintro rfl
        exact hraw hc]
      simp

end Readings

/-- A route for exactly the host the request is read as. -/
def routeNaming (host : Str) : ProxyRoute :=
  { host := if host = [] ∨ host = "*".toList then host ++ [':'] else host
    routePrefix := "/".toList
    upstream := "http://127.0.0.1:9000".toList }

lemma routeNaming_host_ne (host : Str) : (routeNaming host).host ≠ "*".toList := by
  simp only [routeNaming]
  split_ifs with h
  · rcases h with rfl | rfl <;> decide
  · exact fun heq => h (.inr heq)

lemma routeHostMatches_routeNaming (host : Str) :
    Proxy.routeHostMatches (routeNaming host) host = true := by
  by_cases h : host = [] ∨ host = "*".toList
  · rcases h with rfl | rfl <;> decide
  · rw [Proxy.routeHostMatches, routeNaming, if_neg h]
    simp

/-- A request for the root that names a host. -/
def rootRequest (host : Str) : HttpRequest :=
  { method := .get, uri := "/".toList, version := "HTTP/1.1".toList
    headers := [("Host".toList, host)], body := [] }

lemma getHeader_rootRequest (host : Str) : (rootRequest host).getHeader "Host" = some host := by
  have hn : eqIgnoreAsciiCase "Host".toList "Host".toList = true := by decide
  rfl

/-- The three readings agree on exactly the plain hosts. -/
theorem hosts_agree_iff (value : Str) : HostsAgree value ↔ PlainHost value := by
  constructor
  · intro h
    have haccepted : (normalizeHost value).isSome = true := by
      rw [Option.isSome_iff_ne_none]
      intro hnone
      -- a route for whatever name the proxy reads is selected
      obtain ⟨hproxy, -⟩ := h.rejected hnone (rootRequest value) (getHeader_rootRequest value)
        { proxyRoutes := [routeNaming ((Proxy.requestHost (rootRequest value)).getD [])] }
      refine routeNaming_host_ne ((Proxy.requestHost (rootRequest value)).getD [])
        (hproxy (routeNaming _) ?_)
      rw [Proxy.selectRoute, filter_cons_of_pos]
      · rfl
      · rw [Proxy.routeMatches, routeHostMatches_routeNaming]
        exact (by decide : "/".toList.isPrefixOf "/".toList = true)
    obtain ⟨name, hname⟩ := Option.isSome_iff_exists.mp haccepted
    obtain ⟨-, hroute⟩ := h.accepted name hname (rootRequest value) (getHeader_rootRequest value)
    rw [routeHost_eq (getHeader_rootRequest value)] at hroute
    have hplain : (trim value).head? ≠ some '[' := fun hbracket =>
      routeHost_ne_of_bracketed hbracket hname hroute
    obtain ⟨raw, rfl, ⟨hcolon, htake⟩ | ⟨hcolon, htake, hraw⟩⟩ :=
      routeHost_unbracketed hplain hname
    · have hlen := congrArg List.length hroute
      rw [htake] at hlen
      simp only [length_toAsciiLowercase, length_append] at hlen
      have hnil : value.takeWhile isWhitespace = [] := length_eq_zero_iff.mp (by omega)
      refine ⟨haccepted, hplain, ?_, fun hno => absurd hcolon hno⟩
      conv_rhs => rw [← takeWhile_append_dropWhile (p := isWhitespace) (l := value), hnil]
      rfl
    · have hlen := congrArg List.length hroute
      rw [htake, hraw] at hlen
      simp only [length_toAsciiLowercase] at hlen
      have htrim : trim value = value :=
        (( rdropWhile_prefix _ _).sublist.trans (dropWhile_sublist _)).eq_of_length
          hlen.symm
      refine ⟨haccepted, hplain, ?_, fun _ => htrim⟩
      refine (dropWhile_sublist _).eq_of_length_le ?_
      calc value.length = (trim value).length := by rw [htrim]
        _ ≤ (value.dropWhile isWhitespace).length := ( rdropWhile_prefix _ _).length_le
  · intro h
    refine ⟨fun name hname req hreq => ⟨requestHost_of_normalizeHost h.unbracketed hname hreq, ?_⟩,
      fun hnone => ?_⟩
    · rw [routeHost_eq hreq]
      obtain ⟨raw, rfl, ⟨-, htake⟩ | ⟨hcolon, htake, rfl⟩⟩ :=
        routeHost_unbracketed h.unbracketed hname
      · have hnil : value.takeWhile isWhitespace = [] := by
          have hsplit := takeWhile_append_dropWhile (p := isWhitespace) (l := value)
          rw [h.flush] at hsplit
          exact append_left_eq_self.mp hsplit
        rw [htake, hnil]
        rfl
      · rw [htake, h.tight hcolon]
    · exact absurd hnone (Option.isSome_iff_ne_none.mp h.accepted)

/-- An IPv6 address with a port: a name to the virtual hosts, no host to the proxy, and a bracket to
FastCGI. -/
theorem bracketed_host_read_apart :
    normalizeHost "[::1]:8080".toList = some "::1".toList ∧
      Proxy.requestHost (rootRequest "[::1]:8080".toList) = none ∧
      FastCgi.routeHost (rootRequest "[::1]:8080".toList) = "[".toList ∧
      ¬HostsAgree "[::1]:8080".toList := by
  refine ⟨by decide, by decide, by decide, fun h => ?_⟩
  have hproxy := (h.accepted "::1".toList (by decide) (rootRequest "[::1]:8080".toList)
    (getHeader_rootRequest _)).1
  exact absurd hproxy (by decide)

/-- A port that is no number: the virtual hosts refuse the value, the proxy routes take its name. -/
example : normalizeHost "shop.example:x".toList = none ∧
    Proxy.requestHost (rootRequest "shop.example:x".toList) = some "shop.example".toList := by
  decide

/-! ## The authority of an HTTP/2 request -/

/-- The request with nothing but a Host header. -/
def onlyHost (req : HttpRequest) (host : Str) : HttpRequest :=
  { req with headers := [("Host".toList, host)] }

/-- **The authority decides.**  It is the Host header the routers read, and each of them selects
what it selects for a request that has no other. -/
structure AuthorityDecides (req : HttpRequest) (authority : Str) : Prop where
  host : req.getHeader "Host" = some authority
  vhost : ∀ config, selectVhost config req = selectVhost config (onlyHost req authority)
  proxyRoute : ∀ config,
    Proxy.selectRoute req config = Proxy.selectRoute (onlyHost req authority) config
  fastCgiRoute : ∀ config path,
    FastCgi.routeFor req config path = FastCgi.routeFor (onlyHost req authority) config path

/-- The routers read nothing of the headers but the Host. -/
lemma authorityDecides_of_host {req : HttpRequest} {authority : Str}
    (h : req.getHeader "Host" = some authority) : AuthorityDecides req authority := by
  have ho : (onlyHost req authority).getHeader "Host" = some authority :=
    getHeader_rootRequest authority
  have hp : Proxy.requestHost req = Proxy.requestHost (onlyHost req authority) := by
    rw [Proxy.requestHost, Proxy.requestHost, h, ho]
  have hf : FastCgi.routeHost req = FastCgi.routeHost (onlyHost req authority) := by
    rw [routeHost_eq h, routeHost_eq ho]
  refine ⟨h, fun config => ?_, fun config => ?_, fun config path => ?_⟩
  · rw [selectVhost, selectVhost, h, ho]
  · have hr : (fun route => Proxy.routeMatches route req) =
        fun route => Proxy.routeMatches route (onlyHost req authority) := by
      funext route
      rw [Proxy.routeMatches, hp]
      rfl
    rw [Proxy.selectRoute, Proxy.selectRoute, hr]
  · rw [FastCgi.routeFor, FastCgi.routeFor, hf]

lemma headers_foldl_addHeader (headers : Headers) : ∀ parts : RequestParts,
    (headers.foldl addHeader parts).headers =
      parts.headers ++ headers.filter fun h => h.1.head? ≠ some ':' := by
  induction headers with
  | nil =>
    intro parts
    simp
  | cons header headers ih =>
    intro parts
    obtain ⟨name, value⟩ := header
    rw [foldl_cons, ih, addHeader]
    split_ifs with hm hp ha hr
    · subst hm
      rw [filter_cons_of_neg (by simp)]
    · subst hp
      rw [filter_cons_of_neg (by simp)]
    · subst ha
      rw [filter_cons_of_neg (by simp)]
    · rw [filter_cons_of_pos (by simpa using hr), append_assoc,
        singleton_append]
    · rw [filter_cons_of_neg (by simpa using hr)]

/-- A header of the validation sets the authority, which it finds empty, or leaves it. -/
lemma checkHeader_authority {seen after : PseudoHeaders} {name value : Str}
    (h : checkHeader seen (name, value) = .ok after) :
    (name = ":authority".toList ∧ seen.authority = none ∧ after.authority = some value) ∨
      (name ≠ ":authority".toList ∧ after.authority = seen.authority) := by
  -- a slot that is filled was empty, and the other slots stay
  have hs : ∀ {slot : Option Str} {f : Option Str → PseudoHeaders},
      (fillSlot slot value).map f = .ok after → slot = none ∧ after = f (some value) := by
    intro slot f hf
    cases slot with
    | none =>
      cases hf
      exact ⟨rfl, rfl⟩
    | some v => cases hf
  rw [checkHeader] at h
  split_ifs at h with hb hp
  · rw [checkPseudoHeader] at h
    split_ifs at h with hse hm hsc hpa ha
    · obtain ⟨-, rfl⟩ := hs h
      exact .inr ⟨by rw [hm]; decide, rfl⟩
    · obtain ⟨-, rfl⟩ := hs h
      exact .inr ⟨by rw [hsc]; decide, rfl⟩
    · obtain ⟨-, rfl⟩ := hs h
      exact .inr ⟨by rw [hpa]; decide, rfl⟩
    · obtain ⟨hn, rfl⟩ := hs h
      exact .inl ⟨ha, hn, rfl⟩
  · cases h
    refine .inr ⟨?_, rfl⟩
    rintro rfl
    exact hp rfl

lemma addHeader_authority (parts : RequestParts) (name value : Str) :
    (addHeader parts (name, value)).authority =
      if name = ":authority".toList then some value else parts.authority := by
  rw [addHeader]
  split_ifs with hm ha hp ha ha
  all_goals first | rfl | skip
  · subst hm
    cases ha
  · subst hp
    cases ha

/-- A validated list has one authority, and the request is given it. -/
lemma authority_of_validated (headers : Headers) : ∀ {seen after : PseudoHeaders}
    (parts : RequestParts), headers.foldlM checkHeader seen = .ok after →
    parts.authority = seen.authority →
    (headers.foldl addHeader parts).authority = after.authority ∧
      (∀ a, seen.authority = some a → after.authority = some a) ∧
      (∀ a, (":authority".toList, a) ∈ headers → after.authority = some a) := by
  induction headers with
  | nil =>
    intro seen after parts h hs
    cases h
    exact ⟨hs, fun a ha => ha, nofun⟩
  | cons header headers ih =>
    intro seen after parts h hs
    obtain ⟨name, value⟩ := header
    rw [foldlM_cons, except_bind_eq_ok] at h
    obtain ⟨next, hf, hre⟩ := h
    have hc := checkHeader_authority hf
    have hne : (addHeader parts (name, value)).authority = next.authority := by
      rw [addHeader_authority]
      rcases hc with ⟨hn, -, hset⟩ | ⟨hn, hk⟩
      · rw [if_pos hn, hset]
      · rw [if_neg hn, hs, hk]
    obtain ⟨hr, hke, hm⟩ := ih _ hre hne
    refine ⟨hr, fun a ha => ?_, fun a ha => ?_⟩
    · rcases hc with ⟨-, hno, -⟩ | ⟨-, hk⟩
      · rw [hno] at ha
        cases ha
      · exact hke a (hk.trans ha)
    · rcases mem_cons.mp ha with heq | hl
      · rw [Prod.mk.injEq] at heq
        obtain ⟨rfl, rfl⟩ := heq
        rcases hc with ⟨-, -, hset⟩ | ⟨hn, -⟩
        · exact hke a hset
        · exact absurd rfl hn
      · exact hm a hl

/-- The Host header of an HTTP/2 request: the first regular `host` field, or else the authority. -/
lemma getHeader_requestOf {st : Stream} {authority : Str}
    (hv : validateRequestHeaders st.requestHeaders = .ok ())
    (ha : (":authority".toList, authority) ∈ st.requestHeaders) :
    (requestOf st).getHeader "Host" =
      (((st.requestHeaders.find? fun h => h.1 = "host".toList).map Prod.snd).getD authority) := by
  rw [validateRequestHeaders, except_bind_eq_ok] at hv
  obtain ⟨seen, hs, -⟩ := hv
  obtain ⟨hg, -, hm⟩ := authority_of_validated st.requestHeaders {} hs rfl
  have hhe : (requestOf st).headers =
      (st.requestHeaders.filter fun h => h.1.head? ≠ some ':') ++ [("Host".toList, authority)] := by
    rw [requestOf]
    simp only [RequestParts.allHeaders]
    rw [hg, hm authority ha, headers_foldl_addHeader]
    rfl
  -- among validated names only `host` reads as Host
  have hn : ∀ h ∈ st.requestHeaders,
      (eqIgnoreAsciiCase h.1 "Host".toList && decide (h.1.head? ≠ some ':')) =
        decide (h.1 = "host".toList) := by
    intro h hh
    by_cases hr : h.1.head? ≠ some ':'
    · obtain ⟨s, t, hok⟩ := except_foldlM_forall hs h hh
      have hl := toLower_of_not_bad (checkHeader_regular hok hr).1
      rw [decide_eq_true hr, eqIgnoreAsciiCase, hl]
      exact Bool.eq_iff_iff.mpr (by simp)
    · rw [decide_eq_false hr, Bool.and_false, eq_comm, decide_eq_false_iff_not]
      intro hho
      rw [hho] at hr
      exact hr (by decide)
  have hna : eqIgnoreAsciiCase "Host".toList "Host".toList = true := by decide
  rw [HttpRequest.getHeader, findHeader, hhe, List.find?_append, ← List.head?_filter,
    filter_filter, filter_congr hn, List.head?_filter]
  cases st.requestHeaders.find? fun h => h.1 = "host".toList with
  | none => simp only [List.find?_cons, hna]; rfl
  | some h => rfl

/-- With the authority of a validated request the routers agree unless a regular `host` field, of
which the first counts, says otherwise. -/
theorem authority_decides_iff (st : Stream) (authority : Str)
    (hvalid : validateRequestHeaders st.requestHeaders = .ok ())
    (hauth : (":authority".toList, authority) ∈ st.requestHeaders) :
    AuthorityDecides (requestOf st) authority ↔
      ∀ header, (st.requestHeaders.find? fun h => h.1 = "host".toList) = some header →
        header.2 = authority := by
  have hget := getHeader_requestOf hvalid hauth
  constructor
  · intro h header hfind
    rw [h.host, hfind] at hget
    exact (Option.some.inj hget).symm
  · intro h
    refine authorityDecides_of_host (hget.trans ?_)
    cases hfind : st.requestHeaders.find? fun h => h.1 = "host".toList with
    | none => rfl
    | some header => rw [← h header hfind]; rfl

/-- A stream whose headers are `headers`. -/
def streamWith (headers : Headers) : Stream :=
  { id := 1, state := .halfClosedRemote, window := Window.new 65535
    sendWindow := Window.new 65535, requestHeaders := headers, requestBody := []
    receivedEndStream := true, receivedEndHeaders := true }

def shopHeaders : Headers :=
  [(":method".toList, "GET".toList), (":scheme".toList, "https".toList), (":path".toList, "/".toList),
   (":authority".toList, "shop.example".toList)]

theorem authority_decides_alone :
    AuthorityDecides (requestOf (streamWith shopHeaders)) "shop.example".toList :=
  (authority_decides_iff (streamWith shopHeaders) "shop.example".toList (by decide)
    (by decide)).mpr (by decide)

/-- A request for `shop.example` with a `host` field of its own is routed by that field. -/
theorem host_field_overrides :
    validateRequestHeaders (shopHeaders ++ [("host".toList, "admin.example".toList)]) = .ok () ∧
      (requestOf (streamWith (shopHeaders ++
        [("host".toList, "admin.example".toList)]))).getHeader "Host" =
          some "admin.example".toList := by
  constructor <;> decide

end Veysrs
