import Veysrs.Config.Directory
import Veysrs.Core.Path
import Veysrs.Http.Parser

/-!
# Rule files

`parse_veysrule_content` of `config/veysrule.rs`.  A line is a directive of words (the native ones,
about a directory) or a key and a value around an equals sign.  A line that is refused adds an error
with its number and leaves the configuration as it was.

The keys that only the root rule file may have are one table, `rootDirectives`; each of them changes
the server configuration alone, and none the host, the number of workers, the development mode or
the place of the rule file (`binding_parseVeysruleContent`).  The names in an `index` directive are
single components (`simpleIndexes_parseVeysruleContent`).

`parse_duration` cuts the last byte off its argument and panics if a longer character ends there;
that ends the parsing of the file (`RuleError.panic`).
-/

namespace Veysrs

open Core

def maxRuleFileBytes : ℕ := 256 * 1024

structure ConfigParseError where
  fileName : Str
  lineNumber : ℕ
  message : Str
  deriving DecidableEq, Repr

/-- Why a line is refused. -/
inductive RuleError where
  | message (text : Str)
  | panic
  deriving DecidableEq, Repr

def refuse {α : Type} (text : String) : Except RuleError α := .error (.message text.toList)

/-! ## Words -/

/-- The loop of `tokenize_rule_line`. -/
def tokenizeFrom (tokens : List Str) (current : Str) (quoted escaped : Bool) :
    Str → Except RuleError (List Str)
  | [] =>
    if escaped then refuse "trailing escape"
    else if quoted then refuse "unterminated quoted string"
    else .ok (if current = [] then tokens else tokens ++ [current])
  | ch :: rest =>
    if escaped then
      let ch := if ch = 'n' then '\n' else if ch = 'r' then '\r' else if ch = 't' then '\t' else ch
      tokenizeFrom tokens (current ++ [ch]) quoted false rest
    else if ch = '\\' ∧ quoted then tokenizeFrom tokens current quoted true rest
    else if ch = '"' then tokenizeFrom tokens current (!quoted) false rest
    else if ch = '#' ∧ !quoted then .ok (if current = [] then tokens else tokens ++ [current])
    else if isWhitespace ch ∧ !quoted then
      tokenizeFrom (if current = [] then tokens else tokens ++ [current]) [] quoted false rest
    else tokenizeFrom tokens (current ++ [ch]) quoted false rest

def tokenizeRuleLine (line : Str) : Except RuleError (List Str) := tokenizeFrom [] [] false false line

/-- What stands before the first `mark` outside quotes. -/
def beforeUnquoted (mark : Char) (quoted escaped : Bool) : Str → Option Str
  | [] => none
  | ch :: rest =>
    if escaped then (beforeUnquoted mark quoted false rest).map (ch :: ·)
    else if ch = '\\' ∧ quoted then (beforeUnquoted mark quoted true rest).map (ch :: ·)
    else if ch = '"' then (beforeUnquoted mark (!quoted) false rest).map (ch :: ·)
    else if ch = mark ∧ !quoted then some []
    else (beforeUnquoted mark quoted false rest).map (ch :: ·)

def stripRuleComment (line : Str) : Str := (beforeUnquoted '#' false false line).getD line

def hasUnquotedEquals (line : Str) : Bool := (beforeUnquoted '=' false false line).isSome

example : tokenizeRuleLine "header X-A \"a \\\"b\" # c".toList =
    .ok ["header".toList, "X-A".toList, "a \"b".toList] := by decide

/-! ## Values -/

def validHeaderName (name : Str) : Bool := !name.isEmpty && (utf8 name).all isTchar

/-- No carriage return, line feed or NUL. -/
def noControl (value : Str) : Bool := !(utf8 value).any fun b => b == 0x0d || b == 0x0a || b == 0

def validHeaderValue (value : Str) : Bool := noControl value

def validFrontControllerPath (value : Str) : Bool :=
  value.head? = some '/' && 1 < (utf8 value).length &&
    !((utf8 value).any fun b => b == 0x0d || b == 0x0a || b == 0 || b == 0x3f || b == 0x23 ||
      b == 0x25) &&
    ((value.splitOn '/').drop 1).all (fun component =>
      !component.isEmpty && component ≠ ".".toList && component ≠ "..".toList) &&
    value.getLast? ≠ some '/'

def parseCidr (value : Str) : Except RuleError Cidr :=
  match splitOnce '/' value with
  | none => refuse "CIDR must use address/prefix notation"
  | some (address, bits) =>
    match IpAddr.parse address with
    | none => refuse "invalid IP address"
    | some address =>
      match parseUnsigned 256 bits with
      | none => refuse "invalid CIDR prefix"
      | some prefixBits =>
        if fits : prefixBits ≤ addressBits address then .ok ⟨address, prefixBits, fits⟩
        else .error (.message
          ("CIDR prefix must be between 0 and ".toList ++ decimal (addressBits address)))

/-- Seconds in a unit of time. -/
def durationUnit (suffix : Char) : Option ℕ :=
  match suffix with
  | 's' => some 1
  | 'm' => some 60
  | 'h' => some (60 * 60)
  | 'd' => some (24 * 60 * 60)
  | 'w' => some (7 * 24 * 60 * 60)
  | _ => none

def parseDuration (value : Str) : Except RuleError ℕ :=
  match value.getLast? with
  | none => refuse "duration cannot be empty"
  | some suffix =>
    -- `split_at` inside a character
    if 128 ≤ suffix.toNat then .error .panic
    else match parseUnsigned (2 ^ 64) value.dropLast with
      | none => refuse "invalid duration"
      | some amount =>
        match durationUnit suffix with
        | none => refuse "duration suffix must be s, m, h, d, or w"
        | some multiplier =>
          if amount * multiplier < 2 ^ 64 then .ok (amount * multiplier)
          else refuse "duration overflow"

def parseStatus (value : Str) : Except RuleError ℕ :=
  match parseUnsigned 65536 value with
  | none => refuse "invalid HTTP status"
  | some status =>
    if 100 ≤ status ∧ status ≤ 599 then .ok status
    else refuse "HTTP status must be between 100 and 599"

/-- The bracket a closing one needs. -/
def openingBracket (ch : Char) : Option Char :=
  match ch with
  | ')' => some '('
  | ']' => some '['
  | '}' => some '{'
  | _ => none

/-- `validate_rewrite_pattern`, with the open brackets. -/
def validateRewritePattern (stack : List Char) (escaped : Bool) : Str → Except RuleError Unit
  | [] => if escaped || !stack.isEmpty then refuse "unbalanced rewrite pattern" else .ok ()
  | ch :: rest =>
    if escaped then validateRewritePattern stack false rest
    else if ch = '\\' then validateRewritePattern stack true rest
    else if ch = '(' ∨ ch = '[' ∨ ch = '{' then validateRewritePattern (ch :: stack) false rest
    else match openingBracket ch with
      | none => validateRewritePattern stack false rest
      | some opening =>
        if stack.head? = some opening then validateRewritePattern stack.tail false rest
        else refuse "unbalanced rewrite pattern"

def validRoutePrefix (routePrefix : Str) : Bool :=
  routePrefix.head? = some '/' && noControl routePrefix &&
    !(routePrefix.splitOn '/').any fun component => component = "..".toList

/-- A host and a port, without what would make a path or a user of it. -/
def validHostPort (rest : Str) : Bool :=
  match rsplitOnce ':' rest with
  | none => false
  | some (host, port) =>
    !rest.isEmpty && !host.isEmpty &&
      !rest.any (fun c => "/?#@\r\n\x00".toList.contains c) && (parseUnsigned 65536 port).isSome

def validSingleUpstream (upstream : Str) : Bool :=
  match upstream.dropPrefix? "http://".toList with
  | none => false
  | some rest => validHostPort rest

/-- The candidates between commas have no comma, so the recursion of the source is one level deep. -/
def validUpstream (upstream : Str) : Bool :=
  if upstream.contains ',' then
    (upstream.splitOn ',').all fun candidate => validSingleUpstream (trim candidate)
  else validSingleUpstream upstream

def validFastcgiEndpoint (endpoint : Str) : Bool :=
  match endpoint.dropPrefix? "unix:".toList with
  | some path => !path.isEmpty && (utf8 path).length ≤ 4096 && noControl path
  | none =>
    match endpoint.dropPrefix? "tcp://".toList with
    | none => false
    | some rest => validHostPort rest

/-! ## Native directives -/

/-- `header` and `add_header`. -/
def headerDirective (name : String) (args : List Str) : Except RuleError (Str × Str) :=
  match args with
  | [header, value] =>
    if !validHeaderName header then refuse "invalid header name"
    else if !validHeaderValue value then
      refuse "header value contains forbidden control characters"
    else .ok (header, value)
  | _ => refuse (name ++ " requires <name> <value>")

def removeHeaderDirective (args : List Str) : Except RuleError Str :=
  match args with
  | [header] =>
    if validHeaderName header then .ok header
    else refuse "remove_header requires a valid header name"
  | _ => refuse "remove_header requires a valid header name"

def redirectDirective (args : List Str) : Except RuleError RedirectRule :=
  match args with
  | [source, target, status] => do
      let status ← parseStatus status
      if ¬ (300 ≤ status ∧ status ≤ 399) then refuse "redirect status must be between 300 and 399"
      else if !noControl source || !noControl target then
        refuse "redirect paths contain forbidden control characters"
      else .ok ⟨source, target, status⟩
  | _ => refuse "redirect requires <source> <target> <status>"

/-- The rule of a `rewrite` directive, with the status if there is one. -/
def rewriteRule (pattern replacement : Str) (status : Option Str) : Except RuleError RewriteRule :=
  if 4096 < (utf8 pattern).length ∨ 4096 < (utf8 replacement).length ∨ '\x00' ∈ pattern then
    refuse "rewrite pattern or replacement is too large or contains NUL"
  else do
    validateRewritePattern [] false pattern
    if !noControl replacement then
      refuse "rewrite replacement contains forbidden control characters"
    else match status with
      | none => .ok ⟨pattern, replacement, none⟩
      | some status => do
          let status ← parseStatus status
          return ⟨pattern, replacement, some status⟩

def rewriteDirective (rewrites : List RewriteRule) (args : List Str) :
    Except RuleError (List RewriteRule) := do
  let rule ← match args with
    | [pattern, replacement] => rewriteRule pattern replacement none
    | [pattern, replacement, status] => rewriteRule pattern replacement (some status)
    | _ => refuse "rewrite requires <pattern> <replacement> [status]"
  if maxRewriteRules ≤ rewrites.length then
    .error (.message ("at most ".toList ++ decimal maxRewriteRules ++
      " rewrite directives are allowed".toList))
  else return rewrites ++ [rule]

/-- `allow` and `deny`. -/
def networkDirective (name : String) (args : List Str) : Except RuleError Cidr :=
  match args with
  | [kind, network] =>
    if kind = "ip".toList then parseCidr network
    else refuse (name ++ " requires ip <CIDR>")
  | _ => refuse (name ++ " requires ip <CIDR>")

/-- `need(2)`. -/
def needArgument (name : String) (args : List Str) : Except RuleError Unit :=
  if args = [] then refuse (name ++ " requires at least 1 arguments") else .ok ()

/-- An upper-case letter, a digit or a hyphen. -/
def isMethodByte (b : UInt8) : Bool := (0x41 ≤ b && b ≤ 0x5a) || (0x30 ≤ b && b ≤ 0x39) || b == 0x2d

def methodsDirective (name : String) (args : List Str) : Except RuleError (List Str) := do
  needArgument name args
  if args.all fun method => (utf8 method).all isMethodByte then
    return args.foldl (pushUnless (· = ·)) []
  else refuse "methods must be uppercase HTTP tokens"

def indexDirective (name : String) (args : List Str) : Except RuleError (List Str) := do
  needArgument name args
  if args.all fun file => decide (SimpleName file) then return args
  else refuse "index names must be simple file names"

/-- `autoindex` and `cache`. -/
def switchDirective (name : String) (args : List Str) : Except RuleError Bool :=
  match args with
  | [value] =>
    if value = "on".toList then .ok true
    else if value = "off".toList then .ok false
    else refuse "value must be on or off"
  | _ => refuse (name ++ " requires on or off")

def expiresDirective (args : List Str) : Except RuleError ℕ :=
  match args with
  | [value] => parseDuration value
  | _ => refuse "expires requires a duration"

def mimeDirective (args : List Str) : Except RuleError (Str × Str) :=
  match args with
  | [extension, mime] =>
    if extension.head? ≠ some '.' || (utf8 extension).length = 1 || !validHeaderValue mime then
      refuse "mime requires <.extension> <mime-type>"
    else if '/' ∈ mime then .ok (toAsciiLowercase extension, mime)
    else refuse "invalid MIME type"
  | _ => refuse "mime requires <.extension> <mime-type>"

def errorPageDirective (args : List Str) : Except RuleError (ℕ × Str) :=
  match args with
  | [status, path] => do
      let status ← parseStatus status
      if path.head? ≠ some '/' || (findSub "..".toList path).isSome then
        refuse "error page path must be an absolute URL path without traversal"
      else return (status, path)
  | _ => refuse "error_page requires <status> <path>"

/-- A directive made of words, by the first of them. -/
structure NativeDirective where
  name : String
  apply : List Str → DirectoryConfig → Except RuleError DirectoryConfig

/-- Such a directive sets what can be read from its arguments. -/
def NativeDirective.of {ν : Type} (name : String) (read : List Str → Except RuleError ν)
    (set : ν → DirectoryConfig → DirectoryConfig) : NativeDirective where
  name := name
  apply args config := do return set (← read args) config

/-- The only one that looks at what there is already. -/
def NativeDirective.rewrite : NativeDirective where
  name := "rewrite"
  apply args config := do
    return { config with rewrites := ← rewriteDirective config.rewrites args }

/-- The native directives, in the order of the source. -/
def nativeDirectives : List NativeDirective := [
  .of "header" (headerDirective "header") fun h c => { c with headers := c.headers ++ [h] },
  .of "add_header" (headerDirective "add_header") fun h c =>
    { c with addHeaders := c.addHeaders ++ [h] },
  .of "remove_header" removeHeaderDirective fun name c =>
    { c with removeHeaders := c.removeHeaders ++ [name] },
  .of "redirect" redirectDirective fun rule c => { c with redirect := some rule },
  .rewrite,
  .of "allow" (networkDirective "allow") fun network c =>
    { c with allowNetworks := c.allowNetworks ++ [network] },
  .of "deny" (networkDirective "deny") fun network c =>
    { c with denyNetworks := c.denyNetworks ++ [network] },
  .of "methods" (methodsDirective "methods") fun methods c => { c with methods := some methods },
  .of "index" (indexDirective "index") fun files c => { c with indexFiles := some files },
  .of "autoindex" (switchDirective "autoindex") fun b c => { c with autoindex := some b },
  .of "cache" (switchDirective "cache") fun b c => { c with cache := some b },
  .of "expires" expiresDirective fun seconds c => { c with expires := some seconds },
  .of "mime" mimeDirective fun mime c => { c with mimeTypes := c.mimeTypes ++ [mime] },
  .of "error_page" errorPageDirective fun page c => { c with errorPages := c.errorPages ++ [page] }]

/-- The directive a line of words starts with. -/
def nativeDirective (name : Str) (args : List Str) (config : DirectoryConfig) :
    Except RuleError DirectoryConfig :=
  match nativeDirectives.find? fun directive => directive.name.toList = name with
  | some directive => directive.apply args config
  | none => .error (.message ("unknown directive '".toList ++ name ++ "'".toList))

def parseNativeDirective (line : Str) (config : DirectoryConfig) :
    Except RuleError DirectoryConfig := do
  match ← tokenizeRuleLine line with
  | [] => return config
  | name :: args => nativeDirective name args config

/-! ## Keys and values -/

/-- A key only the root rule file may have. -/
structure RootDirective where
  key : String
  apply : Str → ServerConfig → Except RuleError ServerConfig

/-- Such a key sets what can be read from its value. -/
def RootDirective.of {ν : Type} (key : String) (read : Str → Except RuleError ν)
    (set : ν → ServerConfig → ServerConfig) : RootDirective where
  key := key
  apply val config := do return set (← read val) config

/-- A number below `bound`. -/
def readNumber (key : String) (bound : ℕ) (val : Str) : Except RuleError ℕ :=
  match parseUnsigned bound val with
  | some n => .ok n
  | none => refuse ("invalid " ++ key)

def readPort (val : Str) : Except RuleError ℕ :=
  match parseUnsigned 65536 val with
  | some (p + 1) => .ok (p + 1)
  | _ => refuse "PORT must be between 1 and 65535"

/-- A path that is not empty. -/
def readPath (key : String) (val : Str) : Except RuleError Str :=
  if val = [] then refuse (key ++ " cannot be empty") else .ok val

def readLogFormat (val : Str) : Except RuleError Str :=
  let val := toAsciiLowercase val
  if val = "text".toList ∨ val = "json".toList then .ok val
  else refuse "LOG_FORMAT must be text or json"

/-- `ACCESS_LOG` and `ERROR_LOG`. -/
def readLogDestination (key : String) (val : Str) : Except RuleError Str :=
  if val = "stdout".toList ∨ val = "stderr".toList ∨
      (val.head? = some '/' ∧ (utf8 val).length ≤ 4096) then .ok val
  else refuse ("invalid " ++ key ++ " destination")

/-- Words for yes and for no, in any case. -/
def readBoolean (yes no : List String) (message : String) (val : Str) : Except RuleError Bool :=
  let val := toAsciiLowercase val
  if yes.any (fun word => word.toList = val) then .ok true
  else if no.any (fun word => word.toList = val) then .ok false
  else refuse message

def readCompressionLevel (val : Str) : Except RuleError ℕ :=
  match parseUnsigned (2 ^ 32) val with
  | some level => if level ≤ 9 then .ok level else refuse "COMPRESSION_LEVEL must be 0..9"
  | none => refuse "invalid COMPRESSION_LEVEL"

def readCompressionMime (val : Str) : Except RuleError Str :=
  if '/' ∈ val ∧ noControl val then .ok (toAsciiLowercase val)
  else refuse "invalid COMPRESSION_MIME"

/-- The `UPSTREAM_HEALTH_` keys. -/
def readPositive (key : String) (val : Str) : Except RuleError ℕ :=
  match parseUnsigned (2 ^ 64) val with
  | some 0 => refuse (key ++ " must be greater than zero")
  | some n => .ok n
  | none => refuse ("invalid " ++ key)

/-- The `SECURITY_` keys. -/
def readSecurity (key : String) (val : Str) : Except RuleError Str :=
  if validHeaderValue val then .ok val else refuse ("invalid " ++ key ++ " value")

def readVhost (val : Str) : Except RuleError VhostConfig :=
  match splitWhitespace val with
  | host :: root :: more =>
    if 3 < more.length ∨ '/' ∈ host ∨ ':' ∈ host then
      refuse "VHOST expects host root [rule-file]"
    else .ok
      { host := toAsciiLowercase host
        rootDir := root
        configFile := more.head?
        tlsCertificate := (more.drop 1).head?
        tlsPrivateKey := (more.drop 2).head? }
  | _ => refuse "VHOST expects host root [rule-file]"

def readProxy (val : Str) : Except RuleError ProxyRoute :=
  match splitWhitespace val with
  | [host, routePrefix, upstream] =>
    if validRoutePrefix routePrefix && validUpstream upstream then
      .ok ⟨toAsciiLowercase host, routePrefix, upstream⟩
    else refuse "PROXY expects host prefix http://host:port"
  | _ => refuse "PROXY expects host prefix http://host:port"

def readFastcgi (val : Str) : Except RuleError FastCgiRoute :=
  match splitWhitespace val with
  | [host, routePrefix, endpoint, documentRoot] =>
    if validRoutePrefix routePrefix && validFastcgiEndpoint endpoint &&
        !documentRoot.isEmpty then
      .ok ⟨toAsciiLowercase host, routePrefix, endpoint, documentRoot⟩
    else refuse "FASTCGI expects host prefix unix:/path|tcp://host:port document-root"
  | _ => refuse "FASTCGI expects host prefix unix:/path|tcp://host:port document-root"

def readFrontController (val : Str) : Except RuleError Str :=
  if validFrontControllerPath val then .ok val
  else refuse "FRONT_CONTROLLER must be a safe absolute URL path"

/-- A key whose value is a number below `bound`. -/
def RootDirective.number (key : String) (bound : ℕ) (set : ℕ → ServerConfig → ServerConfig) :
    RootDirective := .of key (readNumber key bound) set

def RootDirective.health (key : String) (set : ℕ → ServerConfig → ServerConfig) : RootDirective :=
  .of key (readPositive key) set

def RootDirective.security (key : String) (set : Str → ServerConfig → ServerConfig) :
    RootDirective := .of key (readSecurity key) set

/-- The keys of the root rule file, in the order of the source. -/
def rootDirectives : List RootDirective := [
  .of "PORT" readPort fun p c => { c with port := p },
  .of "ROOT_DIR" (readPath "ROOT_DIR") fun path c => { c with rootDir := path },
  .number "MAX_REQUEST_SIZE" (2 ^ 64) fun n c => { c with maxRequestSize := n },
  .number "MAX_HEADER_SIZE" (2 ^ 64) fun n c => { c with maxHeaderSize := n },
  .number "MAX_HEADERS" (2 ^ 64) fun n c => { c with maxHeaders := n },
  .number "MAX_HEADER_LINE" (2 ^ 64) fun n c => { c with maxHeaderLine := n },
  .number "MAX_URI_LENGTH" (2 ^ 64) fun n c => { c with maxUriLength := n },
  .number "READ_TIMEOUT" (2 ^ 64) fun n c => { c with readTimeout := n },
  .number "WRITE_TIMEOUT" (2 ^ 64) fun n c => { c with writeTimeout := n },
  .number "KEEP_ALIVE_TIMEOUT" (2 ^ 64) fun n c => { c with keepAliveTimeout := n },
  .number "MAX_CONNECTIONS" (2 ^ 64) fun n c => { c with maxConnections := n },
  .number "MAX_REQUESTS_PER_CONNECTION" (2 ^ 64) fun n c =>
    { c with maxRequestsPerConnection := n },
  .of "LOG_FORMAT" readLogFormat fun format c => { c with logFormat := format },
  .of "ACCESS_LOG" (readLogDestination "ACCESS_LOG") fun log c => { c with accessLog := log },
  .of "ERROR_LOG" (readLogDestination "ERROR_LOG") fun log c => { c with errorLog := log },
  .of "COMPRESSION_ENABLED"
    (readBoolean ["on", "true"] ["off", "false"] "COMPRESSION_ENABLED must be on or off")
    fun b c => { c with compressionEnabled := b },
  .of "COMPRESSION_LEVEL" readCompressionLevel fun n c => { c with compressionLevel := n },
  .number "COMPRESSION_MIN_SIZE" (2 ^ 64) fun n c => { c with compressionMinSize := n },
  .of "COMPRESSION_MIME" readCompressionMime fun mime c =>
    { c with compressionMimeTypes := c.compressionMimeTypes ++ [mime] },
  .health "UPSTREAM_HEALTH_INTERVAL" fun n c => { c with upstreamHealthInterval := min n 86400 },
  .health "UPSTREAM_HEALTH_TIMEOUT" fun n c => { c with upstreamHealthTimeout := min n 300 },
  .health "UPSTREAM_HEALTH_FAILURES" fun n c =>
    { c with upstreamHealthFailures := min n (2 ^ 32 - 1) },
  .health "UPSTREAM_HEALTH_RECOVERY" fun n c =>
    { c with upstreamHealthRecovery := min n (2 ^ 32 - 1) },
  .number "RATE_LIMIT_PER_SECOND" (2 ^ 32) fun n c => { c with rateLimitPerSecond := n },
  .number "RATE_LIMIT_BURST" (2 ^ 32) fun n c => { c with rateLimitBurst := n },
  .number "MAX_CONNECTIONS_PER_IP" (2 ^ 64) fun n c => { c with maxConnectionsPerIp := n },
  .security "SECURITY_X_CONTENT_TYPE_OPTIONS" fun val c =>
    { c with securityXContentTypeOptions := some val },
  .security "SECURITY_REFERRER_POLICY" fun val c => { c with securityReferrerPolicy := some val },
  .security "SECURITY_X_FRAME_OPTIONS" fun val c => { c with securityXFrameOptions := some val },
  .security "SECURITY_CONTENT_SECURITY_POLICY" fun val c =>
    { c with securityContentSecurityPolicy := some val },
  .of "TLS_ENABLED"
    (readBoolean ["true", "1", "yes"] ["false", "0", "no"]
      "TLS_ENABLED must be boolean (true/false)")
    fun b c => { c with tlsEnabled := b },
  .of "TLS_CERTIFICATE" (readPath "TLS_CERTIFICATE") fun path c =>
    { c with tlsCertificate := some path },
  .of "TLS_PRIVATE_KEY" (readPath "TLS_PRIVATE_KEY") fun path c =>
    { c with tlsPrivateKey := some path },
  .of "VHOST" readVhost fun vhost c => { c with vhosts := c.vhosts ++ [vhost] },
  .of "PROXY" readProxy fun route c => { c with proxyRoutes := c.proxyRoutes ++ [route] },
  .of "FASTCGI" readFastcgi fun route c => { c with fastcgiRoutes := c.fastcgiRoutes ++ [route] },
  .of "FRONT_CONTROLLER" readFrontController fun path c => { c with frontController := some path }]

/-- What the lines so far have made of the two configurations. -/
structure RuleState where
  server : ServerConfig := {}
  dir : DirectoryConfig := {}
  deriving DecidableEq, Repr

/-- The value is lower-cased as Unicode text here. -/
def denyHiddenDirective (isRoot : Bool) (val : Str) (state : RuleState) :
    Except RuleError RuleState :=
  let set (deny : Bool) : RuleState :=
    { dir := { state.dir with denyHiddenFiles := some deny }
      server := if isRoot then { state.server with denyHiddenFiles := deny } else state.server }
  let val := toLowercase val
  if val = "true".toList ∨ val = "1".toList ∨ val = "yes".toList then .ok (set true)
  else if val = "false".toList ∨ val = "0".toList ∨ val = "no".toList then .ok (set false)
  else refuse "DENY_HIDDEN_FILES must be boolean (true/false)"

def denyIpDirective (val : Str) (config : DirectoryConfig) : Except RuleError DirectoryConfig :=
  match IpAddr.parse val with
  | some ip => .ok { config with denyIps := config.denyIps ++ [ip] }
  | none => refuse "invalid IP address"

/-- `HEADER`, which takes any name that is not blank. -/
def legacyHeaderDirective (val : Str) (config : DirectoryConfig) :
    Except RuleError DirectoryConfig :=
  match splitOnce ':' val with
  | none => refuse "invalid HEADER format, expected Name: Value"
  | some (name, value) =>
    if trim name = [] then refuse "invalid HEADER format, expected Name: Value"
    else .ok { config with headers := config.headers ++
      [(trim name, (trim value).filter fun c => c ≠ '\r' ∧ c ≠ '\n')] }

def redirect404Directive (val : Str) (config : DirectoryConfig) :
    Except RuleError DirectoryConfig :=
  if val = [] then refuse "REDIRECT_404 path cannot be empty"
  else .ok { config with redirect404 := some val }

/-- A key and its value. -/
def keyDirective (isRoot : Bool) (key val : Str) (state : RuleState) :
    Except RuleError RuleState :=
  match rootDirectives.find? fun directive => directive.key.toList = key with
  | some directive =>
    if isRoot then do return { state with server := ← directive.apply val state.server }
    else refuse (directive.key ++ " is a root-only directive")
  | none =>
    if key = "DENY_HIDDEN_FILES".toList then denyHiddenDirective isRoot val state
    else if key = "DENY_IP".toList then do
      return { state with dir := ← denyIpDirective val state.dir }
    else if key = "HEADER".toList then do
      return { state with dir := ← legacyHeaderDirective val state.dir }
    else if key = "REDIRECT_404".toList then do
      return { state with dir := ← redirect404Directive val state.dir }
    else .error (.message ("unknown directive '".toList ++ key ++ "'".toList))

/-! ## Files -/

/-- One line of a rule file. -/
def parseLine (isRoot : Bool) (state : RuleState) (line : Str) : Except RuleError RuleState :=
  let trimmed := trim (stripRuleComment line)
  if trimmed = [] then .ok state
  else if !hasUnquotedEquals trimmed then do
    return { state with dir := ← parseNativeDirective trimmed state.dir }
  else match splitOnce '=' trimmed with
    | none => refuse "invalid directive"
    | some (key, val) => keyDirective isRoot (trim key) (trim val) state

/-- What `parse_veysrule_content` returns. -/
structure ParsedRules where
  state : RuleState := {}
  errors : List ConfigParseError := []
  deriving DecidableEq, Repr

/-- One round of the loop over the lines. -/
def parseStep (fileName : Str) (isRoot : Bool) (parsed : ParsedRules) (line : Str × ℕ) :
    Option ParsedRules :=
  match parseLine isRoot parsed.state line.1 with
  | .ok state => some { parsed with state }
  | .error (.message text) =>
    some { parsed with errors := parsed.errors ++ [⟨fileName, line.2, text⟩] }
  | .error .panic => none

/-- Nothing is returned if the parser panics. -/
def parseVeysruleContent (content fileName : Str) (isRoot : Bool) : Option ParsedRules :=
  ((strLines content).zipIdx 1).foldlM (parseStep fileName isRoot) {}

variable {isRoot : Bool} {parsed : ParsedRules}

/-- What holds of the empty configuration and is kept by every line holds of what is parsed. -/
lemma keeps_parseVeysruleContent {I : RuleState → Prop} (hem : I {})
    (hl : ∀ {state state' : RuleState} {line : Str}, I state →
      parseLine isRoot state line = .ok state' → I state') {content fileName : Str}
    (h : parseVeysruleContent content fileName isRoot = some parsed) : I parsed.state := by
  refine option_foldlM_keeps (I := fun parsed => I parsed.state) ?_ hem h
  rintro before after ⟨line, number⟩ hb hs
  rw [parseStep] at hs
  split at hs
  · rename_i state hok
    cases hs
    exact hl hb hok
  · cases hs
    exact hb
  · cases hs

/-! ### What a line can do -/

section Lines

variable {isRoot : Bool} {key val line : Str} {state state' : RuleState}

/-- A key is one of the root rule file and stands in it, or sets the hidden files, or one of three
parts of the rules of the directory. -/
lemma keyDirective_cases (h : keyDirective isRoot key val state = .ok state') :
    (isRoot = true ∧ ∃ directive ∈ rootDirectives, ∃ server,
      directive.apply val state.server = .ok server ∧ state' = { state with server }) ∨
    (∃ deny, state' =
      { dir := { state.dir with denyHiddenFiles := some deny }
        server := if isRoot then { state.server with denyHiddenFiles := deny }
          else state.server }) ∨
    ∃ denyIps headers redirect404,
      state' = { state with dir := { state.dir with denyIps, headers, redirect404 } } := by
  rw [keyDirective] at h
  split at h
  · rename_i directive hf
    split_ifs at h with hr
    · obtain ⟨server, hs, hset⟩ := except_bind_eq_ok.mp h
      exact .inl ⟨hr, directive, List.mem_of_find?_eq_some hf, server, hs,
        (Except.ok.inj hset).symm⟩
    · cases h
  · split_ifs at h
    · cases isRoot
      all_goals
        simp only [denyHiddenDirective, Bool.false_eq_true, if_false] at h
        split_ifs at h <;> cases h
        · exact .inr (.inl ⟨true, rfl⟩)
        · exact .inr (.inl ⟨false, rfl⟩)
    · obtain ⟨dir, hd, hset⟩ := except_bind_eq_ok.mp h
      cases hset
      rw [denyIpDirective] at hd
      split at hd <;> cases hd
      exact .inr (.inr ⟨_, _, _, rfl⟩)
    · obtain ⟨dir, hd, hset⟩ := except_bind_eq_ok.mp h
      cases hset
      rw [legacyHeaderDirective] at hd
      split at hd
      · cases hd
      · split_ifs at hd <;> cases hd
        exact .inr (.inr ⟨_, _, _, rfl⟩)
    · obtain ⟨dir, hd, hset⟩ := except_bind_eq_ok.mp h
      cases hset
      rw [redirect404Directive] at hd
      split_ifs at hd <;> cases hd
      exact .inr (.inr ⟨_, _, _, rfl⟩)

/-- A line is blank, a native directive or a key. -/
lemma parseLine_cases (h : parseLine isRoot state line = .ok state') :
    state' = state ∨
    (∃ directive ∈ nativeDirectives, ∃ args dir, directive.apply args state.dir = .ok dir ∧
      state' = { state with dir }) ∨
    ∃ key val, keyDirective isRoot key val state = .ok state' := by
  simp only [parseLine] at h
  split_ifs at h
  · exact .inl (Except.ok.inj h).symm
  · obtain ⟨dir, hd, hs⟩ := except_bind_eq_ok.mp h
    cases hs
    obtain ⟨tokens, -, hn⟩ := except_bind_eq_ok.mp hd
    cases tokens with
    | nil =>
      cases hn
      exact .inl rfl
    | cons name args =>
      simp only [nativeDirective] at hn
      split at hn
      · rename_i directive hf
        exact .inr (.inl ⟨directive, List.mem_of_find?_eq_some hf, args, dir, hn, rfl⟩)
      · cases hn
  · split at h
    · cases h
    · exact .inr (.inr ⟨_, _, h⟩)

/-- What holds at first, and is kept by the native directives and whatever the keys set, holds of the
rules for the directory. -/
lemma dir_parseVeysruleContent {P : DirectoryConfig → Prop} (hem : P {})
    (hn : ∀ directive ∈ nativeDirectives, ∀ args c d,
      directive.apply args c = .ok d → P c → P d)
    (hk : ∀ (c : DirectoryConfig) denyHiddenFiles denyIps headers redirect404, P c →
      P { c with denyHiddenFiles, denyIps, headers, redirect404 }) {content fileName : Str}
    (h : parseVeysruleContent content fileName isRoot = some parsed) : P parsed.state.dir := by
  refine keeps_parseVeysruleContent (I := fun state => P state.dir) hem ?_ h
  intro state state' line hs hl
  rcases parseLine_cases hl with rfl | ⟨directive, hm, args, dir, hd, rfl⟩ | ⟨key, val, hkey⟩
  · exact hs
  · exact hn directive hm args _ _ hd hs
  · rcases keyDirective_cases hkey with ⟨_, _, _, _, _, rfl⟩ | ⟨_, rfl⟩ | ⟨_, _, _, rfl⟩
    · exact hs
    all_goals exact hk _ _ _ _ _ hs

/-- What holds at first, and is kept by the directives of the root and whatever hidden files are
denied, holds of the configuration of the server. -/
lemma server_parseVeysruleContent {P : ServerConfig → Prop} (hem : P {})
    (hr : ∀ directive ∈ rootDirectives, ∀ val c d, directive.apply val c = .ok d → P c → P d)
    (hh : ∀ (c : ServerConfig) denyHiddenFiles, P c → P { c with denyHiddenFiles })
    {content fileName : Str}
    (h : parseVeysruleContent content fileName isRoot = some parsed) : P parsed.state.server := by
  refine keeps_parseVeysruleContent (I := fun state => P state.server) hem ?_ h
  intro state state' line hs hl
  rcases parseLine_cases hl with rfl | ⟨_, _, _, _, _, rfl⟩ | ⟨key, val, hk⟩
  · exact hs
  · exact hs
  · rcases keyDirective_cases hk with ⟨-, directive, hm, server, hse, rfl⟩ | ⟨deny, rfl⟩ |
      ⟨_, _, _, rfl⟩
    · exact hr directive hm val _ _ hse hs
    · cases isRoot
      · exact hs
      · exact hh _ _ hs
    · exact hs

end Lines

/-! ### What no rule file sets -/

/-- The same host, workers, mode and place of the rule file. -/
def SameBinding (c d : ServerConfig) : Prop :=
  c.host = d.host ∧ c.workers = d.workers ∧ c.devMode = d.devMode ∧ c.configFile = d.configFile

/-- **No rule file sets the host, the workers, the mode or its own place.** -/
lemma binding_parseVeysruleContent {content fileName : Str}
    (h : parseVeysruleContent content fileName isRoot = some parsed) :
    SameBinding parsed.state.server {} := by
  refine server_parseVeysruleContent (P := (SameBinding · {})) ⟨rfl, rfl, rfl, rfl⟩ ?_
    (fun _ _ hc => hc) h
  simp only [rootDirectives, List.forall_mem_cons, List.not_mem_nil, false_imp_iff, implies_true,
    and_true]
  and_intros
  all_goals
    intro val c d ha hc
    obtain ⟨value, -, hs⟩ := except_bind_eq_ok.mp ha
    cases hs
    exact hc

/-! ### Index names -/

lemma simpleName_indexDirective {name : String} {args files : List Str}
    (h : indexDirective name args = .ok files) : ∀ file ∈ files, SimpleName file := by
  obtain ⟨_, -, ha⟩ := except_bind_eq_ok.mp h
  split_ifs at ha with hs <;> cases ha
  simpa using hs

end Veysrs
