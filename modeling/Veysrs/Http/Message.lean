import Veysrs.Core.Text

/-!
# Requests and responses

The message types of `server/http.rs` and the part of `ServerConfig` (`config/veysrule.rs`) that
the modelled functions read.
-/

namespace Veysrs

open Core

/-! ## Methods and status codes -/

inductive Method where
  | get | head | post
  | other (name : Str)
  deriving DecidableEq, Repr

namespace Method

/-- `Display for Method`. -/
def text : Method → Str
  | get => "GET".toList
  | head => "HEAD".toList
  | post => "POST".toList
  | other name => name

/-- `From<&str> for Method`: the name is upper-cased first. -/
def ofStr (s : Str) : Method :=
  let upper := toUppercase s
  if upper = "GET".toList then get
  else if upper = "HEAD".toList then head
  else if upper = "POST".toList then post
  else other upper

lemma text_ofStr (s : Str) : (ofStr s).text = toUppercase s := by
  simp only [ofStr]
  split_ifs with hg hh hp
  · exact hg.symm
  · exact hh.symm
  · exact hp.symm
  · rfl

end Method

inductive StatusCode where
  | ok | created | accepted | noContent | movedPermanently | found | partialContent | notModified
  | badRequest | unauthorized | forbidden | notFound | methodNotAllowed | requestTimeout
  | payloadTooLarge | uriTooLong | rangeNotSatisfiable | requestHeaderFieldsTooLarge
  | tooManyRequests | internalServerError | badGateway | notImplemented | serviceUnavailable
  | gatewayTimeout | httpVersionNotSupported
  deriving DecidableEq, Repr

def StatusCode.code : StatusCode → ℕ
  | ok => 200
  | created => 201
  | accepted => 202
  | noContent => 204
  | movedPermanently => 301
  | found => 302
  | partialContent => 206
  | notModified => 304
  | badRequest => 400
  | unauthorized => 401
  | forbidden => 403
  | notFound => 404
  | methodNotAllowed => 405
  | requestTimeout => 408
  | payloadTooLarge => 413
  | uriTooLong => 414
  | rangeNotSatisfiable => 416
  | requestHeaderFieldsTooLarge => 431
  | tooManyRequests => 429
  | internalServerError => 500
  | badGateway => 502
  | notImplemented => 501
  | serviceUnavailable => 503
  | gatewayTimeout => 504
  | httpVersionNotSupported => 505

/-! ## Requests -/

abbrev Headers := List (Str × Str)

structure HttpRequest where
  method : Method
  uri : Str
  version : Str
  headers : Headers
  body : Bytes
  deriving DecidableEq, Repr

/-- The first header of that name, whatever its case. -/
def findHeader (headers : Headers) (name : String) : Option Str :=
  (headers.find? fun h => eqIgnoreAsciiCase h.1 name.toList).map Prod.snd

def HttpRequest.getHeader (req : HttpRequest) (name : String) : Option Str :=
  findHeader req.headers name

/-! ## Responses -/

/-- Where a response body comes from.  A file is the bytes it holds from its current position. -/
inductive BodySource where
  | bytes (data : Bytes)
  | file (content : Bytes) (size : ℕ)
  | fileRange (content : Bytes) (start length : ℕ)
  | gzipFile (content : Bytes) (size level : ℕ)
  deriving DecidableEq, Repr

structure HttpResponse where
  status : StatusCode
  headers : Headers
  bodySource : BodySource
  closeConnection : Bool
  deriving DecidableEq, Repr

namespace HttpResponse

def new (status : StatusCode) : HttpResponse :=
  { status
    headers := [("Server".toList, "veysrs/0.6.1".toList)]
    bodySource := .bytes []
    closeConnection := false }

def withBody (resp : HttpResponse) (body : Bytes) (contentType : String) : HttpResponse :=
  { resp with
    headers := resp.headers ++
      [("Content-Length".toList, decimal body.length), ("Content-Type".toList, contentType.toList)]
    bodySource := .bytes body }

end HttpResponse

/-! ## Configuration -/

/-- The source calls `routePrefix` just `prefix`. -/
structure ProxyRoute where
  host : Str
  routePrefix : Str
  upstream : Str
  deriving DecidableEq, Repr

structure FastCgiRoute where
  host : Str
  routePrefix : Str
  endpoint : Str
  documentRoot : Str
  deriving DecidableEq, Repr

structure VhostConfig where
  host : Str
  rootDir : Str
  configFile : Option Str
  tlsCertificate : Option Str
  tlsPrivateKey : Option Str
  deriving DecidableEq, Repr

/-- Paths are texts; the defaults are those of `ServerConfig::default`. -/
structure ServerConfig where
  host : Str := "127.0.0.1".toList
  port : ℕ := 8080
  rootDir : Str := "./public".toList
  configFile : Str := "./.veysrule".toList
  workers : ℕ := 4
  devMode : Bool := false
  maxRequestSize : ℕ := 65536
  maxHeaderSize : ℕ := 16384
  maxHeaders : ℕ := 64
  maxHeaderLine : ℕ := 8192
  maxUriLength : ℕ := 8192
  readTimeout : ℕ := 10
  writeTimeout : ℕ := 10
  keepAliveTimeout : ℕ := 10
  maxConnections : ℕ := 1024
  maxRequestsPerConnection : ℕ := 100
  denyHiddenFiles : Bool := true
  http2Enabled : Bool := true
  http2MaxConcurrentStreams : ℕ := 100
  http2MaxFrameSize : ℕ := 16384
  http2MaxHeaderBlockSize : ℕ := 65536
  http2InitialWindowSize : ℕ := 65535
  tlsEnabled : Bool := false
  tlsCertificate : Option Str := none
  tlsPrivateKey : Option Str := none
  vhosts : List VhostConfig := []
  proxyRoutes : List ProxyRoute := []
  fastcgiRoutes : List FastCgiRoute := []
  frontController : Option Str := none
  logFormat : Str := "text".toList
  accessLog : Str := "stdout".toList
  errorLog : Str := "stderr".toList
  rateLimitPerSecond : ℕ := 0
  rateLimitBurst : ℕ := 0
  maxConnectionsPerIp : ℕ := 0
  securityXContentTypeOptions : Option Str := some "nosniff".toList
  securityReferrerPolicy : Option Str := some "strict-origin-when-cross-origin".toList
  securityXFrameOptions : Option Str := none
  securityContentSecurityPolicy : Option Str := none
  compressionEnabled : Bool := true
  compressionLevel : ℕ := 6
  compressionMinSize : ℕ := 1024
  compressionMimeTypes : List Str :=
    ["text/", "application/javascript", "application/json", "application/xml",
      "image/svg+xml"].map String.toList
  upstreamHealthInterval : ℕ := 0
  upstreamHealthTimeout : ℕ := 2
  upstreamHealthFailures : ℕ := 3
  upstreamHealthRecovery : ℕ := 2
  deriving DecidableEq, Repr

end Veysrs
