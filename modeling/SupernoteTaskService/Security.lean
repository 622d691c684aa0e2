import SupernoteTaskService.Deps
import SupernoteTaskService.Encoding
import SupernoteTaskService.RateLimit

/-!
# API keys and the gate of every request

The configured keys, the key that a request presents in one of two headers, and the
dependency that lets a request through or refuses it.  SHA-256 is a parameter: it takes
the octets and returns the hexadecimal digest.  A set of digests is the list of its
elements.
-/

set_option autoImplicit false

namespace SupernoteTaskService

open Foundation

structure AccessSettings extends Settings where
  apiKeys : Text := []
  rateLimitWindowSeconds : ℤ := 60
  unauthRateLimitRequests : ℤ := 10
  trustProxyHeaders : Bool := true
  deriving DecidableEq

section Keys
variable (sha256 : List ℕ → Text)

def hashKey (raw : Text) : Text := sha256 (encodeUtf8 raw)

def AccessSettings.apiKeyHashes (settings : AccessSettings) : List Text :=
  let keys := ((settings.apiKeys.splitOn ',').filter fun k => strip k ≠ []).map strip
  (keys.map (hashKey sha256)).dedup

/-- `str.lower` on what is compared with an ASCII word.  No character outside ASCII has
one of the letters of `bearer` in its lower case. -/
def lower (text : Text) : Text := text.map Char.toLower

/-- `text.partition(" ")`, without the separator. -/
def partitionSpace (text : Text) : Text × Text :=
  (text.takeWhile (· ≠ ' '), (text.dropWhile (· ≠ ' ')).tail)

/-- `_extract_presented_key`; an absent header has no scheme, as an empty one. -/
def extractPresentedKey (authorization xApiKey : Option Text) : Option Text :=
  let (scheme, credential) := partitionSpace (authorization.getD [])
  if lower scheme = "bearer".toList ∧ credential ≠ [] then some (strip credential)
  else
    match xApiKey with
    | none | some [] => none
    | some xApiKey => some (strip xApiKey)

/-- `_key_matches`: every digest is compared. -/
def keyMatches (presented : Text) (validHashes : List Text) : Bool :=
  let presentedHash := hashKey sha256 presented
  validHashes.foldl (fun matched valid => if presentedHash = valid then true else matched) false

def validateApiKey (settings : AccessSettings) (authorization xApiKey : Option Text) :
    Option Text :=
  let validHashes := settings.apiKeyHashes sha256
  if validHashes = [] then none
  else
    match extractPresentedKey authorization xApiKey with
    | none | some [] => none
    | some presented =>
        if keyMatches sha256 presented validHashes then some ((hashKey sha256 presented).take 16)
        else none

end Keys

/-! ## The gate -/

/-- What the gate reads of a request besides the two headers. -/
structure ClientRequest where
  forwardedFor : Option Text
  clientHost : Option Text
  deriving DecidableEq

/-- `_client_ip` -/
def clientIp (request : ClientRequest) (trustProxy : Bool) : Text :=
  match trustProxy, request.forwardedFor with
  | true, some (c :: forwarded) =>
      strip (((c :: forwarded).splitOn ',').getLast (List.splitOn_ne_nil ',' _))
  | _, _ => request.clientHost.getD "unknown".toList

/-- An error response with its header. -/
structure Refusal where
  error : ApiError
  header : String × Text
  deriving DecidableEq

def rateLimited (retryAfter : ℤ) : Refusal :=
  ⟨httpException 429 "Rate limit exceeded.", "Retry-After", pythonStr retryAfter⟩

def unauthorized : Refusal :=
  ⟨httpException 401 "Invalid or missing API key.", "WWW-Authenticate", "Bearer".toList⟩

section Gate
variable {K : Type} [CommRing K] [LinearOrder K] [FloorRing K]

def unauthRateLimiter (settings : AccessSettings) : RateLimiter Text K :=
  RateLimiter.new settings.unauthRateLimitRequests settings.rateLimitWindowSeconds

/-- The caller id or the refusal, and the limiter afterwards. -/
def enforceRateLimit (sha256 : List ℕ → Text) (settings : AccessSettings) (request : ClientRequest)
    (authorization xApiKey : Option Text) (now : K) (limiter : RateLimiter Text K) :
    Except Refusal Text × RateLimiter Text K :=
  match validateApiKey sha256 settings authorization xApiKey with
  | some callerId => (.ok callerId, limiter)
  | none =>
      let ip := clientIp request settings.trustProxyHeaders
      let (result, limiter) := limiter.check ("ip:".toList ++ ip) now
      if result.allowed then (.error unauthorized, limiter)
      else (.error (rateLimited result.retryAfter), limiter)

end Gate

end SupernoteTaskService
