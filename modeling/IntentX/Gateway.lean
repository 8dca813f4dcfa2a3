import IntentX.Access
import IntentX.ApiKeys
import IntentX.Csrf
import IntentX.Idempotency
import IntentX.KeyRotation
import IntentX.Lib.Headers
import IntentX.RateLimit
import IntentX.Signing

/-!
# From the gateway to a handler

The gateway checks a token or an API key, writes who it is into the headers, signs the request and
sends it on.  The platform checks the signature, and on its protected routes the token once more,
the idempotency key, the CSRF token, and what the token permits.

The platform takes no API key, and what the gateway writes about permissions is not read there: the
token alone decides (`requireAuth_next`, `requirePerms_next`).
-/

namespace IntentX.Gateway

open Lib Machine Text

/-! ## Requests -/

abbrev HeaderValue := List UInt8

def visible (b : UInt8) : Bool := (32 ≤ b.toNat && b.toNat < 127) || b.toNat == 9

/-- `HeaderValue::to_str` -/
def toStr (v : HeaderValue) : Option String :=
  if v.all visible then some (String.ofList (v.map asChar)) else none

/-- `str::parse::<HeaderValue>` -/
def parseValue (s : String) : Option HeaderValue := if (utf8 s).all visible then some (utf8 s) else none

structure HttpRequest where
  method : String
  path : String
  query : Option String
  headers : Headers HeaderValue
  /-- a body that breaks off is missing -/
  body : Option (List UInt8)
  deriving Repr, DecidableEq

def HttpRequest.header (r : HttpRequest) (name : String) : Option String := (r.headers.get name).bind toStr

def stripPrefix (pre s : String) : Option String :=
  if pre.toList.isPrefixOf s.toList then some (String.ofList (s.toList.drop pre.toList.length)) else none

def bearer (r : HttpRequest) : Option String := (r.header "authorization").bind (stripPrefix "Bearer ")

/-- What a layer does with a request: it goes on, or it is answered, or the task panics. -/
inductive Verdict (α : Type)
  | next (a : α)
  | answered (status : Nat) (message : String)
  | panicked
  deriving Repr, DecidableEq

def Verdict.bind {α β : Type} (v : Verdict α) (f : α → Verdict β) : Verdict β :=
  match v with
  | .next a => f a
  | .answered status message => .answered status message
  | .panicked => .panicked

/-! ## The gateway -/

/-- A path of the router, with `{*rest}` behind it or not. -/
structure Route where
  base : String
  rest : Bool
  deriving Repr, DecidableEq

/-- `{*rest}` stands for at least one character. -/
def Route.serves (route : Route) (path : String) : Bool :=
  if route.rest then
    (route.base ++ "/").toList.isPrefixOf path.toList && (route.base ++ "/").toList.length < path.toList.length
  else path == route.base

def serviceRoutes : List Route :=
  [⟨"/users", true⟩, ⟨"/accounts", true⟩, ⟨"/balances", true⟩, ⟨"/intents", true⟩, ⟨"/intents", false⟩,
    ⟨"/markets", true⟩, ⟨"/markets", false⟩, ⟨"/trades", true⟩, ⟨"/trades", false⟩, ⟨"/solvers", true⟩,
    ⟨"/bids", false⟩, ⟨"/orderbook", true⟩, ⟨"/candles", true⟩, ⟨"/market-data", true⟩,
    ⟨"/ledger", true⟩, ⟨"/settlement", true⟩, ⟨"/api-keys", true⟩]

def publicRoutes : List Route := [⟨"/auth", true⟩]

def servedBy (routes : List Route) (path : String) : Bool := routes.any fun route => route.serves path

/-- What proxy and client configuration give: the secrets, the limits, which text is which token,
the path that a URL with this path is sent with, and HMAC-SHA256. -/
structure Config where
  jwtSecret : String
  signingSecret : String
  limits : RateLimit.Config
  tokenOf : String → Option Jwt.Token
  sent : String → String
  hmac : List UInt8 → List UInt8 → List UInt8
  /-- the environment is `production` or `docker` -/
  production : Bool

section Gateway

variable (cfg : Config)

/-- With the secret of the configuration, whatever keys the platform signs with. -/
def validateTokenSync (t : Int) (text : String) : Except Jwt.JwtError Jwt.Claims :=
  match cfg.tokenOf text with
  | none => .error (.InvalidToken "InvalidToken")
  | some tok =>
    match Jwt.decode t tok cfg.jwtSecret with
    | .ok claims => .ok claims
    | .error .ExpiredSignature => .error .Expired
    | .error .InvalidSignature => .error (.InvalidToken "InvalidSignature")

/-- Both headers, in the order in which they are inserted; a text that is no header value panics. -/
def insertBoth (r : HttpRequest) (name₁ text₁ name₂ text₂ : String) : Verdict HttpRequest :=
  match parseValue text₁, parseValue text₂ with
  | some v₁, some v₂ => .next { r with headers := (r.headers.insert name₁ v₁).insert name₂ v₂ }
  | _, _ => .panicked

def validateAuth (svc : Option (String → Except ApiKeys.ApiKeyError ApiKeys.ApiKey)) (t : Int)
    (r : HttpRequest) : Verdict HttpRequest :=
  match bearer r with
  | some token =>
    match validateTokenSync cfg t token with
    | .ok claims => insertBoth r "x-user-id" (uuidText claims.sub) "x-user-email" claims.email
    | .error .Expired => .answered 401 "Token expired"
    | .error _ => .answered 401 "Invalid token"
  | none =>
    match r.header "x-api-key" with
    | some rawKey =>
      match svc with
      | none => .answered 500 "API key validation unavailable"
      | some validateKey =>
        match validateKey rawKey with
        | .ok key =>
          insertBoth r "x-user-id" (uuidText key.userId) "x-user-permissions"
            (String.intercalate "," key.permissions)
        | .error .Revoked => .answered 403 "API key revoked"
        | .error _ => .answered 401 "Invalid API key"
    | none => .answered 401 "Unauthorized"

def hopHeaders : List String := ["host", "connection", "transfer-encoding"]

/-- The request with the headers of `sign_request` behind those of the client. -/
def signHeaders (hs : Headers HeaderValue) (x : Signing.Signed) : Headers HeaderValue :=
  ((hs.append "x-signature" (utf8 (Signing.computeSignature cfg.hmac cfg.signingSecret x))).append
    "x-timestamp" (utf8 (toString x.timestamp))).append "x-nonce" (utf8 x.nonce)

/-- The path is signed as it came, and sent as the URL has it. -/
def proxyHandler (timestamp : Int) (nonce : String) (r : HttpRequest) : Verdict HttpRequest :=
  match r.body.filter fun bytes => bytes.length ≤ 10 * 1024 * 1024 with
  | some bytes =>
    .next { r with
      path := cfg.sent r.path
      headers := signHeaders cfg (r.headers.without hopHeaders) ⟨r.method, r.path, bytes, timestamp, nonce⟩
      body := some bytes }
  | none => .answered 400 ""

def limiterRequest (r : HttpRequest) : RateLimit.Request where
  path := r.path
  xUserId := r.header "x-user-id"
  xApiKey := r.header "x-api-key"
  xForwardedFor := r.header "x-forwarded-for"

/-- The times at which the platform reads its clock, looks the nonce up and stores it. -/
structure Times (τ : Type) [Field τ] [LinearOrder τ] where
  arrived : τ
  looked : τ
  stored : τ
  nonneg : 0 ≤ arrived
  looks : arrived ≤ looked
  stores : looked ≤ stored

/-- What the environment decides for a request: the clocks, the fates of the commands, what the
database says of API keys and token secrets, the nonce, the CSRF token that is drawn, and what a
handler answers. -/
structure Moment (τ : Type) [Field τ] [LinearOrder τ] where
  micros : Int
  limiterTime : Int
  limiterFate : Fate
  validateKey : Option (String → Except ApiKeys.ApiKeyError ApiKeys.ApiKey)
  authTime : Int
  timestamp : Int
  /-- an `i64` -/
  fits : inI64 timestamp = true
  nonce : Uuid
  times : Times τ
  verifyTime : Int
  secrets : List String
  lookupServed : Bool
  csrfFate : Fate
  deleteFate : Fate
  csrfToken : String
  response : Idempotency.Response

variable {τ : Type} [Field τ] [LinearOrder τ] [FloorRing τ]

/-- The router of the gateway; CORS answers every `OPTIONS` before it. -/
def gateway (n : Moment τ) (redis : RateLimit.Redis) (r : HttpRequest) :
    Verdict HttpRequest × RateLimit.Redis :=
  if r.method = "OPTIONS" then (.answered 200 "", redis)
  else if r.path = "/health" then (.answered 200 "ok", redis)
  else if r.path = "/metrics" then (.answered 200 "", redis)
  else if servedBy publicRoutes r.path then (proxyHandler cfg n.timestamp (uuidText n.nonce) r, redis)
  else if servedBy serviceRoutes r.path then
    match RateLimit.call cfg.limits (limiterRequest r) n.micros n.limiterTime n.limiterFate redis with
    | (.refused status _, redis) => (.answered status "", redis)
    | (.inner _, redis) =>
      ((validateAuth cfg n.validateKey n.authTime r).bind
        (proxyHandler cfg n.timestamp (uuidText n.nonce)), redis)
  else (.answered 404 "", redis)

/-! ## The platform -/

/-- What a route of the platform is behind. -/
inductive Target
  /-- the JWT, the idempotency key, the CSRF token and these permissions, the outermost first -/
  | guarded (permissions : List String)
  | csrfToken
  /-- `admin_routes`: the JWT and the role -/
  | admin
  | unguarded
  deriving Repr, DecidableEq

/-- A request that got to the handler of a protected route. -/
structure Handled where
  request : HttpRequest
  claims : Jwt.Claims
  permissions : List String
  deriving Repr, DecidableEq

structure State (τ : Type) where
  redis : RateLimit.Redis
  nonces : Signing.Keys τ
  site : Csrf.Site
  rows : Idempotency.Rows
  /-- the latest first -/
  handled : List Handled

def State.new : State τ := ⟨fun _ => ⟨[], none⟩, fun _ => none, .new, fun _ => none, []⟩

def validateToken (secrets : List String) (t : Int) (text : String) : Except Jwt.JwtError Jwt.Claims :=
  match cfg.tokenOf text with
  | none => .error (.InvalidToken "No valid signing key found")
  | some tok => Jwt.tryKeys t tok secrets

def requireAuth (secrets : List String) (t : Int) (r : HttpRequest) : Verdict Jwt.Claims :=
  match bearer r with
  | none => .answered 401 "Missing Authorization header"
  | some text =>
    match validateToken cfg secrets t text with
    | .ok claims => .next claims
    | .error .Expired => .answered 401 "Token expired"
    | .error _ => .answered 401 "Invalid token"

/-- The claims come first; the header is for requests without them. -/
def extractPermissions (claims : Option Jwt.Claims) (r : HttpRequest) : List String :=
  match claims with
  | some claims => claims.permissions
  | none =>
    match r.header "x-user-permissions" with
    | some s => (s.toList.splitOn ',').map fun p => String.ofList (Csrf.trim p)
    | none => []

/-- The `require_perm` layers of a route. -/
def requirePerms (permissions : List String) (claims : Jwt.Claims) (r : HttpRequest) : Verdict Unit :=
  match permissions.findSome? fun p => Rbac.requirePerm p (extractPermissions (some claims) r) with
  | some (status, message) => .answered status message
  | none => .next ()

def idempotencyMethod (method : String) : Idempotency.Method :=
  if method = "POST" then .Post
  else if method = "PUT" then .Put
  else if method = "PATCH" then .Patch
  else .other method

def idempotencyRequest (r : HttpRequest) : Idempotency.Request where
  method := idempotencyMethod r.method
  path := r.path
  idempotencyKey := r.header "idempotency-key"
  xUserId := r.header "x-user-id"
  body := r.body.getD []

/-- The answer that is stored for a request, or the conflict with it. -/
def replay (rows : Idempotency.Rows) (served : Bool) (r : HttpRequest) : Option Idempotency.Answer :=
  if (idempotencyRequest r).method.mutating && served then
    ((r.header "idempotency-key").bind rows).map (Idempotency.answerCached (idempotencyRequest r))
  else none

def csrfRequest (r : HttpRequest) : Csrf.Request where
  method := r.method
  xCsrfToken := r.header "x-csrf-token"
  cookie := r.header "cookie"
  xUserId := r.header "x-user-id"

/-- The tokens after a request: it is looked up and deleted, unless the method needs none. -/
def csrfSite (n : Moment τ) (site : Csrf.Site) (r : HttpRequest) : Csrf.Site :=
  Csrf.step (Csrf.step site (.request 0 (csrfRequest r) n.csrfFate)) (.delete 0 n.deleteFate)

def csrfPasses (n : Moment τ) (site : Csrf.Site) (r : HttpRequest) : Bool :=
  Csrf.safe r.method || (Csrf.letThrough site (.request 0 (csrfRequest r) n.csrfFate)).isSome

/-- Why the CSRF layer answers a request. -/
def csrfMessage (n : Moment τ) (site : Csrf.Site) (r : HttpRequest) : String :=
  match Csrf.presented (csrfRequest r) with
  | .error message => message
  | .ok _ =>
    if (Csrf.found site 0 (csrfRequest r) n.csrfFate).isSome then "CSRF token not issued for this user"
    else "Invalid or expired CSRF token"

/-- What the idempotency layer has around it: the CSRF token, the permissions and the handler. -/
def insideIdempotency (n : Moment τ) (permissions : List String) (site : Csrf.Site) (r : HttpRequest)
    (claims : Jwt.Claims) : Verdict Handled :=
  if csrfPasses n site r then
    (requirePerms permissions claims r).bind fun _ => .next ⟨r, claims, permissions⟩
  else .answered 403 (csrfMessage n site r)

def textResponse (status : Nat) (message : String) : Idempotency.Response :=
  ⟨status, [("content-type", "text/plain; charset=utf-8")], some (utf8 message)⟩

/-- The response is stored under the key of the request, if it has one and writes. -/
def storeResponse (n : Moment τ) (rows : Idempotency.Rows) (r : HttpRequest) (v : Verdict Handled) :
    Idempotency.Rows :=
  if (idempotencyRequest r).method.mutating then
    match r.header "idempotency-key", v with
    | some key, .next _ => rows.insert ((idempotencyRequest r).row key n.response)
    | some key, .answered status message =>
      rows.insert ((idempotencyRequest r).row key (textResponse status message))
    | _, _ => rows
  else rows

def signingRequest (r : HttpRequest) : Signing.Request :=
  ⟨r.method, r.path, r.header "x-signature", r.header "x-timestamp", r.header "x-nonce", r.body⟩

def arrival (n : Moment τ) (r : HttpRequest) : Signing.Arrival τ :=
  ⟨signingRequest r, n.times.arrived, n.times.looked, n.times.stored, n.times.nonneg, n.times.looks,
    n.times.stores⟩

/-- `VerifySignatureService::call`, where the platform has it. -/
def verify (n : Moment τ) (nonces : Signing.Keys τ) (r : HttpRequest) : Verdict HttpRequest × Signing.Keys τ :=
  if cfg.production then
    match Signing.call cfg.hmac cfg.signingSecret (arrival n r) nonces with
    | (.refused status message, nonces) => (.answered status message, nonces)
    | (.inner x, nonces) => (.next { r with body := some x.body }, nonces)
  else (.next r, nonces)

/-- A protected route. -/
def protectedRoute (n : Moment τ) (permissions : List String) (s : State τ) (r : HttpRequest) :
    Verdict Handled × State τ :=
  match requireAuth cfg n.secrets n.verifyTime r with
  | .answered status message => (.answered status message, s)
  | .panicked => (.panicked, s)
  | .next claims =>
    match replay s.rows n.lookupServed r with
    | some answer => (.answered ((answer.response.map (·.status)).getD 500) "", s)
    | none =>
      (insideIdempotency n permissions s.site r claims, { s with
        site := csrfSite n s.site r
        rows := storeResponse n s.rows r (insideIdempotency n permissions s.site r claims) })

-- which route of the platform serves a method and a path
variable (routeOf : String → String → Target)

/-- The router of the platform: a protected handler that is reached is put down. -/
def platform (n : Moment τ) (s : State τ) (r : HttpRequest) : State τ :=
  match verify cfg n s.nonces r with
  | (.next r, nonces) =>
    match routeOf r.method r.path with
    | .guarded permissions =>
      match protectedRoute cfg n permissions { s with nonces } r with
      | (.next h, s) => { s with handled := h :: s.handled }
      | (_, s) => s
    | .csrfToken =>
      { s with
        nonces
        site := Csrf.step s.site
          (.generate 0 ((r.header "x-user-id").getD "anonymous") n.csrfToken n.csrfFate) }
    | .admin | .unguarded => { s with nonces }
  | (_, nonces) => { s with nonces }

/-- A client's request, through the gateway to the platform. -/
def serve (s : State τ) (x : HttpRequest × Moment τ) : State τ :=
  match gateway cfg x.2 s.redis x.1 with
  | (.next r, redis) => platform cfg routeOf x.2 { s with redis } r
  | (_, redis) => { s with redis }

end Gateway

/-! ## Headers on their way -/

section HeaderLemmas

variable {cfg : Config} {hs : Headers HeaderValue} {x : Signing.Signed} {s name : String} {v : HeaderValue}

theorem toStr_parseValue (h : parseValue s = some v) : toStr v = some s := by
  unfold parseValue at h
  split at h
  · next hvis =>
    obtain rfl := Option.some.inj h
    have hascii : ∀ b ∈ utf8 s, b.toNat < 128 := by
      intro b hb
      have hb := List.all_eq_true.1 hvis b hb
      simp only [visible, Bool.or_eq_true, Bool.and_eq_true, decide_eq_true_eq, beq_iff_eq] at hb
      omega
    unfold toStr
    rw [if_pos hvis]
    exact congrArg some (utf8_inj.1 (utf8_ofList_asChar hascii))
  · exact nomatch h

/-- The headers of the signature. -/
def signatureNames : List String := ["x-signature", "x-timestamp", "x-nonce"]

theorem get_signHeaders (h : name ∉ signatureNames) : (signHeaders cfg hs x).get name = hs.get name := by
  simp only [signatureNames, List.mem_cons, List.not_mem_nil, or_false, not_or] at h
  unfold signHeaders
  rw [Headers.get_append_ne (Ne.symm h.2.2), Headers.get_append_ne (Ne.symm h.2.1),
    Headers.get_append_ne (Ne.symm h.1)]

/-- Without headers of that name from the client, those of the gateway are read. -/
theorem get_signHeaders_own (h : ∀ name ∈ signatureNames, hs.get name = none) :
    (signHeaders cfg hs x).get "x-signature" =
        some (utf8 (Signing.computeSignature cfg.hmac cfg.signingSecret x)) ∧
      (signHeaders cfg hs x).get "x-timestamp" = some (utf8 (toString x.timestamp)) ∧
      (signHeaders cfg hs x).get "x-nonce" = some (utf8 x.nonce) := by
  have hsig := h "x-signature" (by decide)
  have hts := h "x-timestamp" (by decide)
  have hnonce := h "x-nonce" (by decide)
  unfold signHeaders
  refine ⟨?_, ?_, ?_⟩
  · rw [Headers.get_append_ne (by decide), Headers.get_append_ne (by decide),
      Headers.get_append_of_none hsig]
  · rw [Headers.get_append_ne (by decide), Headers.get_append_of_none]
    rw [Headers.get_append_ne (by decide), hts]
  · rw [Headers.get_append_of_none]
    rw [Headers.get_append_ne (by decide), Headers.get_append_ne (by decide), hnonce]

variable {r f : HttpRequest} {name₁ name₂ text₁ text₂ : String}

theorem insertBoth_next (h : insertBoth r name₁ text₁ name₂ text₂ = .next f) :
    ∃ v₁ v₂, parseValue text₁ = some v₁ ∧ parseValue text₂ = some v₂ ∧
      f = { r with headers := (r.headers.insert name₁ v₁).insert name₂ v₂ } := by
  unfold insertBoth at h
  split at h
  · next v₁ v₂ h₁ h₂ => exact ⟨v₁, v₂, h₁, h₂, (Verdict.next.inj h).symm⟩
  · exact nomatch h

theorem bind_next {α β : Type} {v : Verdict α} {g : α → Verdict β} {b : β} (h : v.bind g = .next b) :
    ∃ a, v = .next a ∧ g a = .next b := by
  cases v with
  | next a => exact ⟨a, rfl, h⟩
  | answered status message => exact nomatch h
  | panicked => exact nomatch h

/-- What the proxy makes of a request. -/
def forwarded (cfg : Config) (ts : Int) (nonce : String) (bytes : List UInt8) (r : HttpRequest) : HttpRequest :=
  { r with
    path := cfg.sent r.path
    headers := signHeaders cfg (r.headers.without hopHeaders) ⟨r.method, r.path, bytes, ts, nonce⟩
    body := some bytes }

theorem proxyHandler_next {ts : Int} {nonce : String} : proxyHandler cfg ts nonce r = .next f ↔
    ∃ bytes, r.body = some bytes ∧ bytes.length ≤ 10 * 1024 * 1024 ∧ f = forwarded cfg ts nonce bytes r := by
  unfold proxyHandler
  cases hb : r.body with
  | none => simp
  | some bytes =>
    rw [Option.filter_some]
    by_cases hlen : bytes.length ≤ 10 * 1024 * 1024
    · rw [if_pos (decide_eq_true hlen)]
      constructor
      · intro h
        exact ⟨bytes, rfl, hlen, (Verdict.next.inj h).symm⟩
      · rintro ⟨bytes', h, -, rfl⟩
        obtain rfl := Option.some.inj h
        rfl
    · rw [if_neg fun h => hlen (of_decide_eq_true h)]
      refine ⟨nofun, ?_⟩
      rintro ⟨bytes', h, hle, -⟩
      obtain rfl := Option.some.inj h
      exact absurd hle hlen

/-- A header that is neither of one hop nor of the signature stays. -/
theorem get_forwarded {ts : Int} {nonce : String} {bytes : List UInt8} (hhop : name ∉ hopHeaders)
    (hsig : name ∉ signatureNames) :
    (forwarded cfg ts nonce bytes r).headers.get name = r.headers.get name :=
  (get_signHeaders hsig).trans (Headers.get_without hhop)

end HeaderLemmas

/-! ## Tokens -/

section Tokens

variable {cfg : Config} {r f : HttpRequest} {claims : Jwt.Claims} {t : Int} {text : String}

/-- The token has not expired by more than the leeway. -/
def InTime (t : Int) (claims : Jwt.Claims) : Prop := timestamp t - 60 ≤ claims.exp

instance (t : Int) (claims : Jwt.Claims) : Decidable (InTime t claims) := inferInstanceAs (Decidable (_ ≤ _))

theorem validateTokenSync_ok : validateTokenSync cfg t text = .ok claims ↔
    ∃ tok, cfg.tokenOf text = some tok ∧ tok.secret = cfg.jwtSecret ∧ InTime t tok.claims ∧
      tok.claims = claims := by
  unfold validateTokenSync InTime
  cases htok : cfg.tokenOf text with
  | none => simp
  | some tok =>
    unfold Jwt.decode
    by_cases hs : tok.secret = cfg.jwtSecret
    · by_cases hexp : tok.claims.exp < timestamp t - 60
      · simp [hs, hexp]
        omega
      · simp [hs, hexp]
        omega
    · simp [hs]

theorem tryKeys_iff {tok : Jwt.Token} {secrets : List String} : Jwt.tryKeys t tok secrets = .ok claims ↔
    tok.secret ∈ secrets ∧ InTime t tok.claims ∧ tok.claims = claims := by
  unfold InTime
  induction secrets with
  | nil => simp [Jwt.tryKeys]
  | cons secret secrets ih =>
    unfold Jwt.tryKeys Jwt.decode
    by_cases hs : tok.secret = secret
    · by_cases hexp : tok.claims.exp < timestamp t - 60
      · simp [hs, hexp]
        omega
      · simp [hs, hexp]
        omega
    · simp [hs, ih]

theorem requireAuth_next {secrets : List String} : requireAuth cfg secrets t r = .next claims ↔
    ∃ text tok, bearer r = some text ∧ cfg.tokenOf text = some tok ∧ tok.secret ∈ secrets ∧
      InTime t tok.claims ∧ tok.claims = claims := by
  unfold requireAuth
  cases hb : bearer r with
  | none => simp
  | some text =>
    unfold validateToken
    cases htok : cfg.tokenOf text with
    | none => simp [htok]
    | some tok =>
      have hiff : Jwt.tryKeys t tok secrets = .ok claims ↔ _ := tryKeys_iff
      simp only [Option.some.injEq, exists_and_left, exists_eq_left', htok, ← hiff]
      cases Jwt.tryKeys t tok secrets with
      | ok c => simp
      | error e => cases e <;> simp

end Tokens

end IntentX.Gateway
