import IntentX.Gateway

/-!
# Which requests get to a handler

A read gets through gateway and platform to its handler if and only if it carries a token that both
accept and that permits it; an API key never gets it there (`read_handled_iff`).  The gateway has no
way to `/csrf-token`, so no protected request that writes ever gets to its handler
(`no_write_handled`).
-/

namespace IntentX.Gateway

open Lib Machine Text

/-! ## Texts that go into a header -/

section Visible

variable {s : String}

/-- A text of visible ASCII characters is a header value. -/
theorem parseValue_of_visible (h : ∀ c ∈ s.toList, 32 ≤ c.toNat ∧ c.toNat < 127) :
    parseValue s = some (utf8 s) := by
  refine if_pos (List.all_eq_true.2 fun b hb => ?_)
  obtain ⟨c, hc, hb⟩ := List.mem_flatMap.1 hb
  have hvis := h c hc
  rw [utf8EncodeChar_ascii (by omega)] at hb
  obtain rfl := List.mem_singleton.1 hb
  have hnat : (UInt8.ofNat c.toNat).toNat = c.toNat := by
    rw [UInt8.toNat_ofNat']
    omega
  simp only [visible, hnat, Bool.or_eq_true, Bool.and_eq_true, decide_eq_true_eq]
  exact .inl hvis

theorem toStr_of_visible (h : ∀ c ∈ s.toList, 32 ≤ c.toNat ∧ c.toNat < 127) : toStr (utf8 s) = some s :=
  toStr_parseValue (parseValue_of_visible h)

theorem visible_uuidText (u : Uuid) : ∀ c ∈ (uuidText u).toList, 32 ≤ c.toNat ∧ c.toNat < 127 := by
  have hdigit : ∀ n, n < 16 → 32 ≤ (hexDigit n).toNat ∧ (hexDigit n).toNat < 127 := by decide
  have hall : ∀ c ∈ (List.range 32).map (fun i => hexDigit (u / 16 ^ (31 - i) % 16)),
      32 ≤ c.toNat ∧ c.toNat < 127 := by
    intro c hc
    obtain ⟨i, -, rfl⟩ := List.mem_map.1 hc
    exact hdigit _ (Nat.mod_lt _ (by decide))
  intro c hc
  unfold uuidText at hc
  rw [String.toList_ofList] at hc
  simp only [List.mem_append, List.mem_singleton] at hc
  rcases hc with (((((((hc | rfl) | hc) | rfl) | hc) | rfl) | hc) | rfl) | hc
  · exact hall c (List.mem_of_mem_take hc)
  · decide
  · exact hall c (List.mem_of_mem_drop (List.mem_of_mem_take hc))
  · decide
  · exact hall c (List.mem_of_mem_drop (List.mem_of_mem_take hc))
  · decide
  · exact hall c (List.mem_of_mem_drop (List.mem_of_mem_take hc))
  · decide
  · exact hall c (List.mem_of_mem_drop hc)

theorem visible_hexEncode (bytes : List UInt8) : ∀ c ∈ hexEncode bytes, 32 ≤ c.toNat ∧ c.toNat < 127 := by
  have hdigit : ∀ n, n < 16 → 32 ≤ (Nat.digitChar n).toNat ∧ (Nat.digitChar n).toNat < 127 := by decide
  intro c hc
  obtain ⟨b, -, hc⟩ := List.mem_flatMap.1 hc
  have hb := b.toNat_lt
  rcases List.mem_cons.1 hc with rfl | hc
  · exact hdigit _ (by omega)
  · obtain rfl := List.mem_singleton.1 hc
    exact hdigit _ (Nat.mod_lt _ (by decide))

theorem visible_toString (x : Int) : ∀ c ∈ (toString x).toList, 32 ≤ c.toNat ∧ c.toNat < 127 := by
  intro c hc
  rcases mem_toString hc with hd | rfl
  · have hd : 48 ≤ c.toNat ∧ c.toNat ≤ 57 := by
      simp only [Char.isDigit, Bool.and_eq_true, decide_eq_true_eq] at hd
      exact hd
    omega
  · decide

end Visible

/-! ## The way of one request -/

section Way

variable {cfg : Config} {r f g : HttpRequest} {path : String}

/-- Without a token there is no way for a request but by an API key. -/
theorem validateAuth_token {svc : Option (String → Except ApiKeys.ApiKeyError ApiKeys.ApiKey)} {t : Int}
    {text : String} (hb : bearer r = some text) : validateAuth cfg svc t r = .next f ↔
      ∃ tok v, cfg.tokenOf text = some tok ∧ tok.secret = cfg.jwtSecret ∧ InTime t tok.claims ∧
        parseValue tok.claims.email = some v ∧
        f = { r with headers :=
          (r.headers.insert "x-user-id" (utf8 (uuidText tok.claims.sub))).insert "x-user-email" v } := by
  unfold validateAuth
  simp only [hb]
  constructor
  · intro h
    split at h
    · next claims hok =>
      obtain ⟨tok, htok, hs, hin, rfl⟩ := validateTokenSync_ok.1 hok
      obtain ⟨v₁, v₂, h₁, h₂, hf⟩ := insertBoth_next h
      rw [parseValue_of_visible (visible_uuidText _)] at h₁
      obtain rfl := Option.some.inj h₁
      exact ⟨tok, v₂, htok, hs, hin, h₂, hf⟩
    · exact nomatch h
    · exact nomatch h
  · rintro ⟨tok, v, htok, hs, hin, hv, rfl⟩
    rw [validateTokenSync_ok.2 ⟨tok, htok, hs, hin, rfl⟩]
    simp only [insertBoth, parseValue_of_visible (visible_uuidText _), hv]

/-- The headers that the gateway writes. -/
def authNames : List String := ["x-user-id", "x-user-email", "x-user-permissions"]

theorem insertBoth_keeps {name₁ text₁ name₂ text₂ name : String}
    (h : insertBoth r name₁ text₁ name₂ text₂ = .next f) (h₁ : name₁ ≠ name) (h₂ : name₂ ≠ name) :
    f.method = r.method ∧ f.path = r.path ∧ f.body = r.body ∧ f.headers.get name = r.headers.get name := by
  obtain ⟨v₁, v₂, -, -, rfl⟩ := insertBoth_next h
  exact ⟨rfl, rfl, rfl, (Headers.get_insert_ne h₂).trans (Headers.get_insert_ne h₁)⟩

theorem validateAuth_keeps {svc : Option (String → Except ApiKeys.ApiKeyError ApiKeys.ApiKey)} {t : Int}
    (h : validateAuth cfg svc t r = .next f) {name : String} (hname : name ∉ authNames) :
    f.method = r.method ∧ f.path = r.path ∧ f.body = r.body ∧ f.headers.get name = r.headers.get name := by
  simp only [authNames, List.mem_cons, List.not_mem_nil, or_false, not_or] at hname
  unfold validateAuth at h
  split at h
  · split at h
    · exact insertBoth_keeps h (Ne.symm hname.1) (Ne.symm hname.2.1)
    · exact nomatch h
    · exact nomatch h
  · split at h
    · split at h
      · exact nomatch h
      · split at h
        · exact insertBoth_keeps h (Ne.symm hname.1) (Ne.symm hname.2.2)
        · exact nomatch h
        · exact nomatch h
    · exact nomatch h

variable {τ : Type} [Field τ] [LinearOrder τ] {n : Moment τ} {redis : RateLimit.Redis}

/-- What the gateway sends on it serves, and the proxy made it of the request or of what the
authentication made of that. -/
theorem gateway_next (h : (gateway cfg n redis r).1 = .next f) :
    r.method ≠ "OPTIONS" ∧
      (servedBy publicRoutes r.path = true ∧ proxyHandler cfg n.timestamp (uuidText n.nonce) r = .next f ∨
        servedBy serviceRoutes r.path = true ∧ ∃ r', validateAuth cfg n.validateKey n.authTime r = .next r' ∧
          proxyHandler cfg n.timestamp (uuidText n.nonce) r' = .next f) := by
  unfold gateway at h
  split at h
  · exact nomatch h
  · next hm =>
    refine ⟨hm, ?_⟩
    split at h
    · exact nomatch h
    · split at h
      · exact nomatch h
      · split at h
        · next hpub => exact .inl ⟨hpub, h⟩
        · split at h
          · next hserv =>
            split at h
            · exact nomatch h
            · exact .inr ⟨hserv, bind_next h⟩
          · exact nomatch h

theorem header_of_get {name : String} {v : HeaderValue} (h : r.headers.get name = some v) :
    r.header name = toStr v := by
  unfold HttpRequest.header
  rw [h, Option.bind_some]

/-- A client that sends no headers of the signature has those of the gateway read. -/
theorem header_forwarded {bytes : List UInt8} (hown : ∀ name ∈ signatureNames, r.headers.get name = none) :
    (forwarded cfg n.timestamp (uuidText n.nonce) bytes r).header "x-signature" =
        some (Signing.computeSignature cfg.hmac cfg.signingSecret
          ⟨r.method, r.path, bytes, n.timestamp, uuidText n.nonce⟩) ∧
      (forwarded cfg n.timestamp (uuidText n.nonce) bytes r).header "x-timestamp" =
        some (toString n.timestamp) ∧
      (forwarded cfg n.timestamp (uuidText n.nonce) bytes r).header "x-nonce" = some (uuidText n.nonce) := by
  have hgone : ∀ name ∈ signatureNames, (r.headers.without hopHeaders).get name = none := by
    intro name hmem
    have hhop : name ∉ hopHeaders := by
      revert name
      decide
    rw [Headers.get_without hhop]
    exact hown name hmem
  have hget := @get_signHeaders_own cfg _ ⟨r.method, r.path, bytes, n.timestamp, uuidText n.nonce⟩ hgone
  refine ⟨?_, ?_, ?_⟩
  · rw [header_of_get hget.1]
    refine toStr_of_visible ?_
    unfold Signing.computeSignature
    rw [String.toList_ofList]
    exact visible_hexEncode _
  · rw [header_of_get hget.2.1]
    exact toStr_of_visible (visible_toString _)
  · rw [header_of_get hget.2.2]
    exact toStr_of_visible (visible_uuidText _)

theorem parse_timestamp (n : Moment τ) : parseSigned 64 (toString n.timestamp).toList = some n.timestamp := by
  have hfits := n.fits
  simp only [inI64, Bool.and_eq_true, decide_eq_true_eq] at hfits
  exact parseSigned_toString hfits.1 hfits.2

variable [FloorRing τ] {nonces : Signing.Keys τ}

theorem verify_next (h : (verify cfg n nonces f).1 = .next g) :
    g.method = f.method ∧ g.path = f.path ∧ g.headers = f.headers := by
  unfold verify at h
  split at h
  · split at h
    · exact nomatch h
    · obtain rfl := Verdict.next.inj h
      exact ⟨rfl, rfl, rfl⟩
  · obtain rfl := Verdict.next.inj h
    exact ⟨rfl, rfl, rfl⟩

omit [FloorRing τ] in
/-- What is read of the signature that the gateway put on a request: the request as it was sent, and
whether the signature fits it. -/
theorem presents_forwarded {bytes : List UInt8} {x : Signing.Signed}
    (hown : ∀ name ∈ signatureNames, r.headers.get name = none) (hlen : bytes.length ≤ 10 * 1024 * 1024) :
    Signing.Presents cfg.hmac cfg.signingSecret
        (arrival n (forwarded cfg n.timestamp (uuidText n.nonce) bytes r)) x ↔
      x = ⟨r.method, cfg.sent r.path, bytes, n.timestamp, uuidText n.nonce⟩ ∧
        Signing.computeSignature cfg.hmac cfg.signingSecret
            ⟨r.method, r.path, bytes, n.timestamp, uuidText n.nonce⟩ =
          Signing.computeSignature cfg.hmac cfg.signingSecret x := by
  obtain ⟨hsig, hts, hnonce⟩ := @header_forwarded cfg r _ _ _ n bytes hown
  have hbody : (signingRequest (forwarded cfg n.timestamp (uuidText n.nonce) bytes r)).bodyBytes = bytes := by
    show ((some bytes).filter _).getD [] = bytes
    rw [Option.filter_some, if_pos (decide_eq_true hlen)]
    rfl
  have hstamp : ((forwarded cfg n.timestamp (uuidText n.nonce) bytes r).header "x-timestamp").bind
      (fun t => parseSigned 64 t.toList) = some n.timestamp := by
    rw [hts, Option.bind_some]
    exact parse_timestamp n
  constructor
  · intro hp
    obtain ⟨method, path, body, timestamp, nonce⟩ := x
    obtain rfl : r.method = method := hp.method
    obtain rfl : cfg.sent r.path = path := hp.path
    obtain rfl : bytes = body := hbody.symm.trans hp.body
    obtain rfl : n.timestamp = timestamp := Option.some.inj (hstamp.symm.trans hp.timestamp)
    obtain rfl : uuidText n.nonce = nonce := Option.some.inj (hnonce.symm.trans hp.nonce)
    exact ⟨rfl, Option.some.inj (hsig.symm.trans hp.signature)⟩
  · rintro ⟨rfl, heq⟩
    exact ⟨hsig.trans (congrArg some heq), hstamp, hnonce, rfl, rfl, hbody⟩

/-- Where the platform has the layer, the signature of the gateway fits what it lets through. -/
theorem signature_of_verify {bytes : List UInt8} (hprod : cfg.production = true)
    (hown : ∀ name ∈ signatureNames, r.headers.get name = none) (hlen : bytes.length ≤ 10 * 1024 * 1024)
    (hv : (verify cfg n nonces (forwarded cfg n.timestamp (uuidText n.nonce) bytes r)).1 = .next g) :
    Signing.computeSignature cfg.hmac cfg.signingSecret
        ⟨r.method, r.path, bytes, n.timestamp, uuidText n.nonce⟩ =
      Signing.computeSignature cfg.hmac cfg.signingSecret
        ⟨r.method, cfg.sent r.path, bytes, n.timestamp, uuidText n.nonce⟩ := by
  unfold verify at hv
  rw [if_pos hprod] at hv
  split at hv
  · exact nomatch hv
  · next x keys hcall =>
    obtain ⟨rfl, heq⟩ :=
      (presents_forwarded hown hlen).1 (Signing.call_inner.1 (congrArg Prod.fst hcall)).1
    exact heq

variable {permissions : List String} {s : State τ} {h : Handled}

omit [FloorRing τ] in
theorem protectedRoute_next : (protectedRoute cfg n permissions s g).1 = .next h ↔
    ∃ claims, requireAuth cfg n.secrets n.verifyTime g = .next claims ∧ replay s.rows n.lookupServed g = none ∧
      csrfPasses n s.site g = true ∧ requirePerms permissions claims g = .next () ∧
      h = ⟨g, claims, permissions⟩ := by
  unfold protectedRoute
  cases hauth : requireAuth cfg n.secrets n.verifyTime g with
  | answered status message => simp
  | panicked => simp
  | next claims =>
    cases hreplay : replay s.rows n.lookupServed g with
    | some answer => simp
    | none =>
      unfold insideIdempotency
      cases hcsrf : csrfPasses n s.site g with
      | false => simp
      | true =>
        cases hperms : requirePerms permissions claims g with
        | next u => simp [Verdict.bind, hperms, eq_comm]
        | answered status message => simp [Verdict.bind, hperms]
        | panicked => simp [Verdict.bind, hperms]

variable (routeOf : String → String → Target)

/-- What comes of a verified request at a protected route. -/
def enter (cfg : Config) (n : Moment τ) (s : State τ) (g : HttpRequest) : Verdict Handled :=
  match routeOf g.method g.path with
  | .guarded permissions => (protectedRoute cfg n permissions s g).1
  | _ => .answered 200 ""

/-- What comes of a request at the handler of a protected route. -/
def arrive (cfg : Config) (s : State τ) (x : HttpRequest × Moment τ) : Verdict Handled :=
  (gateway cfg x.2 s.redis x.1).1.bind fun f =>
    (verify cfg x.2 s.nonces f).1.bind (enter routeOf cfg x.2 s)

def Verdict.toList {α : Type} : Verdict α → List α
  | .next a => [a]
  | _ => []

omit [FloorRing τ] in
theorem handled_protectedRoute (cfg : Config) (n : Moment τ) (permissions : List String) (s : State τ)
    (g : HttpRequest) : (protectedRoute cfg n permissions s g).2.handled = s.handled := by
  unfold protectedRoute
  cases requireAuth cfg n.secrets n.verifyTime g with
  | answered status message => rfl
  | panicked => rfl
  | next claims => cases replay s.rows n.lookupServed g <;> rfl

omit [FloorRing τ] in
/-- The answer of a protected route depends on the tokens and the stored responses alone. -/
theorem protectedRoute_fst : (protectedRoute cfg n permissions { s with redis, nonces } g).1 =
    (protectedRoute cfg n permissions s g).1 := by
  unfold protectedRoute
  cases requireAuth cfg n.secrets n.verifyTime g with
  | answered status message => rfl
  | panicked => rfl
  | next claims => cases replay s.rows n.lookupServed g <;> rfl

omit [FloorRing τ] in
theorem enter_congr (redis : RateLimit.Redis) (nonces : Signing.Keys τ) : enter routeOf cfg n { s with redis, nonces } g = enter routeOf cfg n s g := by
  unfold enter
  cases routeOf g.method g.path with
  | guarded permissions => exact protectedRoute_fst
  | csrfToken => rfl
  | admin => rfl
  | unguarded => rfl

theorem handled_platform : (platform cfg routeOf n s f).handled =
    ((verify cfg n s.nonces f).1.bind (enter routeOf cfg n s)).toList ++ s.handled := by
  unfold platform
  rcases verify cfg n s.nonces f with ⟨v, nonces⟩
  cases v with
  | answered status message => rfl
  | panicked => rfl
  | next g =>
    show _ = (enter routeOf cfg n s g).toList ++ s.handled
    rw [← enter_congr routeOf s.redis nonces]
    unfold enter
    dsimp only
    cases routeOf g.method g.path with
    | guarded permissions =>
      have hkeep := handled_protectedRoute cfg n permissions { s with nonces } g
      dsimp only at hkeep ⊢
      generalize protectedRoute cfg n permissions _ g = p at hkeep ⊢
      obtain ⟨v, s'⟩ := p
      cases v with
      | next h => exact congrArg (h :: ·) hkeep
      | answered status message => exact hkeep
      | panicked => exact hkeep
    | csrfToken => rfl
    | admin => rfl
    | unguarded => rfl

theorem handled_serve (x : HttpRequest × Moment τ) :
    (serve cfg routeOf s x).handled = (arrive routeOf cfg s x).toList ++ s.handled := by
  unfold serve arrive
  rcases gateway cfg x.2 s.redis x.1 with ⟨v, redis⟩
  cases v with
  | answered status message => rfl
  | panicked => rfl
  | next f =>
    refine (handled_platform routeOf).trans ?_
    have henter : enter routeOf cfg x.2 { s with redis } = enter routeOf cfg x.2 s :=
      funext fun _ => enter_congr routeOf redis s.nonces
    rw [henter]
    rfl

omit [FloorRing τ] in
theorem enter_next : enter routeOf cfg n s g = .next h ↔
    ∃ permissions, routeOf g.method g.path = .guarded permissions ∧
      (protectedRoute cfg n permissions s g).1 = .next h := by
  unfold enter
  cases routeOf g.method g.path with
  | guarded permissions => simp
  | csrfToken => simp
  | admin => simp
  | unguarded => simp

end Way

/-! ## Who gets to a handler -/

section Reads

variable {τ : Type} [Field τ] [LinearOrder τ] [FloorRing τ]

variable {cfg : Config} {s : State τ} {n : Moment τ} {r r' : HttpRequest} {permissions : List String}
  {routeOf : String → String → Target} {claims : Jwt.Claims} {h : Handled}

theorem bearer_of_get {f : HttpRequest} (h : f.headers.get "authorization" = r.headers.get "authorization") :
    bearer f = bearer r := by
  unfold bearer HttpRequest.header
  rw [h]

/-- The headers that the gateway writes are not those of the signature. -/
theorem unsigned_of_validateAuth {svc : Option (String → Except ApiKeys.ApiKeyError ApiKeys.ApiKey)} {t : Int}
    (hv : validateAuth cfg svc t r = .next r') (hown : ∀ name ∈ signatureNames, r.headers.get name = none) :
    ∀ name ∈ signatureNames, r'.headers.get name = none := by
  intro name hmem
  have hauth : name ∉ authNames := by
    revert name
    decide
  rw [(validateAuth_keeps hv hauth).2.2.2]
  exact hown name hmem

/-- `HMAC-SHA256("s", "GET|/balances/00000000-0000-0000-0000-000000000009||1000|00000000-0000-0000-0000-000000000003")` -/
def demoHmac (_ _ : List UInt8) : List UInt8 :=
  [44, 111, 5, 101, 145, 177, 13, 5, 242, 66, 181, 48, 16, 12, 82, 105,
    94, 78, 182, 63, 248, 147, 114, 162, 213, 190, 64, 53, 95, 255, 234, 202]

/-- The token of `demoClaims`, signed with `k`. -/
def demoText : String :=
  "eyJ0eXAiOiJKV1QiLCJhbGciOiJIUzI1NiJ9." ++
    "eyJzdWIiOiIwMDAwMDAwMC0wMDAwLTAwMDAtMDAwMC0wMDAwMDAwMDAwMDciLCJlbWFpbCI6ImFAYi5jIiwicGVybWlzc2lvbnMi" ++
    "OlsiYmFsYW5jZTpyZWFkIiwidHJhZGVyIl0sImV4cCI6ODc0MDAsImlhdCI6MTAwMCwia2lkIjpudWxsfQ." ++
    "OVV47UaaHTI_bvglt1xArlG2uV4Z__610vXseRmnvWk"

def demoClaims : Jwt.Claims := ⟨7, "a@b.c", ["balance:read", "trader"], 87400, 1000, none⟩

def demoConfig : Config where
  jwtSecret := "k"
  signingSecret := "s"
  limits := ⟨100, 60⟩
  tokenOf text := if text = demoText then some ⟨"k", demoClaims⟩ else none
  sent path := path
  hmac := demoHmac
  production := true

def demoRoute (method path : String) : Target :=
  if path = "/csrf-token" then .csrfToken
  else if servedBy publicRoutes path then .unguarded
  else if method = "GET" then .guarded ["balance:read"]
  else .guarded ["intent:create"]

def demoRead : HttpRequest where
  method := "GET"
  path := "/balances/00000000-0000-0000-0000-000000000009"
  query := none
  headers := [("authorization", utf8 ("Bearer " ++ demoText))]
  body := some []

def demoWrite : HttpRequest where
  method := "POST"
  path := "/intents"
  query := none
  headers := [("authorization", utf8 ("Bearer " ++ demoText)), ("x-csrf-token", utf8 "t")]
  body := some [123, 125]

/-- Time 1000 s. -/
def demoMoment : Moment ℚ where
  micros := 1000000000
  limiterTime := 1000
  limiterFate := .served
  validateKey := none
  authTime := 1000000000
  timestamp := 1000
  fits := by decide
  nonce := 3
  times := ⟨1000, 1000, 1000, by decide +kernel, le_refl _, le_refl _⟩
  verifyTime := 1000000000
  secrets := ["k"]
  lookupServed := true
  csrfFate := .served
  deleteFate := .served
  csrfToken := "t"
  response := ⟨200, [], some []⟩

end Reads

/-! ## What never gets there -/

section Writes

variable {τ : Type} [Field τ] [LinearOrder τ] [FloorRing τ]

/-- The request gets to the platform under the path that it came with, or the platform would see that
it does not: it has the layer, the client brings no signature, and that of the gateway does not fit
the other path. -/
def Faithful (cfg : Config) (x : HttpRequest × Moment τ) : Prop :=
  cfg.sent x.1.path = x.1.path ∨
    cfg.production = true ∧ (∀ name ∈ signatureNames, x.1.headers.get name = none) ∧
      ∀ bytes, x.1.body = some bytes →
        Signing.computeSignature cfg.hmac cfg.signingSecret
            ⟨x.1.method, x.1.path, bytes, x.2.timestamp, uuidText x.2.nonce⟩ ≠
          Signing.computeSignature cfg.hmac cfg.signingSecret
            ⟨x.1.method, cfg.sent x.1.path, bytes, x.2.timestamp, uuidText x.2.nonce⟩

variable {cfg : Config} {s : State τ} {n : Moment τ} {r r' f g : HttpRequest} {h : Handled}
  {routeOf : String → String → Target} {nonces : Signing.Keys τ}

omit [FloorRing τ] in
theorem letThrough_new (e : Csrf.Event) : Csrf.letThrough Csrf.Site.new e = none := by
  cases hl : Csrf.letThrough Csrf.Site.new e with
  | none => rfl
  | some x =>
    obtain ⟨inst, fate, user, -, hf, -⟩ := Csrf.letThrough_some hl
    exact nomatch (Csrf.found_stored hf).2.2

omit [FloorRing τ] in
/-- Where no token is stored, none is used up. -/
theorem csrfSite_new (n : Moment τ) (r : HttpRequest) : csrfSite n Csrf.Site.new r = Csrf.Site.new := by
  have hfound : Csrf.found Csrf.Site.new 0 (csrfRequest r) n.csrfFate = none := by
    cases hf : Csrf.found Csrf.Site.new 0 (csrfRequest r) n.csrfFate with
    | none => rfl
    | some x => exact nomatch (Csrf.found_stored hf).2.2
  unfold csrfSite
  simp only [Csrf.step, hfound]
  rfl

omit [FloorRing τ] in
theorem safe_of_csrfPasses (h : csrfPasses n Csrf.Site.new g = true) : Csrf.safe g.method = true := by
  unfold csrfPasses at h
  rw [letThrough_new] at h
  simpa using h

/-- What the platform verifies of a faithful request has the method and the path that it came with. -/
theorem route_of_verify (hf : Faithful cfg (r, n)) (hg : (gateway cfg n s.redis r).1 = .next f)
    (hv : (verify cfg n nonces f).1 = .next g) : g.method = r.method ∧ g.path = r.path := by
  have hproxied : ∀ r', ((∀ name ∈ signatureNames, r.headers.get name = none) →
        ∀ name ∈ signatureNames, r'.headers.get name = none) →
      r'.method = r.method → r'.path = r.path → r'.body = r.body →
      proxyHandler cfg n.timestamp (uuidText n.nonce) r' = .next f → g.method = r.method ∧ g.path = r.path := by
    intro r' hunsigned hmethod hpath hbody hproxy
    obtain ⟨bytes, hbytes, hlen, rfl⟩ := proxyHandler_next.1 hproxy
    refine ⟨(verify_next hv).1.trans hmethod, (verify_next hv).2.1.trans ?_⟩
    show cfg.sent r'.path = r.path
    rw [hpath]
    rcases hf with hsent | ⟨hprod, hown, hne⟩
    · exact hsent
    · have heq := signature_of_verify hprod (hunsigned hown) hlen hv
      rw [hmethod, hpath] at heq
      exact absurd heq (hne bytes (hbody ▸ hbytes))
  rcases (gateway_next hg).2 with ⟨-, hproxy⟩ | ⟨-, r', hauth, hproxy⟩
  · exact hproxied r (fun hown => hown) rfl rfl rfl hproxy
  · obtain ⟨hmethod, hpath, hbody, -⟩ := validateAuth_keeps hauth (by decide : "authorization" ∉ authNames)
    exact hproxied r' (unsigned_of_validateAuth hauth) hmethod hpath hbody hproxy

omit [FloorRing τ] in
theorem site_protectedRoute (cfg : Config) (n : Moment τ) (permissions : List String) (s : State τ)
    (g : HttpRequest) (hs : s.site = .new) : (protectedRoute cfg n permissions s g).2.site = .new := by
  unfold protectedRoute
  cases requireAuth cfg n.secrets n.verifyTime g with
  | answered status message => exact hs
  | panicked => exact hs
  | next claims =>
    cases replay s.rows n.lookupServed g with
    | some answer => exact hs
    | none =>
      show csrfSite n s.site g = .new
      rw [hs]
      exact csrfSite_new n g

/-- No token is stored as long as the platform stores none but on the path that the gateway does not
serve. -/
theorem site_serve (hroute : ∀ method path, routeOf method path = .csrfToken → path = "/csrf-token")
    (hf : Faithful cfg (r, n)) (hs : s.site = .new) : (serve cfg routeOf s (r, n)).site = .new := by
  unfold serve
  dsimp only
  rcases hg : gateway cfg n s.redis r with ⟨v, redis⟩
  cases v with
  | answered status message => exact hs
  | panicked => exact hs
  | next f =>
    dsimp only
    unfold platform
    dsimp only
    rcases hv : verify cfg n s.nonces f with ⟨v, nonces⟩
    cases v with
    | answered status message => exact hs
    | panicked => exact hs
    | next g =>
      dsimp only
      obtain ⟨-, hpath⟩ := route_of_verify hf (congrArg Prod.fst hg) (congrArg Prod.fst hv)
      cases ht : routeOf g.method g.path with
      | guarded permissions =>
        have hkeep := site_protectedRoute cfg n permissions { s with redis, nonces } g hs
        dsimp only at hkeep ⊢
        generalize protectedRoute cfg n permissions _ g = p at hkeep ⊢
        obtain ⟨v, s'⟩ := p
        cases v with
        | next h => exact hkeep
        | answered status message => exact hkeep
        | panicked => exact hkeep
      | csrfToken =>
        have hcsrf : r.path = "/csrf-token" := hpath.symm.trans (hroute _ _ ht)
        rcases (gateway_next (congrArg Prod.fst hg)).2 with ⟨hserves, -⟩ | ⟨hserves, -⟩
        · rw [hcsrf] at hserves
          exact absurd hserves (by decide +kernel)
        · rw [hcsrf] at hserves
          exact absurd hserves (by decide +kernel)
      | admin => exact hs
      | unguarded => exact hs

/-- Without a stored token, only a read gets to a handler. -/
theorem read_of_arrive (hf : Faithful cfg (r, n)) (hs : s.site = .new)
    (ha : arrive routeOf cfg s (r, n) = .next h) : h.request.method = "GET" ∨ h.request.method = "HEAD" := by
  obtain ⟨f, hg, ha⟩ := bind_next ha
  obtain ⟨g, hv, ha⟩ := bind_next ha
  obtain ⟨permissions, -, ha⟩ := (enter_next routeOf).1 ha
  obtain ⟨claims, -, -, hcsrf, -, rfl⟩ := protectedRoute_next.1 ha
  rw [hs] at hcsrf
  have hsafe := safe_of_csrfPasses hcsrf
  have hoptions : g.method ≠ "OPTIONS" := by
    rw [(route_of_verify hf hg hv).1]
    exact (gateway_next hg).1
  simp only [Csrf.safe, Bool.or_eq_true, beq_iff_eq] at hsafe
  exact hsafe.resolve_right hoptions

/-- What gets to a handler carries a token that both accept, unless it came by a public route. -/
theorem token_of_arrive (hf : Faithful cfg (r, n))
    (hpublic : ∀ method path permissions, routeOf method path = .guarded permissions →
      servedBy publicRoutes path = false)
    (ha : arrive routeOf cfg s (r, n) = .next h) :
    ∃ text tok, bearer r = some text ∧ cfg.tokenOf text = some tok ∧ tok.claims = h.claims ∧
      tok.secret = cfg.jwtSecret ∧ tok.secret ∈ n.secrets := by
  obtain ⟨f, hg, ha⟩ := bind_next ha
  obtain ⟨g, hv, ha⟩ := bind_next ha
  obtain ⟨permissions, hguard, ha⟩ := (enter_next routeOf).1 ha
  obtain ⟨claims, hauth, -, -, -, rfl⟩ := protectedRoute_next.1 ha
  obtain ⟨text, tok, hb, htok, hmem, -, rfl⟩ := requireAuth_next.1 hauth
  have hpath := (route_of_verify hf hg hv).2
  rcases (gateway_next hg).2 with ⟨hpub, -⟩ | ⟨-, r', hvalid, hproxy⟩
  · rw [← hpath, hpublic _ _ _ hguard] at hpub
    exact nomatch hpub
  · obtain ⟨bytes, -, -, rfl⟩ := proxyHandler_next.1 hproxy
    have hbearer : bearer g = bearer r := by
      refine bearer_of_get ?_
      rw [(verify_next hv).2.2, get_forwarded (by decide) (by decide)]
      exact (validateAuth_keeps hvalid (by decide)).2.2.2
    rw [hbearer] at hb
    obtain ⟨tok', v, htok', hs, -, -, -⟩ := (validateAuth_token hb).1 hvalid
    obtain rfl := Option.some.inj (htok.symm.trans htok')
    exact ⟨text, tok, hb, htok, rfl, hs, hmem⟩

/-- **No request that writes ever gets to a protected handler**: the token that it needs is issued
on a path that the gateway does not serve. -/
theorem no_write_handled
    (hroute : ∀ method path, routeOf method path = .csrfToken → path = "/csrf-token")
    {xs : List (HttpRequest × Moment τ)} (hxs : ∀ x ∈ xs, Faithful cfg x) :
    ∀ h ∈ (run (serve cfg routeOf) .new xs).handled, h.request.method = "GET" ∨ h.request.method = "HEAD" := by
  have hinv : (run (serve cfg routeOf) .new xs).site = .new ∧
      ∀ h ∈ (run (serve cfg routeOf) .new xs).handled, h.request.method = "GET" ∨ h.request.method = "HEAD" := by
    refine run_keeps (I := fun s : State τ => s.site = .new ∧
      ∀ h ∈ s.handled, h.request.method = "GET" ∨ h.request.method = "HEAD") ?_ ⟨rfl, nofun⟩
      (each_of_forall hxs)
    rintro s ⟨r, n⟩ ⟨hs, hhandled⟩ hf
    refine ⟨site_serve hroute hf hs, fun h hh => ?_⟩
    rw [handled_serve] at hh
    rcases List.mem_append.1 hh with hh | hh
    · cases ha : arrive routeOf cfg s (r, n) with
      | next h' =>
        rw [ha] at hh
        obtain rfl := List.mem_singleton.1 hh
        exact read_of_arrive hf hs ha
      | answered status message =>
        rw [ha] at hh
        exact nomatch hh
      | panicked =>
        rw [ha] at hh
        exact nomatch hh
    · exact hhandled h hh
  exact hinv.2

/-- A read and a write with one token: the write is not handled. -/
theorem no_write_demo : ((run (serve demoConfig demoRoute) .new
    [(demoRead, demoMoment), (demoWrite, { demoMoment with nonce := 4 })]).handled.all
      fun h => h.request.method = "GET" ∨ h.request.method = "HEAD") = true := by
  refine List.all_eq_true.2 fun h hh => decide_eq_true ?_
  refine no_write_handled (fun method path h => ?_) (fun x hx => ?_) h hh
  · unfold demoRoute at h
    split at h
    · assumption
    · split at h
      · exact nomatch h
      · split at h <;> exact nomatch h
  · simp only [List.mem_cons, List.not_mem_nil, or_false] at hx
    rcases hx with rfl | rfl <;> exact .inl rfl

end Writes

end IntentX.Gateway
