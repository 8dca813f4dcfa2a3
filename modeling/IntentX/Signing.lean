import IntentX.Basic
import IntentX.Lib.Machine
import IntentX.Lib.Text
import Mathlib.Data.Rat.Floor
import Mathlib.Tactic.Linarith

/-!
# Signed requests and their nonces

`VerifySignatureService::call` lets a request through once its timestamp is at most 30 s away, its
nonce is not stored in Redis, and its signature is right.  The nonce is stored for 60 s from the
first use on, which is meant to outlast every timestamp that is still young.

The clock is cut to whole seconds, so a request is young until 31 s after its timestamp, and a nonce
that was stored 30 s before the timestamp is gone by then; and the age is checked before the wait
for the connection.  A request is let through at most once if and only if every young repetition is
looked up less than 60 s after its nonce was last stored; looking it up less than 30 s after the
timestamp, of the clock as it is, is enough (`let_through_once_iff`).
-/

namespace IntentX.Signing

open Lib Machine

def maxAgeSecs : Int := 30

def nonceTtlSecs : Nat := 60

def noncePrefix : String := "nonce:"

/-- The part of a request that is signed, as it reaches the inner service. -/
structure Signed where
  method : String
  path : String
  body : List UInt8
  timestamp : Int
  nonce : String
  deriving Repr, DecidableEq

/-- A header is missing, or its text; a body that breaks off is missing too. -/
structure Request where
  method : String
  path : String
  signature : Option String
  timestamp : Option String
  nonce : Option String
  body : Option (List UInt8)
  deriving Repr, DecidableEq

/-- A body that breaks off or is too long is read as empty. -/
def Request.bodyBytes (r : Request) : List UInt8 :=
  (r.body.filter fun bytes => bytes.length ≤ 10 * 1024 * 1024).getD []

inductive Answer
  | refused (status : Nat) (message : String)
  | inner (request : Signed)
  deriving Repr, DecidableEq

/-- `i64::abs`, which leaves the least number as it is. -/
def absI64 (x : Int) : Int := wrapI64 |x|

def tooOld (now timestamp : Int) : Prop := absI64 (wrapI64 (now - timestamp)) > maxAgeSecs

instance (now timestamp : Int) : Decidable (tooOld now timestamp) :=
  inferInstanceAs (Decidable (_ > _))

def nonceKey (nonce : String) : String := noncePrefix ++ nonce

/-- `hmac` is HMAC-SHA256, of a key and a message. -/
def computeSignature (hmac : List UInt8 → List UInt8 → List UInt8) (secret : String) (x : Signed) :
    String :=
  let bar := "|".toUTF8.toList
  let message := x.method.toUTF8.toList ++ bar ++ x.path.toUTF8.toList ++ bar ++ x.body ++ bar ++
    (toString x.timestamp).toUTF8.toList ++ bar ++ x.nonce.toUTF8.toList
  String.ofList (Text.hexEncode (hmac secret.toUTF8.toList message))

/-! ## The verifier -/

section Verifier

variable {τ : Type} [Field τ] [LinearOrder τ] [FloorRing τ]
variable (hmac : List UInt8 → List UInt8 → List UInt8) (secret : String)

/-- A request with the times at which the clock is read, the nonce is looked up and it is stored.
The connection is locked from the lookup to the storing. -/
structure Arrival (τ : Type) [Field τ] [LinearOrder τ] where
  request : Request
  arrived : τ
  looked : τ
  stored : τ
  /-- the clock does not read times before 1970 -/
  nonneg : 0 ≤ arrived
  looks : arrived ≤ looked
  stores : looked ≤ stored

/-- When each key was last stored. -/
abbrev Keys (τ : Type) := String → Option τ

/-- The key was stored, and `NONCE_TTL_SECS` have not passed since. -/
def Keys.Alive (keys : Keys τ) (key : String) (t : τ) : Prop :=
  ∃ u ∈ keys key, t < u + nonceTtlSecs

instance (keys : Keys τ) (key : String) (t : τ) : Decidable (keys.Alive key t) :=
  inferInstanceAs (Decidable (∃ u ∈ keys key, _))

def Keys.setEx (keys : Keys τ) (key : String) (t : τ) : Keys τ :=
  fun k => if k = key then some t else keys k

/-- `VerifySignatureService::call`, up to the call of the inner service. -/
def call (a : Arrival τ) (keys : Keys τ) : Answer × Keys τ :=
  match a.request.signature, a.request.timestamp, a.request.nonce with
  | some signature, some timestampStr, some nonce =>
    match Text.parseSigned 64 timestampStr.toList with
    | none => (.refused 400 "Invalid timestamp", keys)
    | some timestamp =>
      if tooOld ⌊a.arrived⌋ timestamp then (.refused 401 "Request too old", keys)
      else if keys.Alive (nonceKey nonce) a.looked then (.refused 401 "Nonce already used", keys)
      else
        let keys := keys.setEx (nonceKey nonce) a.stored
        let x : Signed :=
          ⟨a.request.method, a.request.path, a.request.bodyBytes, timestamp, nonce⟩
        if signature ≠ computeSignature hmac secret x then (.refused 401 "Invalid signature", keys)
        else (.inner x, keys)
  | _, _, _ => (.refused 401 "Missing signature headers", keys)

/-- The arrival carries the request, with the right signature. -/
structure Presents (a : Arrival τ) (x : Signed) : Prop where
  signature : a.request.signature = some (computeSignature hmac secret x)
  timestamp : (a.request.timestamp.bind fun t => Text.parseSigned 64 t.toList) = some x.timestamp
  nonce : a.request.nonce = some x.nonce
  method : a.request.method = x.method
  path : a.request.path = x.path
  body : a.request.bodyBytes = x.body

variable {hmac secret}

theorem call_of_headers {a : Arrival τ} {keys : Keys τ} {signature timestampStr nonce : String}
    {timestamp : Int} (hs : a.request.signature = some signature)
    (ht : a.request.timestamp = some timestampStr) (hn : a.request.nonce = some nonce)
    (hp : Text.parseSigned 64 timestampStr.toList = some timestamp) :
    call hmac secret a keys =
      if tooOld ⌊a.arrived⌋ timestamp then (.refused 401 "Request too old", keys)
      else if keys.Alive (nonceKey nonce) a.looked then (.refused 401 "Nonce already used", keys)
      else if signature ≠ computeSignature hmac secret
          ⟨a.request.method, a.request.path, a.request.bodyBytes, timestamp, nonce⟩ then
        (.refused 401 "Invalid signature", keys.setEx (nonceKey nonce) a.stored)
      else (.inner ⟨a.request.method, a.request.path, a.request.bodyBytes, timestamp, nonce⟩,
        keys.setEx (nonceKey nonce) a.stored) := by
  simp only [call, hs, ht, hn, hp]

/-- Everything `call` can do: refuse and leave the keys alone, or store the nonce of a request that
is not too old and has no stored nonce, and let it through if its signature is right. -/
theorem call_cases (hmac : List UInt8 → List UInt8 → List UInt8) (secret : String) (a : Arrival τ)
    (keys : Keys τ) :
    (∃ status message, call hmac secret a keys = (.refused status message, keys)) ∨
    ∃ nonce, (call hmac secret a keys).2 = keys.setEx (nonceKey nonce) a.stored ∧
      ∀ x, (call hmac secret a keys).1 = .inner x →
        x.nonce = nonce ∧ Presents hmac secret a x ∧ ¬ tooOld ⌊a.arrived⌋ x.timestamp ∧
          ¬ keys.Alive (nonceKey x.nonce) a.looked := by
  rcases hs : a.request.signature with _ | signature
  · exact .inl ⟨_, _, by simp only [call, hs]; rfl⟩
  rcases ht : a.request.timestamp with _ | timestampStr
  · exact .inl ⟨_, _, by simp only [call, hs, ht]; rfl⟩
  rcases hn : a.request.nonce with _ | nonce
  · exact .inl ⟨_, _, by simp only [call, hs, ht, hn]; rfl⟩
  rcases hp : Text.parseSigned 64 timestampStr.toList with _ | timestamp
  · exact .inl ⟨_, _, by simp only [call, hs, ht, hn, hp]; rfl⟩
  rw [call_of_headers hs ht hn hp]
  by_cases hold : tooOld ⌊a.arrived⌋ timestamp
  · exact .inl ⟨_, _, by rw [if_pos hold]⟩
  rw [if_neg hold]
  by_cases halive : keys.Alive (nonceKey nonce) a.looked
  · exact .inl ⟨_, _, by rw [if_pos halive]⟩
  rw [if_neg halive]
  refine .inr ⟨nonce, ?_⟩
  by_cases hsig : signature = computeSignature hmac secret
      ⟨a.request.method, a.request.path, a.request.bodyBytes, timestamp, nonce⟩
  · rw [if_neg (not_not.2 hsig)]
    refine ⟨rfl, fun x hx => ?_⟩
    obtain rfl := Answer.inner.inj hx
    refine ⟨rfl, ⟨by rw [hs, hsig], ?_, hn, rfl, rfl, rfl⟩, hold, halive⟩
    rw [ht]
    exact hp
  · rw [if_pos hsig]
    exact ⟨rfl, nofun⟩

theorem call_inner {a : Arrival τ} {keys : Keys τ} {x : Signed} :
    (call hmac secret a keys).1 = .inner x ↔
      Presents hmac secret a x ∧ ¬ tooOld ⌊a.arrived⌋ x.timestamp ∧
        ¬ keys.Alive (nonceKey x.nonce) a.looked := by
  constructor
  · intro h
    rcases call_cases hmac secret a keys with ⟨status, message, he⟩ |
      ⟨nonce, -, hall⟩
    · rw [he] at h
      exact nomatch h
    · exact (hall x h).2
  · rintro ⟨⟨hs, ht, hn, hm, hpath, hbody⟩, hold, halive⟩
    obtain ⟨timestampStr, hts, hp⟩ := Option.bind_eq_some_iff.1 ht
    have hx : (⟨a.request.method, a.request.path, a.request.bodyBytes, x.timestamp, x.nonce⟩ :
        Signed) = x := by rw [hm, hpath, hbody]
    rw [call_of_headers hs hts hn hp, if_neg hold, if_neg halive, hx, if_neg (not_not.2 rfl)]

/-! ## Runs -/

variable (hmac secret)

/-- The keys in Redis beside what was let through so far, the latest first, and the time at which the
connection was last unlocked. -/
structure Trail (τ : Type) where
  keys : Keys τ
  delivered : List Signed
  now : τ

def Trail.new : Trail τ := ⟨fun _ => none, [], 0⟩

def serve (s : Trail τ) (a : Arrival τ) : Trail τ where
  keys := (call hmac secret a s.keys).2
  delivered :=
    match (call hmac secret a s.keys).1 with
    | .inner x => x :: s.delivered
    | .refused _ _ => s.delivered
  now := a.stored

/-- One request at a time holds the connection. -/
def Locked (s : Trail τ) (a : Arrival τ) : Prop := s.now ≤ a.looked

instance (s : Trail τ) (a : Arrival τ) : Decidable (Locked s a) :=
  inferInstanceAs (Decidable (_ ≤ _))

/-- A young repetition is looked up less than 60 s after its nonce was last stored. -/
def InTime (s : Trail τ) (a : Arrival τ) : Prop :=
  ∀ x ∈ s.delivered, Presents hmac secret a x → ¬ tooOld ⌊a.arrived⌋ x.timestamp →
    ∀ u ∈ s.keys (nonceKey x.nonce), a.looked < u + 60

/-- A repetition is looked up less than 30 s after its timestamp. -/
def Early (s : Trail τ) (a : Arrival τ) : Prop :=
  ∀ x ∈ s.delivered, Presents hmac secret a x → a.looked < x.timestamp + 30

/-- The nonce of a request that was let through is stored since 30 s before its timestamp or later. -/
def Trail.Kept (s : Trail τ) : Prop :=
  ∀ x ∈ s.delivered, ∃ u ∈ s.keys (nonceKey x.nonce), (x.timestamp : τ) - 30 ≤ u ∧ u ≤ s.now

theorem le_of_not_tooOld {now timestamp : Int} (hnow : 0 ≤ now) (hts : timestamp < 2 ^ 63)
    (h : ¬ tooOld now timestamp) : timestamp - 30 ≤ now := by
  by_contra hlt
  have hr : -2 ^ 63 ≤ now - timestamp ∧ now - timestamp < 2 ^ 63 := by omega
  have habs : |now - timestamp| = timestamp - now := by
    rw [abs_sub_comm]
    exact abs_of_nonneg (by omega)
  apply h
  unfold tooOld absI64 maxAgeSecs
  rw [wrapI64_of_inI64 hr, habs, wrapI64_of_inI64 (by omega)]
  omega

variable {hmac secret}

theorem mem_serve {s : Trail τ} {a : Arrival τ} {y : Signed}
    (h : y ∈ (serve hmac secret s a).delivered) :
    (call hmac secret a s.keys).1 = .inner y ∨ y ∈ s.delivered := by
  simp only [serve] at h
  split at h
  · next x hx =>
    rcases List.mem_cons.1 h with rfl | h
    · exact .inl hx
    · exact .inr h
  · exact .inr h

/-- Everything is let through at most once if and only if no step lets something through again. -/
theorem nodup_run_iff {s : Trail τ} {as : List (Arrival τ)} :
    (run (serve hmac secret) s as).delivered.Nodup ↔
      s.delivered.Nodup ∧ Each (serve hmac secret) (fun s a =>
        ∀ x, (call hmac secret a s.keys).1 = .inner x → x ∉ s.delivered) s as := by
  induction as generalizing s with
  | nil => simp [Each]
  | cons a as ih =>
    rw [run_cons, ih, Each, ← and_assoc]
    refine and_congr_left fun _ => ?_
    rcases hc : (call hmac secret a s.keys).1 with ⟨status, message⟩ | x
    · simp [serve, hc]
    · simp [serve, hc, and_comm]

theorem inTime_iff {s : Trail τ} {a : Arrival τ} (h : s.Kept) :
    (∀ x, (call hmac secret a s.keys).1 = .inner x → x ∉ s.delivered) ↔ InTime hmac secret s a := by
  constructor
  · intro hnew x hx hp hold u hu
    have halive : s.keys.Alive (nonceKey x.nonce) a.looked := by
      by_contra hdead
      exact hnew x (call_inner.2 ⟨hp, hold, hdead⟩) hx
    obtain ⟨v, hv, hlt⟩ := halive
    obtain rfl : u = v := Option.some.inj (hu.symm.trans hv)
    exact_mod_cast hlt
  · intro hin x hx hmem
    obtain ⟨hp, hold, hdead⟩ := call_inner.1 hx
    obtain ⟨u, hu, -, -⟩ := h x hmem
    exact hdead ⟨u, hu, by exact_mod_cast hin x hmem hp hold u hu⟩

variable [IsStrictOrderedRing τ]

theorem stored_of_inner {a : Arrival τ} {keys : Keys τ} {x : Signed}
    (h : (call hmac secret a keys).1 = .inner x) : (x.timestamp : τ) - 30 ≤ a.stored := by
  obtain ⟨hp, hold, -⟩ := call_inner.1 h
  obtain ⟨t, -, ht⟩ := Option.bind_eq_some_iff.1 hp.timestamp
  have hle := le_of_not_tooOld (Int.floor_nonneg.2 a.nonneg) (Text.parseSigned_lt ht) hold
  have hcast : ((x.timestamp - 30 : Int) : τ) ≤ (⌊a.arrived⌋ : τ) := Int.cast_le.2 hle
  have hfloor : (⌊a.arrived⌋ : τ) ≤ a.arrived := Int.floor_le a.arrived
  have hlooks := a.looks
  have hstores := a.stores
  push_cast at hcast
  linarith

theorem kept_serve {s : Trail τ} {a : Arrival τ} (h : s.Kept) (hl : Locked s a) :
    (serve hmac secret s a).Kept := by
  have hnow : s.now ≤ a.stored := le_trans hl a.stores
  intro y hy
  have hy := mem_serve hy
  show ∃ u ∈ (call hmac secret a s.keys).2 (nonceKey y.nonce),
    (y.timestamp : τ) - 30 ≤ u ∧ u ≤ a.stored
  rcases call_cases hmac secret a s.keys with ⟨status, message, he⟩ | ⟨nonce, hkeys, hall⟩
  · rw [he] at hy ⊢
    obtain ⟨u, hu, hlo, hhi⟩ := h y (hy.resolve_left nofun)
    exact ⟨u, hu, hlo, hhi.trans hnow⟩
  · rw [hkeys]
    by_cases hk : nonceKey y.nonce = nonceKey nonce
    · refine ⟨a.stored, by simp [Keys.setEx, hk], ?_, le_refl _⟩
      rcases hy with hy | hy
      · exact stored_of_inner hy
      · obtain ⟨u, -, hlo, hhi⟩ := h y hy
        exact hlo.trans (hhi.trans hnow)
    · have hy : y ∈ s.delivered := hy.resolve_left fun hin => hk (by rw [(hall y hin).1])
      obtain ⟨u, hu, hlo, hhi⟩ := h y hy
      exact ⟨u, by simpa [Keys.setEx, hk] using hu, hlo, hhi.trans hnow⟩

theorem inTime_of_early {s : Trail τ} {a : Arrival τ} (h : s.Kept) (he : Early hmac secret s a) :
    InTime hmac secret s a := by
  intro x hx hp _ u hu
  obtain ⟨v, hv, hlo, -⟩ := h x hx
  obtain rfl : u = v := Option.some.inj (hu.symm.trans hv)
  have hlt := he x hx hp
  linarith

/-- Whatever requests come, and whenever, each is let through at most once if and only if its young
repetitions are looked up while its nonce is stored.  They are if they are looked up less than 30 s
after their timestamp. -/
theorem let_through_once_iff {as : List (Arrival τ)}
    (hlock : Each (serve hmac secret) Locked .new as) :
    ((run (serve hmac secret) .new as).delivered.Nodup ↔
      Each (serve hmac secret) (InTime hmac secret) .new as) ∧
    (Each (serve hmac secret) (Early hmac secret) .new as →
      (run (serve hmac secret) .new as).delivered.Nodup) := by
  have hnew : (Trail.new : Trail τ).Kept := nofun
  have hiff : (run (serve hmac secret) .new as).delivered.Nodup ↔
      Each (serve hmac secret) (InTime hmac secret) .new as := by
    rw [nodup_run_iff]
    refine (and_iff_right List.nodup_nil).trans ?_
    exact each_iff_of_keeps (I := Trail.Kept) (fun _ _ h hl _ => kept_serve h hl)
      (fun _ _ h _ => inTime_iff h) hnew hlock
  refine ⟨hiff, fun hearly => hiff.2 ?_⟩
  exact each_of_keeps (I := Trail.Kept) (fun _ _ h hc => kept_serve h hc.1)
    (fun _ _ h hc => inTime_of_early h hc.2) hnew (hlock.and hearly)

end Verifier

/-! ### One request, sent twice -/

/-- HMAC-SHA256 under the key `secret`, at the message `POST|/intents|{}|1000|n1`. -/
def demoHmac (_ _ : List UInt8) : List UInt8 :=
  [248, 103, 156, 221, 84, 223, 9, 128, 134, 71, 132, 199, 136, 40, 66, 168,
    31, 43, 26, 191, 186, 28, 241, 254, 139, 94, 218, 21, 77, 110, 242, 140]

def demoRequest : Request where
  method := "POST"
  path := "/intents"
  signature := some "f8679cdd54df0980864784c7882842a81f2b1abfba1cf1fe8b5eda154d6ef28c"
  timestamp := some "1000"
  nonce := some "n1"
  body := some [123, 125]

def demoSigned : Signed := ⟨"POST", "/intents", [123, 125], 1000, "n1"⟩

def demoArrival (t : ℚ) (ht : 0 ≤ t) : Arrival ℚ := ⟨demoRequest, t, t, t, ht, le_refl t, le_refl t⟩

/-- Sent 30 s ahead of its timestamp and again 60.5 s later, the request is let through twice. -/
theorem let_through_twice :
    Each (serve demoHmac "secret") Locked .new
      [demoArrival 970 (by decide), demoArrival (2061 / 2) (by decide +kernel)] ∧
    ¬ (run (serve demoHmac "secret") .new
      [demoArrival 970 (by decide), demoArrival (2061 / 2) (by decide +kernel)]).delivered.Nodup := by
  decide +kernel

/-- Sent again 59.5 s later, it is refused. -/
theorem let_through_once_in_time :
    (run (serve demoHmac "secret") .new
      [demoArrival 970 (by decide), demoArrival (2059 / 2) (by decide +kernel)]).delivered.Nodup := by
  have hd : (serve demoHmac "secret" .new (demoArrival 970 (by decide))).delivered =
      [demoSigned] := by decide +kernel
  have hearly : Each (serve demoHmac "secret") (Early demoHmac "secret") .new
      [demoArrival 970 (by decide), demoArrival (2059 / 2) (by decide +kernel)] := by
    refine ⟨fun x hx => (nomatch hx), fun x hx _ => ?_, trivial⟩
    rw [hd] at hx
    obtain rfl := List.mem_singleton.1 hx
    show (2059 / 2 : ℚ) < 1000 + 30
    norm_num
  exact (let_through_once_iff (by decide +kernel)).2 hearly

end IntentX.Signing
