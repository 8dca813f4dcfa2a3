import IntentX.Basic
import IntentX.Lib.Machine
import IntentX.Lib.Text
import Mathlib.Tactic.Ring

/-!
# The rate limiter of the gateway

`RateLimiter::check` drops what is out of the window from a sorted set, counts the rest, adds the
request, and refuses it if the count has reached the limit.  The four commands go to Redis as one
atomic pipeline, of which three are marked `ignore`, so their replies are left out of the result and
the count comes first.  The code looks for it in second place, finds nothing there, and goes on with
zero (`countOf_replies`).

So a request is let through whenever Redis answers it and its limit is not zero (`passed_run`), and
the limit holds if and only if the requests keep it by themselves (`rate_bounded_iff`).
-/

namespace IntentX.RateLimit

open Lib Machine

structure Config where
  rateLimitPerMinute : UInt64
  rateLimitWindowSecs : UInt64
  deriving Repr, DecidableEq

structure RouteLimit where
  maxRequests : UInt64
  windowSecs : UInt64
  deriving Repr, DecidableEq

def startsWith (path start : String) : Bool := start.toList.isPrefixOf path.toList

def routeLimit (cfg : Config) (path : String) : RouteLimit :=
  if startsWith path "/intents" || startsWith path "/bids" then ⟨30, 60⟩
  else if startsWith path "/balances/deposit" || startsWith path "/balances/withdraw" then ⟨10, 60⟩
  else if startsWith path "/auth/" then ⟨5, 60⟩
  else ⟨cfg.rateLimitPerMinute, cfg.rateLimitWindowSecs⟩

/-- A header is missing, or its text. -/
structure Request where
  path : String
  xUserId : Option String
  xApiKey : Option String
  xForwardedFor : Option String
  deriving Repr, DecidableEq

def extractIdentity (req : Request) : String :=
  match req.xUserId with
  | some uid => uid
  | none =>
    match req.xApiKey with
    | some key => key
    | none => req.xForwardedFor.getD "unknown"

/-- The first two parts of the path between slashes, joined by one. -/
def routePrefix (route : String) : String :=
  String.intercalate "/" (((route.toList.splitOn '/').take 2).map String.ofList)

def limitKey (identity route : String) : String :=
  "rate_limit:" ++ identity ++ ":" ++ routePrefix route

/-! ## Redis -/

/-- The members of a sorted set with their scores, and when the key expires. -/
structure ZSet where
  members : List (Int × Int)
  expiresAt : Option Int
  deriving Repr, DecidableEq

abbrev Redis := String → ZSet

/-- The set as it is at a time, in seconds; a key that has expired is gone. -/
def Redis.at (redis : Redis) (t : Int) (key : String) : ZSet :=
  if ∃ e ∈ (redis key).expiresAt, e ≤ t then ⟨[], none⟩ else redis key

inductive Cmd
  | zremrangebyscore (key : String) (top : Int)
  | zcard (key : String)
  | zadd (key : String) (score member : Int)
  | expire (key : String) (secs : UInt64)
  | zrem (key : String) (member : Int)
  deriving Repr, DecidableEq

inductive Value
  | int (n : Int)
  | nil
  deriving Repr, DecidableEq

def Redis.set (redis : Redis) (key : String) (z : ZSet) : Redis :=
  fun k => if k = key then z else redis k

/-- A command at a time; a set holds one entry for each member. -/
def Cmd.exec (t : Int) (redis : Redis) : Cmd → Value × Redis
  | .zremrangebyscore key top =>
    let z := redis.at t key
    let kept := z.members.filter fun m => top < m.2
    (.int (z.members.length - kept.length), redis.set key { z with members := kept })
  | .zcard key => (.int (redis.at t key).members.length, redis)
  | .zadd key score member =>
    let z := redis.at t key
    let others := z.members.filter fun m => m.1 ≠ member
    (.int (1 - (z.members.length - others.length)),
      redis.set key { z with members := (member, score) :: others })
  | .expire key secs =>
    (.int 1, redis.set key
      (if secs = 0 then ⟨[], none⟩ else { redis.at t key with expiresAt := some (t + secs.toNat) }))
  | .zrem key member =>
    let z := redis.at t key
    let others := z.members.filter fun m => m.1 ≠ member
    (.int (z.members.length - others.length), redis.set key { z with members := others })

/-- An atomic pipeline.  The replies of the commands marked `ignore` are left out. -/
def pipeline (t : Int) : List (Cmd × Bool) → Redis → List Value × Redis
  | [], redis => ([], redis)
  | (cmd, ignored) :: cmds, redis =>
    let (value, redis) := cmd.exec t redis
    let (values, redis) := pipeline t cmds redis
    (if ignored then values else value :: values, redis)

/-! ## The check -/

structure RateLimitResult where
  limit : UInt64
  remaining : UInt64
  resetSecs : UInt64
  deriving Repr, DecidableEq

/-- Remove old, count, add new, expire. -/
def commands (key : String) (limit : RouteLimit) (nowMicros : Int) : List (Cmd × Bool) :=
  let windowStart := wrapI64 (nowMicros - wrapI64 (asI64 limit.windowSecs * 1000000))
  [(.zremrangebyscore key windowStart, true), (.zcard key, false),
    (.zadd key nowMicros nowMicros, true), (.expire key (limit.windowSecs * 2), true)]

/-- `[_, redis::Value::Int(n), ..] => *n as u64, _ => 0` -/
def countOf : List Value → UInt64
  | _ :: .int n :: _ => UInt64.ofInt n
  | _ => 0

/-- The part of `check` up to the decision; the removal that follows a refusal is a command of its
own.  `t` is the time at which Redis serves the pipeline, and `fate` says whether it does and whether
the answer comes back. -/
def check (identity route : String) (limit : RouteLimit) (nowMicros t : Int) (fate : Fate)
    (redis : Redis) : Except Nat RateLimitResult × Redis :=
  let (results, served) := pipeline t (commands (limitKey identity route) limit nowMicros) redis
  match fate with
  | .refused => (.error 500, redis)
  | .lost => (.error 500, served)
  | .served =>
    let count := countOf results
    if count ≥ limit.maxRequests then (.error 429, served)
    else (.ok ⟨limit.maxRequests, limit.maxRequests - count - 1, limit.windowSecs⟩, served)

/-- The count is the only reply of the pipeline, and is not found. -/
theorem countOf_replies (t : Int) (key : String) (limit : RouteLimit) (nowMicros : Int)
    (redis : Redis) : countOf (pipeline t (commands key limit nowMicros) redis).1 = 0 := rfl

/-- A request is let through whatever the count is. -/
theorem check_ok {limit : RouteLimit} (h : 0 < limit.maxRequests) (identity route : String)
    (nowMicros t : Int) (redis : Redis) :
    ∃ r, (check identity route limit nowMicros t .served redis).1 = .ok r := by
  have hno : ¬ countOf (pipeline t (commands (limitKey identity route) limit nowMicros) redis).1 ≥
      limit.maxRequests := by
    rw [countOf_replies]
    exact UInt64.not_le.2 h
  simp only [check, if_neg hno]
  exact ⟨_, rfl⟩

theorem check_error {limit : RouteLimit} {fate : Fate}
    (h : fate = .served → ¬ 0 < limit.maxRequests) (identity route : String) (nowMicros t : Int)
    (redis : Redis) :
    ∃ status, (check identity route limit nowMicros t fate redis).1 = .error status := by
  cases fate with
  | refused => exact ⟨500, rfl⟩
  | lost => exact ⟨500, rfl⟩
  | served =>
    have hno : countOf (pipeline t (commands (limitKey identity route) limit nowMicros) redis).1 ≥
        limit.maxRequests := by
      rw [countOf_replies]
      exact UInt64.not_lt.1 (h rfl)
    simp only [check, if_pos hno]
    exact ⟨_, rfl⟩

/-- What the service does with a request. -/
inductive Outcome
  | inner (headers : List (String × Nat))
  | refused (status : Nat) (headers : List (String × Nat))
  deriving Repr, DecidableEq

/-- `RateLimitService::call`, up to the call of the inner service; the headers that go with an answer
of the inner service are those of `inner`. -/
def call (cfg : Config) (req : Request) (nowMicros t : Int) (fate : Fate) (redis : Redis) :
    Outcome × Redis :=
  let limit := routeLimit cfg req.path
  match check (extractIdentity req) req.path limit nowMicros t fate redis with
  | (.ok r, redis) =>
    (.inner [("x-ratelimit-limit", r.limit.toNat), ("x-ratelimit-remaining", r.remaining.toNat),
      ("x-ratelimit-reset", r.resetSecs.toNat)], redis)
  | (.error status, redis) =>
    (.refused status [("x-ratelimit-limit", limit.maxRequests.toNat), ("x-ratelimit-remaining", 0),
      ("x-ratelimit-reset", limit.windowSecs.toNat), ("retry-after", limit.windowSecs.toNat)], redis)

/-! ## Runs -/

/-- A request as the limiter sees it: whose it is, where it goes and when it came. -/
structure Visit where
  identity : String
  route : String
  limit : RouteLimit
  micros : Int
  deriving Repr, DecidableEq

def Request.visit (cfg : Config) (req : Request) (nowMicros : Int) : Visit :=
  ⟨extractIdentity req, routePrefix req.path, routeLimit cfg req.path, nowMicros⟩

inductive Event
  | request (req : Request) (nowMicros t : Int) (fate : Fate)
  /-- the removal that follows a refusal, whenever it comes -/
  | zrem (key : String) (member t : Int)
  deriving Repr, DecidableEq

structure Gate where
  redis : Redis
  /-- the requests that were let through, the latest first -/
  passed : List Visit

def Gate.new : Gate := ⟨fun _ => ⟨[], none⟩, []⟩

def step (cfg : Config) (g : Gate) : Event → Gate
  | .request req nowMicros t fate =>
    match call cfg req nowMicros t fate g.redis with
    | (.inner _, redis) => ⟨redis, req.visit cfg nowMicros :: g.passed⟩
    | (.refused _ _, redis) => { g with redis }
  | .zrem key member t => { g with redis := ((Cmd.zrem key member).exec t g.redis).2 }

/-- The request whose pipeline Redis answers. -/
def Event.answered (cfg : Config) : Event → Option Visit
  | .request req nowMicros _ .served => some (req.visit cfg nowMicros)
  | _ => none

/-- How many of the visits are of this identity, route and limit and in the window that begins at
`start`. -/
def within (identity route : String) (limit : RouteLimit) (start : Int) (l : List Visit) : Nat :=
  l.countP fun v => v.identity = identity ∧ v.route = route ∧ v.limit = limit ∧
    start ≤ v.micros ∧ v.micros < start + limit.windowSecs.toNat * 1000000

def RateBounded (l : List Visit) : Prop :=
  ∀ identity route limit start, within identity route limit start l ≤ limit.maxRequests.toNat

theorem passed_of_ok {cfg : Config} {g : Gate} {req : Request} {nowMicros t : Int} {fate : Fate}
    {r : RateLimitResult}
    (h : (check (extractIdentity req) req.path (routeLimit cfg req.path) nowMicros t fate
      g.redis).1 = .ok r) :
    (step cfg g (.request req nowMicros t fate)).passed = req.visit cfg nowMicros :: g.passed := by
  rcases hc : check (extractIdentity req) req.path (routeLimit cfg req.path) nowMicros t fate
    g.redis with ⟨o, redis⟩
  rw [hc] at h
  obtain rfl : o = .ok r := h
  simp only [step, call, hc]

theorem passed_of_error {cfg : Config} {g : Gate} {req : Request} {nowMicros t : Int}
    {fate : Fate} {status : Nat}
    (h : (check (extractIdentity req) req.path (routeLimit cfg req.path) nowMicros t fate
      g.redis).1 = .error status) :
    (step cfg g (.request req nowMicros t fate)).passed = g.passed := by
  rcases hc : check (extractIdentity req) req.path (routeLimit cfg req.path) nowMicros t fate
    g.redis with ⟨o, redis⟩
  rw [hc] at h
  obtain rfl : o = .error status := h
  simp only [step, call, hc]

/-- What is let through is what Redis answers, less the requests whose limit is zero. -/
theorem passed_run (cfg : Config) (es : List Event) (g : Gate) :
    (run (step cfg) g es).passed =
      ((es.filterMap (Event.answered cfg)).filter fun v => 0 < v.limit.maxRequests).reverse ++
        g.passed := by
  induction es generalizing g with
  | nil => rfl
  | cons e es ih =>
    rw [run_cons, ih]
    cases e with
    | zrem key member t => rfl
    | request req nowMicros t fate =>
      by_cases hpass : fate = .served ∧ 0 < (routeLimit cfg req.path).maxRequests
      · obtain ⟨rfl, hmax⟩ := hpass
        obtain ⟨r, hc⟩ := check_ok hmax (extractIdentity req) req.path nowMicros t g.redis
        have hmax : 0 < (req.visit cfg nowMicros).limit.maxRequests := hmax
        rw [passed_of_ok hc]
        simp [Event.answered, hmax]
      · have hno : fate = .served → ¬ 0 < (routeLimit cfg req.path).maxRequests :=
          fun hs hm => hpass ⟨hs, hm⟩
        obtain ⟨status, hc⟩ := check_error hno (extractIdentity req) req.path nowMicros t g.redis
        rw [passed_of_error hc]
        cases fate with
        | refused => rfl
        | lost => rfl
        | served =>
          have hmax : ¬ 0 < (req.visit cfg nowMicros).limit.maxRequests := hno rfl
          simp [Event.answered, hmax]

/-- For every order of the requests and whatever times they read: the limit holds of what is let
through if and only if, where it is not zero, it holds of all the requests that Redis answers. -/
theorem rate_bounded_iff (cfg : Config) (es : List Event) :
    RateBounded (run (step cfg) .new es).passed ↔
      ∀ identity route limit start, 0 < limit.maxRequests →
        within identity route limit start (es.filterMap (Event.answered cfg)) ≤
          limit.maxRequests.toNat := by
  have hpassed : ∀ identity route limit start,
      within identity route limit start (run (step cfg) .new es).passed =
        if 0 < limit.maxRequests then
          within identity route limit start (es.filterMap (Event.answered cfg))
        else 0 := by
    intro identity route limit start
    rw [passed_run]
    simp only [within, Gate.new, List.append_nil, List.countP_reverse, List.countP_filter]
    split
    · next hmax =>
      refine List.countP_congr fun v _ => ?_
      simp only [Bool.and_eq_true, decide_eq_true_eq]
      exact ⟨fun h => h.1, fun h => ⟨h, h.2.2.1 ▸ hmax⟩⟩
    · next hmax =>
      refine List.countP_eq_zero.2 fun v _ => ?_
      simp only [Bool.and_eq_true, decide_eq_true_eq]
      exact fun h => hmax (h.1.2.2.1 ▸ h.2)
  constructor
  · intro h identity route limit start hmax
    have hle := h identity route limit start
    rwa [hpassed, if_pos hmax] at hle
  · intro h identity route limit start
    rw [hpassed]
    by_cases hmax : 0 < limit.maxRequests
    · rw [if_pos hmax]
      exact h identity route limit start hmax
    · rw [if_neg hmax]
      exact Nat.zero_le _

def demoIntent : Request := ⟨"/intents", none, none, some "1.2.3.4"⟩

/-- 31 intents of one address within a second are let through, where 30 are the limit of a minute. -/
theorem rate_not_bounded :
    ¬ RateBounded (run (step ⟨120, 60⟩) .new
      (List.replicate 31 (.request demoIntent 1700000000000000 1700000000 .served))).passed := by
  intro h
  have hle := h "1.2.3.4" "/intents" ⟨30, 60⟩ 1700000000000000
  exact absurd hle (by decide +kernel)

end IntentX.RateLimit
