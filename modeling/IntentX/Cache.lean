import IntentX.SolverReputation
import IntentX.Lib.Headers
import IntentX.Lib.ReadThrough
import IntentX.Lib.Text

/-!
# The cache in Redis

`get_balances`, `get_market`, `list_markets` and `get_top_solvers` look for their answer in Redis first,
query the database if it is not there, and store what they found with `SETEX`.  The calls that change
balances, markets and solvers delete the key, in a task of its own or after the transaction; most of the
transactions on balances (settlement, expiry, cancellation, fees) delete nothing.

So what is answered was in the database once: at the query of a request, whose `SETEX` came no later than
requests take; and it is answered no later than the time to live of its kind after that, and was not
deleted in between (`answers_recent`).  A market does not change, so what is answered for it is what the
database holds (`market_current`).
-/

namespace IntentX.Cache

open Lib Machine

/-- `CacheTtl`, in seconds. -/
def ttlMarkets : Nat := 60

def ttlBalances : Nat := 10

def ttlLeaderboard : Nat := 30

/-- An id as the database stores it. -/
abbrev StoredId := Fin (2 ^ 128)

/-- What is cached: the balances of an account, a market, the list of the markets, the first solvers. -/
inductive Key
  | balances (accountId : StoredId)
  | market (marketId : StoredId)
  | markets
  | topSolvers (limit : Nat)
  deriving Repr, DecidableEq

def Key.keyType : Key → String
  | .balances _ => "balances"
  | .market _ => "market"
  | .markets => "markets"
  | .topSolvers _ => "leaderboard"

def Key.key : Key → String
  | .balances accountId => uuidText accountId
  | .market marketId => uuidText marketId
  | .markets => "all"
  | .topSolvers limit => "top_" ++ toString limit

def Key.ttl : Key → Nat
  | .balances _ => ttlBalances
  | .market _ | .markets => ttlMarkets
  | .topSolvers _ => ttlLeaderboard

/-- `format!("cache:{key_type}:{key}")`. -/
def Key.full (k : Key) : String := "cache:" ++ k.keyType ++ ":" ++ k.key

/-! ## The database -/

/-- A row of `markets`, with numbers of type `ρ` for the rate. -/
structure MarketRow (ρ : Type) extends Market where
  feeRate : ρ
  settlementContract : Option String
  quoteTokenMint : Option String
  baseDecimals : Int
  quoteDecimals : Int
  createdAt : Int
  deriving Repr, DecidableEq

structure Db (ρ : Type) where
  balances : List Balance
  markets : List (MarketRow ρ)
  solvers : List (Reputation.Solver ρ)

inductive Answer (ρ : Type)
  | balances (rows : List Balance)
  | market (row : MarketRow ρ)
  | markets (rows : List (MarketRow ρ))
  | solvers (rows : List (Reputation.Solver ρ))
  deriving DecidableEq

section Queries

variable {ρ : Type} [LE ρ] [DecidableLE ρ]

/-- `find_by_account_id`, `find_by_id`, `find_all` and `find_top`. -/
def Db.answer (db : Db ρ) : Key → Option (Answer ρ)
  | .balances accountId => some (.balances (db.balances.filter fun b => b.accountId = accountId.val))
  | .market marketId => (db.markets.find? fun m => m.id = marketId.val).map .market
  | .markets => some (.markets (db.markets.insertionSort fun m m' => m'.createdAt ≤ m.createdAt))
  | .topSolvers limit => some (.solvers (((db.solvers.filter (·.active)).insertionSort
      fun a b => b.reputationScore ≤ a.reputationScore).take limit))

/-- The `INSERT` of `create_market`: the id and the pair of assets are unique. -/
def Db.insertMarket (db : Db ρ) (m : MarketRow ρ) : Db ρ :=
  if db.markets.any fun m' => m'.id == m.id || m'.baseAsset == m.baseAsset && m'.quoteAsset == m.quoteAsset
  then db else { db with markets := db.markets ++ [m] }

end Queries

/-- `serde_json`: the text of an answer, if it has one, and what a text is read as at the type of the
key.  Numbers with a fraction may come back as others. -/
structure Json (τ ρ : Type) where
  toText : Answer ρ → Option τ
  fromText : Key → τ → Option (Answer ρ)

/-- `a'` is `a`, or what is read back of its text. -/
def Json.Gives {τ ρ : Type} (json : Json τ ρ) (k : Key) (a a' : Answer ρ) : Prop :=
  a' = a ∨ ∃ t, json.toText a = some t ∧ json.fromText k t = some a'

/-! ## The requests -/

/-- A request that found nothing in the cache, before its query and after it. -/
inductive Task (ρ : Type)
  | missed (k : Key)
  | fetched (k : Key) (answer : Answer ρ) (since : Nat)

structure Stored (τ : Type) where
  text : τ
  expires : Nat

/-- The time in milliseconds, the database, what Redis stores under which key, the requests, and the
keys that are about to be deleted by an `invalidate_pattern`. -/
structure State (τ ρ : Type) where
  now : Nat
  db : Db ρ
  redis : Headers (Stored τ)
  tasks : Nat → Option (Task ρ)
  found : Nat → List String

inductive Event (ρ : Type)
  | tick (ms : Nat)
  /-- a transaction on balances, of whatever part of the platform -/
  | balances (rows : List Balance)
  | createMarket (m : MarketRow ρ)
  /-- a statement that changes solvers -/
  | solvers (rows : List (Reputation.Solver ρ))
  /-- the `GET` of a request -/
  | get (i : Nat) (k : Key) (fate : Fate)
  /-- its query, if it was not answered -/
  | select (i : Nat) (fate : Fate)
  /-- the `SETEX` with what was found -/
  | set (i : Nat) (fate : Fate)
  /-- `invalidate` -/
  | invalidate (k : Key) (fate : Fate)
  /-- `KEYS cache:leaderboard:*` and one `DEL` -/
  | keys (j : Nat)
  | del (j : Nat) (fate : Fate)

section Requests

variable {τ ρ : Type} [LE ρ] [DecidableLE ρ] (json : Json τ ρ)

def State.new (db : Db ρ) : State τ ρ := ⟨0, db, [], fun _ => none, fun _ => []⟩

def State.task (s : State τ ρ) (i : Nat) (t : Option (Task ρ)) : Nat → Option (Task ρ) :=
  fun j => if j = i then t else s.tasks j

/-- `CacheService::get`: an expired key is not there, and a text that cannot be read is no answer. -/
def State.cached (s : State τ ρ) (k : Key) : Option (Answer ρ) :=
  match s.redis.get k.full with
  | some e => if s.now ≤ e.expires then json.fromText k e.text else none
  | none => none

/-- `CacheService::set`. -/
def State.setEx (s : State τ ρ) (k : Key) (a : Answer ρ) : Headers (Stored τ) :=
  match json.toText a with
  | some t => s.redis.insert k.full ⟨t, s.now + 1000 * k.ttl⟩
  | none => s.redis

def leaderboardPrefix : String := "cache:leaderboard:"

def step (s : State τ ρ) : Event ρ → State τ ρ
  | .tick ms => { s with now := s.now + ms }
  | .balances rows => { s with db := { s.db with balances := rows } }
  | .createMarket m => { s with db := s.db.insertMarket m }
  | .solvers rows => { s with db := { s.db with solvers := rows } }
  | .get i k fate =>
    if (s.tasks i).isSome || fate = .served && (s.cached json k).isSome then s
    else { s with tasks := s.task i (some (.missed k)) }
  | .select i fate =>
    match s.tasks i with
    | some (.missed k) =>
      if fate = .served then
        { s with tasks := s.task i ((s.db.answer k).map fun a => .fetched k a s.now) }
      else { s with tasks := s.task i none }
    | _ => s
  | .set i fate =>
    match s.tasks i with
    | some (.fetched k a _) =>
      { s with
        redis := if fate = .refused then s.redis else s.setEx json k a
        tasks := s.task i none }
    | _ => s
  | .invalidate k fate => if fate = .refused then s else { s with redis := s.redis.without [k.full] }
  | .keys j =>
    let found := (s.redis.map (·.1)).filter fun full => leaderboardPrefix.toList.isPrefixOf full.toList
    { s with found := fun j' => if j' = j then found else s.found j' }
  | .del j fate =>
    match s.found j with
    | full :: rest =>
      { s with
        redis := if fate = .refused then s.redis else s.redis.without [full]
        found := fun j' => if j' = j then rest else s.found j' }
    | [] => s

/-- The answer that a request gets in the step. -/
def answer (s : State τ ρ) : Event ρ → Option (Key × Answer ρ)
  | .get i k fate =>
    if (s.tasks i).isNone && fate = .served then (s.cached json k).map fun a => (k, a) else none
  | .set i _ =>
    match s.tasks i with
    | some (.fetched k a _) => some (k, a)
    | _ => none
  | _ => none

/-- A request is answered at most `D` after its query. -/
def Within (D : Nat) (s : State τ ρ) : Event ρ → Prop
  | .set i _ => ∀ k a since, s.tasks i = some (.fetched k a since) → s.now ≤ since + D
  | _ => True

/-- The step deletes the key. -/
def Deletes (k : Key) (s : State τ ρ) : Event ρ → Prop
  | .invalidate k' fate => fate ≠ .refused ∧ k' = k
  | .del j fate => fate ≠ .refused ∧ (s.found j).head? = some k.full
  | _ => False

end Requests

/-! ## Keys -/

theorem hexDigit_inj : ∀ d < 16, ∀ e < 16, hexDigit d = hexDigit e → d = e := by decide

/-- Numbers with the same hex digits. -/
theorem mod_pow_of_digits {u v : Nat} (n : Nat) (h : ∀ i < n, u / 16 ^ i % 16 = v / 16 ^ i % 16) :
    u % 16 ^ n = v % 16 ^ n := by
  induction n with
  | zero => rw [pow_zero, Nat.mod_one, Nat.mod_one]
  | succ n ih =>
    rw [Nat.mod_pow_succ, Nat.mod_pow_succ, ih fun i hi => h i (Nat.lt_succ_of_lt hi), h n n.lt_succ_self]

theorem eq_of_take_of_drop {α : Type} {l l' : List α} (n : Nat) (ht : l.take n = l'.take n)
    (hd : l.drop n = l'.drop n) : l = l' := by
  rw [← List.take_append_drop n l, ht, hd, List.take_append_drop]

/-- The groups of a text tell its digits. -/
theorem eq_of_groups {d e : List Char} (hd : d.length = 32) (he : e.length = 32)
    (h : d.take 8 ++ ['-'] ++ (d.drop 8).take 4 ++ ['-'] ++ (d.drop 12).take 4 ++ ['-'] ++
      (d.drop 16).take 4 ++ ['-'] ++ d.drop 20 =
      e.take 8 ++ ['-'] ++ (e.drop 8).take 4 ++ ['-'] ++ (e.drop 12).take 4 ++ ['-'] ++
      (e.drop 16).take 4 ++ ['-'] ++ e.drop 20) : d = e := by
  have hlen : ∀ n k, ((d.drop n).take k).length = ((e.drop n).take k).length := by
    intro n k
    rw [List.length_take, List.length_take, List.length_drop, List.length_drop, hd, he]
  simp only [List.append_assoc, List.singleton_append] at h
  obtain ⟨h₀, h⟩ := List.append_inj h (hlen 0 8)
  obtain ⟨h₁, h⟩ := List.append_inj (List.cons.inj h).2 (hlen 8 4)
  obtain ⟨h₂, h⟩ := List.append_inj (List.cons.inj h).2 (hlen 12 4)
  obtain ⟨h₃, h⟩ := List.append_inj (List.cons.inj h).2 (hlen 16 4)
  have h₄ : d.drop 20 = e.drop 20 := (List.cons.inj h).2
  have h₁₆ : d.drop 16 = e.drop 16 := eq_of_take_of_drop 4 h₃ (by simpa only [List.drop_drop] using h₄)
  have h₁₂ : d.drop 12 = e.drop 12 := eq_of_take_of_drop 4 h₂ (by simpa only [List.drop_drop] using h₁₆)
  have h₈ : d.drop 8 = e.drop 8 := eq_of_take_of_drop 4 h₁ (by simpa only [List.drop_drop] using h₁₂)
  exact eq_of_take_of_drop 8 h₀ h₈

theorem uuidText_inj {u v : StoredId} (h : uuidText u = uuidText v) : u = v := by
  have hdigits := eq_of_groups (by simp) (by simp) (String.ofList_injective h)
  have hnibble : ∀ i < 32, u.val / 16 ^ i % 16 = v.val / 16 ^ i % 16 := by
    intro i hi
    have hchar := List.map_inj_left.1 hdigits (31 - i) (List.mem_range.2 (by omega))
    rw [show 31 - (31 - i) = i by omega] at hchar
    exact hexDigit_inj _ (Nat.mod_lt _ (by decide)) _ (Nat.mod_lt _ (by decide)) hchar
  have hmod := mod_pow_of_digits 32 hnibble
  have hu : u.val < 16 ^ 32 := u.isLt
  have hv : v.val < 16 ^ 32 := v.isLt
  rw [Nat.mod_eq_of_lt hu, Nat.mod_eq_of_lt hv] at hmod
  exact Fin.val_inj.1 hmod

theorem natText_inj {n m : Nat} (h : toString n = toString m) : n = m := by
  have hlist : Nat.toDigits 10 n = Nat.toDigits 10 m := String.ofList_injective h
  have hn : Text.parseUnsigned (n + m) (Nat.toDigits 10 n) = some n := Text.parseUnsigned_toDigits
    (Nat.lt_of_le_of_lt (Nat.le_add_right n m) Nat.lt_two_pow_self)
  have hm : Text.parseUnsigned (n + m) (Nat.toDigits 10 m) = some m := Text.parseUnsigned_toDigits
    (Nat.lt_of_le_of_lt (Nat.le_add_left m n) Nat.lt_two_pow_self)
  rw [hlist, hm] at hn
  exact (Option.some.inj hn).symm

theorem notMem_keyType (k : Key) : ':' ∉ k.keyType.toList := by
  cases k <;> simp [Key.keyType]

theorem key_eq {k k' : Key} (ht : k.keyType = k'.keyType) (h : k.key = k'.key) : k = k' := by
  cases k with
  | balances u =>
    cases k' with
    | balances v => exact congrArg Key.balances (uuidText_inj h)
    | _ => exact absurd ht (by simp [Key.keyType])
  | market u =>
    cases k' with
    | market v => exact congrArg Key.market (uuidText_inj h)
    | _ => exact absurd ht (by simp [Key.keyType])
  | markets =>
    cases k' with
    | markets => rfl
    | _ => exact absurd ht (by simp [Key.keyType])
  | topSolvers n =>
    cases k' with
    | topSolvers m =>
      have hlist := congrArg String.toList h
      simp only [Key.key, String.toList_append] at hlist
      exact congrArg Key.topSolvers (natText_inj (String.toList_inj.1 (List.append_cancel_left hlist)))
    | _ => exact absurd ht (by simp [Key.keyType])

/-- No two answers are stored under one key. -/
theorem full_inj {k k' : Key} (h : k.full = k'.full) : k = k' := by
  have hlist := congrArg String.toList h
  simp only [Key.full, String.toList_append, List.append_assoc] at hlist
  have hcut : k.keyType.toList ++ ':' :: k.key.toList = k'.keyType.toList ++ ':' :: k'.key.toList :=
    List.append_cancel_left hlist
  rcases Text.cut_of_notMem (notMem_keyType k') hcut with ⟨ht, hk⟩ | ⟨m, hm, -⟩
  · exact key_eq (String.toList_inj.1 ht) (String.toList_inj.1 hk)
  · refine absurd ?_ (notMem_keyType k)
    rw [hm]
    exact List.mem_append_right _ List.mem_cons_self

/-! ## What is answered -/

section View

variable {τ ρ : Type} [LE ρ] [DecidableLE ρ] (json : Json τ ρ)

/-- The text that a query would be stored as. -/
def look (db : Db ρ) (k : Key) : Option τ := (db.answer k).bind json.toText

def ttlMillis (k : Key) : Nat := 1000 * k.ttl

/-- What a request holds to be stored. -/
def Task.read : Task ρ → Option (ReadThrough.Read Key τ)
  | .missed _ => none
  | .fetched k a since => (json.toText a).map fun t => ⟨k, t, since⟩

/-- The texts under their keys, and in the hands of the requests. -/
def view (s : State τ ρ) : ReadThrough.Store (Db ρ) Key τ Nat where
  now := s.now
  source := s.db
  entries k := (s.redis.get k.full).map fun e => ⟨e.text, e.expires⟩
  held i := (s.tasks i).bind (Task.read json)

/-- A step, as one of reading through a cache. -/
def events (s : State τ ρ) : Event ρ → List (ReadThrough.Event (Db ρ) Key Nat)
  | .tick ms => [.tick ms]
  | .balances rows => [.change { s.db with balances := rows }]
  | .createMarket m => [.change (s.db.insertMarket m)]
  | .solvers rows => [.change { s.db with solvers := rows }]
  | .get _ _ _ => []
  | .select i fate =>
    match s.tasks i with
    | some (.missed k) => if fate = .served then [.fetch i k] else []
    | _ => []
  | .set i fate =>
    match s.tasks i with
    | some (.fetched _ _ _) => if fate = .refused then [.forget i] else [.fill i]
    | _ => []
  | .invalidate k fate => if fate = .refused then [] else [.drop fun k' => k' = k]
  | .keys _ => []
  | .del j fate =>
    match s.found j with
    | full :: _ => if fate = .refused then [] else [.drop fun k => k.full = full]
    | [] => []

variable {json} {s : State τ ρ} {D : Nat}

variable (json) in
omit [LE ρ] [DecidableLE ρ] in
theorem held_task (i : Nat) (t : Option (Task ρ)) :
    (fun j => (s.task i t j).bind (Task.read json)) = (view json s).hold i (t.bind (Task.read json)) := by
  funext j
  unfold State.task ReadThrough.Store.hold
  split <;> rfl

omit [LE ρ] [DecidableLE ρ] in
theorem hold_self {i : Nat} (h : (view json s).held i = none) : (view json s).hold i none = (view json s).held := by
  funext j
  unfold ReadThrough.Store.hold
  split
  · rename_i hj
    rw [hj, h]
  · rfl

variable (json) in
omit [LE ρ] [DecidableLE ρ] in
theorem entries_without (full : String) :
    (fun k : Key => ((s.redis.without [full]).get k.full).map fun e => (⟨e.text, e.expires⟩ : ReadThrough.Entry τ)) =
      fun k => if k.full = full then none else (view json s).entries k := by
  funext k
  split
  · rename_i hk
    rw [hk, Headers.get_without_self]
    rfl
  · rename_i hk
    rw [Headers.get_without (by simpa using hk)]
    rfl

variable (json) in
omit [LE ρ] [DecidableLE ρ] in
/-- What is stored is found under its own key only. -/
theorem entries_insert (k : Key) (t : τ) (expires : Nat) :
    (fun k' : Key => ((s.redis.insert k.full ⟨t, expires⟩).get k'.full).map
      fun e => (⟨e.text, e.expires⟩ : ReadThrough.Entry τ)) =
      fun k' => if k' = k then some ⟨t, expires⟩ else (view json s).entries k' := by
  funext k'
  split
  · rename_i hk
    rw [hk, Headers.get_insert_self]
    rfl
  · rename_i hk
    rw [Headers.get_insert_ne fun h => hk (full_inj h).symm]
    rfl

omit [LE ρ] [DecidableLE ρ] in
/-- A request that does not hold anything is put away. -/
theorem view_task {i : Nat} (h : (view json s).held i = none) (t : Option (Task ρ))
    (ht : t.bind (Task.read json) = none) : view json { s with tasks := s.task i t } = view json s := by
  have hheld := held_task json (s := s) i t
  rw [ht, hold_self h] at hheld
  exact ReadThrough.Store.ext rfl rfl rfl hheld

omit [LE ρ] [DecidableLE ρ] in
theorem held_fetched {i : Nat} {k : Key} {a : Answer ρ} {since : Nat} (h : s.tasks i = some (.fetched k a since)) :
    (view json s).held i = (json.toText a).map fun t => ⟨k, t, since⟩ := by
  show (s.tasks i).bind (Task.read json) = _
  rw [h]
  rfl

theorem view_select {i : Nat} {k : Key} :
    view json { s with tasks := s.task i ((s.db.answer k).map fun a => .fetched k a s.now) } =
      ReadThrough.step (look json) ttlMillis (view json s) (.fetch i k) := by
  have hread : ((s.db.answer k).map fun a => Task.fetched k a s.now).bind (Task.read json) =
      ((look json s.db k).map fun t => (⟨k, t, s.now⟩ : ReadThrough.Read Key τ)) := by
    unfold look
    cases s.db.answer k <;> rfl
  have hheld := held_task json (s := s) i ((s.db.answer k).map fun a => .fetched k a s.now)
  rw [hread] at hheld
  exact ReadThrough.Store.ext rfl rfl rfl hheld

theorem view_set {i : Nat} {k : Key} {a : Answer ρ} {since : Nat} (h : s.tasks i = some (.fetched k a since)) :
    view json { s with redis := s.setEx json k a, tasks := s.task i none } =
      ReadThrough.step (look json) ttlMillis (view json s) (.fill i) := by
  have hheld := held_task json (s := s) i none
  have hi : (view json s).held i = _ := held_fetched h
  unfold State.setEx
  cases ht : json.toText a with
  | none =>
    rw [ht] at hi
    simp only [ReadThrough.step, hi, Option.map_none]
    exact view_task hi none rfl
  | some t =>
    rw [ht] at hi
    simp only [ReadThrough.step, hi, Option.map_some]
    have hentries := entries_insert json (s := s) k t (s.now + 1000 * k.ttl)
    have hsame : (fun k' => if k' = k then some (⟨t, s.now + 1000 * k.ttl⟩ : ReadThrough.Entry τ)
        else (view json s).entries k') =
        fun k' => if k' = k then some ⟨t, s.now + ttlMillis k'⟩ else (view json s).entries k' := by
      funext k'
      split
      · rename_i hk
        rw [hk, ttlMillis]
      · rfl
    rw [hsame] at hentries
    exact ReadThrough.Store.ext rfl rfl hentries hheld

theorem view_without (full : String) {gone : Key → Bool} (hgone : ∀ k, gone k = true ↔ k.full = full)
    (found : Nat → List String) :
    view json { s with redis := s.redis.without [full], found := found } =
      ReadThrough.step (look json) ttlMillis (view json s) (.drop gone) := by
  have hentries := entries_without json (s := s) full
  simp only [← hgone] at hentries
  exact ReadThrough.Store.ext rfl rfl hentries rfl

variable (json) in
theorem simulates : Simulates (step json) (ReadThrough.step (look json) ttlMillis) (fun _ => True)
    (fun _ _ => True) (view json) events where
  keeps _ _ _ _ := trivial
  view s e _ _ := by
    cases e with
    | tick ms => rfl
    | balances rows => rfl
    | createMarket m => rfl
    | solvers rows => rfl
    | keys j => rfl
    | get i k fate =>
      simp only [step]
      split
      · rfl
      · rename_i hbusy
        have hnone : s.tasks i = none := by
          cases hi : s.tasks i with
          | none => rfl
          | some t => simp [hi] at hbusy
        exact view_task (by simp only [view, hnone, Option.bind_none]) _ rfl
    | select i fate =>
      simp only [step, events]
      split
      · rename_i k hk
        split
        · exact view_select
        · exact view_task (by simp only [view, hk, Option.bind_some, Task.read]) none rfl
      · rfl
    | set i fate =>
      simp only [step, events]
      split
      · rename_i k a since hk
        split
        · exact ReadThrough.Store.ext rfl rfl rfl (held_task json i none)
        · exact view_set hk
      · rfl
    | invalidate k fate =>
      simp only [step, events]
      split
      · rfl
      · refine view_without k.full (fun k' => ?_) s.found
        rw [decide_eq_true_iff]
        exact ⟨fun h => congrArg Key.full h, full_inj⟩
    | del j fate =>
      simp only [step, events]
      split
      · split
        · rfl
        · exact view_without _ (fun k => decide_eq_true_iff) _
      · rfl

omit [LE ρ] [DecidableLE ρ] in
/-- A step is seen as none, as the storing of what the request holds, or as another one. -/
theorem events_cases (s : State τ ρ) (e : Event ρ) : events s e = [] ∨
    (∃ i fate k a since, e = .set i fate ∧ fate ≠ .refused ∧ s.tasks i = some (.fetched k a since) ∧
      events s e = [.fill i]) ∨
    ∃ x, events s e = [x] ∧ ∀ i, x ≠ .fill i := by
  cases e with
  | tick ms => exact .inr (.inr ⟨_, rfl, nofun⟩)
  | balances rows => exact .inr (.inr ⟨_, rfl, nofun⟩)
  | createMarket m => exact .inr (.inr ⟨_, rfl, nofun⟩)
  | solvers rows => exact .inr (.inr ⟨_, rfl, nofun⟩)
  | get i k fate => exact .inl rfl
  | keys j => exact .inl rfl
  | select i fate =>
    simp only [events]
    split
    · split
      · exact .inr (.inr ⟨_, rfl, nofun⟩)
      · exact .inl rfl
    · exact .inl rfl
  | set i fate =>
    simp only [events]
    split
    · rename_i k a since hi
      split
      · exact .inr (.inr ⟨_, rfl, nofun⟩)
      · rename_i hfate
        exact .inr (.inl ⟨i, fate, k, a, since, rfl, hfate, hi, rfl⟩)
    · exact .inl rfl
  | invalidate k fate =>
    simp only [events]
    split
    · exact .inl rfl
    · exact .inr (.inr ⟨_, rfl, nofun⟩)
  | del j fate =>
    simp only [events]
    split
    · split
      · exact .inl rfl
      · exact .inr (.inr ⟨_, rfl, nofun⟩)
    · exact .inl rfl

omit [LE ρ] [DecidableLE ρ] in
theorem events_length (s : State τ ρ) (e : Event ρ) : (events s e).length ≤ 1 := by
  rcases events_cases s e with he | ⟨i, fate, k, a, since, -, -, -, he⟩ | ⟨x, he, -⟩ <;> simp [he]

theorem within_events {e : Event ρ} (h : Within D s e) :
    Each (ReadThrough.step (look json) ttlMillis) (ReadThrough.Within D) (view json s) (events s e) := by
  rcases events_cases s e with he | ⟨i, fate, k, a, since, rfl, -, hi, he⟩ | ⟨x, he, hx⟩
  · rw [he]
    trivial
  · rw [he]
    refine ⟨fun r hr => ?_, trivial⟩
    rw [held_fetched hi] at hr
    obtain ⟨t, -, rfl⟩ := Option.map_eq_some_iff.1 hr
    exact h k a since hi
  · rw [he]
    refine ⟨?_, trivial⟩
    cases x with
    | fill i => exact absurd rfl (hx i)
    | _ => trivial

omit [LE ρ] [DecidableLE ρ] in
theorem drop_of_deletes {k : Key} {e : Event ρ} (h : Deletes k s e) :
    ∃ gone, ReadThrough.Event.drop gone ∈ events s e ∧ gone k = true := by
  cases e with
  | invalidate k' fate =>
    obtain ⟨hfate, rfl⟩ := h
    simp only [events, if_neg hfate]
    exact ⟨_, List.mem_singleton_self _, decide_eq_true rfl⟩
  | del j fate =>
    obtain ⟨hfate, hfull⟩ := h
    simp only [events]
    split
    · rename_i full rest hfound
      rw [hfound] at hfull
      obtain rfl := Option.some.inj hfull
      rw [if_neg hfate]
      exact ⟨_, List.mem_singleton_self _, decide_eq_true rfl⟩
    · rename_i hfound
      rw [hfound] at hfull
      exact nomatch hfull
  | _ => exact h.elim

/-- After `es₁` the query of the request `i` is answered with `a₀`, which it holds after `es₂`, no more than
`D` later, for its `SETEX` to store. -/
structure Stores (json : Json τ ρ) (D : Nat) (s₀ : State τ ρ) (es₁ es₂ : List (Event ρ)) (i : Nat) (k : Key)
    (a₀ : Answer ρ) : Prop where
  missed : (run (step json) s₀ es₁).tasks i = some (.missed k)
  answered : (run (step json) s₀ es₁).db.answer k = some a₀
  fetched : (run (step json) s₀ (es₁ ++ .select i .served :: es₂)).tasks i =
    some (.fetched k a₀ (run (step json) s₀ es₁).now)
  late : (run (step json) s₀ (es₁ ++ .select i .served :: es₂)).now ≤ (run (step json) s₀ es₁).now + D

/-- In the run of `es` a request stored what its query was answered with no more than `D` before, and this
gives the answer; the last step is no more than its time to live after the `SETEX`, and it was not deleted
in between.  If the `SETEX` was refused, it is the last step. -/
def Recent (json : Json τ ρ) (D : Nat) (s₀ : State τ ρ) (es : List (Event ρ)) (k : Key) (a : Answer ρ) : Prop :=
  ∃ i fate es₁ es₂ es₃ a₀, es = es₁ ++ .select i .served :: es₂ ++ .set i fate :: es₃ ∧
    Stores json D s₀ es₁ es₂ i k a₀ ∧ json.Gives k a₀ a ∧ (fate = .refused → es₃ = []) ∧
    (run (step json) s₀ es).now ≤
      (run (step json) s₀ (es₁ ++ .select i .served :: es₂)).now + 1000 * k.ttl ∧
    Each (step json) (fun s e => ¬ Deletes k s e)
      (run (step json) s₀ (es₁ ++ .select i .served :: es₂ ++ [.set i fate])) es₃

variable {db : Db ρ} {es : List (Event ρ)} {k : Key} {a : Answer ρ}

variable (json) in
theorem view_run (es : List (Event ρ)) : view json (run (step json) (.new db) es) =
    run (ReadThrough.step (look json) ttlMillis) (.new db) (seen (step json) events (.new db) es) :=
  (simulates json).run (s := .new db) trivial (each_true _ es)

omit [LE ρ] [DecidableLE ρ] in
theorem set_of_events {e : Event ρ} {i : Nat} (h : events s e = [.fill i]) :
    ∃ fate k a since, e = .set i fate ∧ fate ≠ .refused ∧ s.tasks i = some (.fetched k a since) := by
  rcases events_cases s e with he | ⟨j, fate, k, a, since, rfl, hfate, hj, he⟩ | ⟨x, he, hx⟩
  · exact nomatch h.symm.trans he
  · obtain rfl := ReadThrough.Event.fill.inj (List.singleton_inj.1 (he.symm.trans h))
    exact ⟨fate, k, a, since, rfl, hfate, hj⟩
  · exact absurd (List.singleton_inj.1 (he.symm.trans h)) (hx i)

theorem fetched_step {e : Event ρ} {i since : Nat} (h : (step json s e).tasks i = some (.fetched k a since)) :
    s.tasks i = some (.fetched k a since) ∨
      (e = .select i .served ∧ s.tasks i = some (.missed k) ∧ s.db.answer k = some a ∧ s.now = since) := by
  have hput : ∀ {j : Nat} {t : Option (Task ρ)}, s.task j t i = some (.fetched k a since) →
      (i = j ∧ t = some (.fetched k a since)) ∨ s.tasks i = some (.fetched k a since) := by
    intro j t ht
    unfold State.task at ht
    split at ht
    · exact .inl ⟨‹_›, ht⟩
    · exact .inr ht
  cases e with
  | get j k' fate =>
    simp only [step] at h
    split at h
    · exact .inl h
    · exact .inl ((hput h).resolve_left nofun)
  | select j fate =>
    simp only [step] at h
    split at h
    · rename_i k' hj
      split at h
      · rename_i hfate
        rcases hput h with ⟨rfl, hquery⟩ | hold
        · obtain ⟨a', ha', heq⟩ := Option.map_eq_some_iff.1 hquery
          obtain ⟨rfl, rfl, rfl⟩ := Task.fetched.inj heq
          exact .inr ⟨by rw [hfate], hj, ha', rfl⟩
        · exact .inl hold
      · exact .inl ((hput h).resolve_left nofun)
    · exact .inl h
  | set j fate =>
    simp only [step] at h
    split at h
    · exact .inl ((hput h).resolve_left nofun)
    · exact .inl h
  | invalidate k' fate =>
    simp only [step] at h
    split at h <;> exact .inl h
  | del j fate =>
    simp only [step] at h
    split at h <;> exact .inl h
  | _ => exact .inl h

/-- What a request holds is what its query answered. -/
theorem fetched_run (es : List (Event ρ)) {i since : Nat}
    (h : (run (step json) (.new db) es).tasks i = some (.fetched k a since)) :
    ∃ es₁ es₂, es = es₁ ++ .select i .served :: es₂ ∧
      (run (step json) (.new db) es₁).tasks i = some (.missed k) ∧
      (run (step json) (.new db) es₁).db.answer k = some a ∧ (run (step json) (.new db) es₁).now = since := by
  induction es using List.reverseRecOn generalizing i k a since with
  | nil => exact nomatch h
  | append_singleton es e ih =>
    rw [run_snoc] at h
    rcases fetched_step h with hold | ⟨rfl, hmissed, hans, hsince⟩
    · obtain ⟨es₁, es₂, rfl, hquery⟩ := ih hold
      exact ⟨es₁, es₂ ++ [e], List.append_assoc .., hquery⟩
    · exact ⟨es, [], rfl, hmissed, hans, hsince⟩

/-- What a request holds no more than `D` after its query is for its `SETEX` to store. -/
theorem exists_stores {i since : Nat} (h : (run (step json) (.new db) es).tasks i = some (.fetched k a since))
    (hD : (run (step json) (.new db) es).now ≤ since + D) :
    ∃ es₁ es₂, es = es₁ ++ .select i .served :: es₂ ∧ Stores json D (.new db) es₁ es₂ i k a := by
  obtain ⟨es₁, es₂, rfl, hmissed, hans, rfl⟩ := fetched_run es h
  exact ⟨es₁, es₂, rfl, hmissed, hans, h, hD⟩

omit [LE ρ] [DecidableLE ρ] in
theorem lookup_of_cached (h : s.cached json k = some a) :
    ∃ t, json.fromText k t = some a ∧ (view json s).lookup k = some t := by
  unfold State.cached at h
  split at h
  · rename_i x hx
    split at h
    · rename_i hlive
      refine ⟨x.text, h, ?_⟩
      unfold ReadThrough.Store.lookup view
      simp only [hx, Option.map_some, if_pos hlive]
    · exact nomatch h
  · exact nomatch h

/-- Where no removal of the key is seen, nothing deletes it. -/
theorem keeps_of_seen (h : ∀ gone, ReadThrough.Event.drop gone ∈ seen (step json) events s es → gone k = false) :
    Each (step json) (fun s e => ¬ Deletes k s e) s es := by
  have hseen : ∀ x ∈ seen (step json) events s es, ∀ gone, x = ReadThrough.Event.drop gone → gone k = false := by
    rintro x hx gone rfl
    exact h gone hx
  refine each_of_keeps (I := fun _ => True) (fun _ _ _ _ => trivial) (fun s' e _ hnone hdel => ?_) trivial
    (each_of_seen hseen)
  obtain ⟨gone, hmem, hgone⟩ := drop_of_deletes hdel
  rw [hnone _ hmem gone rfl] at hgone
  exact nomatch hgone

theorem within_run (hD : Each (step json) (Within D) (.new db) es) :
    Each (ReadThrough.step (look json) ttlMillis) (ReadThrough.Within D) (.new db)
      (seen (step json) events (.new db) es) := by
  refine ((simulates json).each (s := .new db) trivial (each_true _ es)).2 ?_
  exact each_of_keeps (I := fun _ => True) (fun _ _ _ _ => trivial) (fun _ _ _ h => within_events h) trivial hD

/-- What is found in the cache, by a step that takes no time. -/
theorem cached_recent {e : Event ρ} (hD : Each (step json) (Within D) (.new db) es)
    (h : (run (step json) (.new db) es).cached json k = some a) (hnow : ∀ s, (step json s e).now = s.now)
    (hkeep : ∀ s, ¬ Deletes (τ := τ) k s e) : Recent json D (.new db) (es ++ [e]) k a := by
  obtain ⟨text, hfrom, hlookup⟩ := lookup_of_cached h
  rw [view_run json] at hlookup
  obtain ⟨t, ht, i, since, l, l', hseen, hheld, -, hstored, -, hdrop⟩ :=
    ReadThrough.lookup_recent (within_run hD) hlookup
  -- the run is cut where the storing is seen
  obtain ⟨es', e', es₃, rfl, hl, hev, hl'⟩ := exists_of_seen_cons events_length hseen
  obtain ⟨fate, k', a₀, since', rfl, hfate, hi⟩ := set_of_events hev
  rw [← hl, ← view_run json] at hheld hstored
  rw [← view_run json, ← hstored] at ht
  rw [held_fetched hi] at hheld
  obtain ⟨text', hto, hread⟩ := Option.map_eq_some_iff.1 hheld
  obtain ⟨rfl, rfl, rfl⟩ := ReadThrough.Read.mk.inj hread
  have hlate : Within D (run (step json) (.new db) es') (.set i fate) := (each_append.1 hD).2.1
  obtain ⟨es₁, es₂, rfl, hstores⟩ := exists_stores hi (hlate _ _ _ hi)
  rw [← hl'] at hdrop
  refine ⟨i, fate, es₁, es₂, es₃ ++ [e], a₀, List.append_assoc .., hstores, .inr ⟨_, hto, hfrom⟩,
    fun hrefused => absurd hrefused hfate, ?_, each_append.2 ⟨?_, hkeep _, trivial⟩⟩
  · rw [run_snoc, hnow]
    exact ht
  · rw [run_snoc]
    exact keeps_of_seen hdrop

omit [LE ρ] [DecidableLE ρ] in
theorem within_mono {D' : Nat} (hle : D ≤ D') {e : Event ρ} (h : Within D s e) : Within D' s e := by
  cases e with
  | set i fate =>
    intro k a since hi
    have hlate := h k a since hi
    omega
  | _ => trivial

omit [LE ρ] [DecidableLE ρ] in
/-- What is answered is cached, or was fetched by the request. -/
theorem answer_cases {e : Event ρ} (h : answer json s e = some (k, a)) :
    (∃ i fate, e = .get i k fate ∧ s.cached json k = some a) ∨
      ∃ i fate since, e = .set i fate ∧ s.tasks i = some (.fetched k a since) := by
  cases e with
  | get i k' fate =>
    simp only [answer] at h
    split at h
    · obtain ⟨a', ha', heq⟩ := Option.map_eq_some_iff.1 h
      obtain ⟨rfl, rfl⟩ := Prod.mk.inj heq
      exact .inl ⟨i, fate, rfl, ha'⟩
    · exact nomatch h
  | set i fate =>
    simp only [answer] at h
    split at h
    · rename_i k' a' since hi
      obtain ⟨rfl, rfl⟩ := Prod.mk.inj (Option.some.inj h)
      exact .inr ⟨i, fate, since, rfl, hi⟩
    · exact nomatch h
  | _ => exact nomatch h

theorem now_get (s : State τ ρ) (i : Nat) (k : Key) (fate : Fate) :
    (step json s (.get i k fate)).now = s.now := by
  simp only [step]
  split <;> rfl

theorem now_set (s : State τ ρ) (i : Nat) (fate : Fate) : (step json s (.set i fate)).now = s.now := by
  simp only [step]
  split <;> rfl

/-- **What is answered is recent**: it was in the database at the query of a request, whose `SETEX` came
no more than `D` later; and it is answered by that request, or in the time to live of its key after the
`SETEX` and with the key not deleted in between. -/
theorem answers_recent {e : Event ρ} (hD : Each (step json) (Within D) (.new db) (es ++ [e]))
    (h : answer json (run (step json) (.new db) es) e = some (k, a)) :
    Recent json D (.new db) (es ++ [e]) k a := by
  obtain ⟨hes, he, -⟩ := each_append.1 hD
  rcases answer_cases h with ⟨i, fate, rfl, hcached⟩ | ⟨i, fate, since, rfl, hi⟩
  · exact cached_recent hes hcached (fun s => now_get s i k fate) fun _ hdel => hdel
  · obtain ⟨es₁, es₂, rfl, hstores⟩ := exists_stores hi (he _ _ _ hi)
    refine ⟨i, fate, es₁, es₂, [], a, rfl, hstores, .inl rfl, fun _ => rfl, ?_, trivial⟩
    rw [run_snoc, now_set]
    exact Nat.le_add_right _ _

/-! ## Markets -/

theorem market_step {m : Answer ρ} {marketId : StoredId} {e : Event ρ}
    (h : s.db.answer (.market marketId) = some m) : (step json s e).db.answer (.market marketId) = some m := by
  cases e with
  | createMarket row =>
    simp only [step, Db.insertMarket]
    split
    · exact h
    · obtain ⟨m', hm', rfl⟩ := Option.map_eq_some_iff.1 h
      simp only [Db.answer, List.find?_append, hm']
      rfl
  | get i k fate =>
    simp only [step]
    split <;> exact h
  | select i fate =>
    simp only [step]
    split
    · split <;> exact h
    · exact h
  | set i fate =>
    simp only [step]
    split <;> exact h
  | invalidate k fate =>
    simp only [step]
    split <;> exact h
  | del j fate =>
    simp only [step]
    split <;> exact h
  | _ => exact h

theorem market_run {m : Answer ρ} {marketId : StoredId} {es₁ : List (Event ρ)} (es₂ : List (Event ρ))
    (h : (run (step json) (.new db) es₁).db.answer (.market marketId) = some m) :
    (run (step json) (.new db) (es₁ ++ es₂)).db.answer (.market marketId) = some m := by
  rw [run_append]
  exact run_keeps (I := fun s : State τ ρ => s.db.answer (.market marketId) = some m)
    (fun _ _ h _ => market_step h) h (each_true _ _)

/-- A step that answers changes nothing in the database. -/
theorem db_answer {e : Event ρ} (h : answer json s e = some (k, a)) : (step json s e).db = s.db := by
  rcases answer_cases h with ⟨i, fate, rfl, -⟩ | ⟨i, fate, since, rfl, -⟩ <;>
  · simp only [step]
    split <;> rfl

variable (json) in
/-- There is always a longest time. -/
theorem exists_within (s : State τ ρ) (es : List (Event ρ)) : ∃ D, Each (step json) (Within D) s es := by
  induction es generalizing s with
  | nil => exact ⟨0, trivial⟩
  | cons e es ih =>
    obtain ⟨D, hD⟩ := ih (step json s e)
    have hmono : ∀ {D'}, D ≤ D' → Each (step json) (Within D') (step json s e) es := fun hle =>
      each_of_keeps (I := fun _ => True) (fun _ _ _ _ => trivial)
        (fun _ _ _ h => within_mono hle h) trivial hD
    refine ⟨max s.now D, ?_, hmono (le_max_right _ _)⟩
    cases e with
    | set i fate =>
      intro k a since _
      have hle := le_max_left s.now D
      omega
    | _ => trivial

/-- **What is answered for a market is what the database holds.** -/
theorem market_current {e : Event ρ} {marketId : StoredId}
    (h : answer json (run (step json) (.new db) es) e = some (.market marketId, a)) :
    ∃ m, (run (step json) (.new db) es).db.answer (.market marketId) = some m ∧
      json.Gives (.market marketId) m a := by
  obtain ⟨D, hD⟩ := exists_within json (.new db) (es ++ [e])
  obtain ⟨i, fate, es₁, es₂, es₃, m, hsplit, hstores, hgives, -⟩ := answers_recent hD h
  refine ⟨m, ?_, hgives⟩
  have hkept := market_run (.select i .served :: es₂ ++ .set i fate :: es₃) hstores.answered
  rw [← List.append_assoc, ← hsplit, run_snoc, db_answer h] at hkept
  exact hkept

end View

/-! ## A run -/

/-- Answers stored as they are. -/
def demoJson : Json (Answer Nat) Nat := ⟨some, fun _ t => some t⟩

def demoDb : Db Nat := ⟨[⟨1, 7, .USDC, 100, 0, 0⟩], [], []⟩

/-- A request stores what it read before a withdrawal, after the key was deleted for it. -/
def demoRun : List (Event Nat) :=
  [.get 0 (.balances 7) .served, .select 0 .served, .balances [⟨1, 7, .USDC, 40, 0, 5⟩],
    .invalidate (.balances 7) .served, .tick 3, .set 0 .served, .tick 10000]

theorem demo_recent : Recent demoJson 3 (.new demoDb) (demoRun ++ [.get 1 (.balances 7) .served])
    (.balances 7) (.balances [⟨1, 7, .USDC, 100, 0, 0⟩]) := by
  refine answers_recent (e := .get 1 (.balances 7) .served)
    ⟨trivial, trivial, trivial, trivial, trivial, fun k a since h => ?_, trivial, trivial, trivial⟩
    (by decide +kernel)
  obtain ⟨-, -, rfl⟩ := Task.fetched.inj (Option.some.inj h)
  decide

def demoMarket (id : Uuid) (base : Asset) : MarketRow Nat where
  id := id
  baseAsset := base
  quoteAsset := .USDC
  tickSize := 1
  minOrderSize := 1
  chain := "ethereum"
  baseTokenMint := none
  feeRate := 0
  settlementContract := none
  quoteTokenMint := none
  baseDecimals := 18
  quoteDecimals := 6
  createdAt := 0

/-- A market is cached, then another one is created. -/
def demoMarkets : List (Event Nat) :=
  [.createMarket (demoMarket 3 .ETH), .get 0 (.market 3) .served, .select 0 .served, .set 0 .served,
    .createMarket (demoMarket 4 .BTC)]

theorem demo_market : ∃ m, (run (step demoJson) (.new demoDb) demoMarkets).db.answer (.market 3) = some m ∧
    demoJson.Gives (.market 3) m (.market (demoMarket 3 .ETH)) :=
  market_current (e := .get 1 (.market 3) .served) (by decide +kernel)

end IntentX.Cache
