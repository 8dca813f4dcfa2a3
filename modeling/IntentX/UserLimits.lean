import IntentX.LockAccounting
import IntentX.Lib.Machine
import IntentX.Lib.Quota

/-!
# The limits of a user

The risk engine keeps, for every user, the times of the latest intents and the volume of the day.
`check_user_limits` is the last of the checks of `create_intent`; `record_accepted_intent` comes after
its transaction, with other readings of the clocks.  `createIntent` here is the one of
`IntentX.Intents` with these two calls in their places (`createIntent_forget`).

The database and Redis may answer a call in any way, and others may use them in between; what is
counted is what the engine recorded.  The entry of a user agrees with the record on everything that a
later check can ask for (`Tracks`), and what is recorded has just been checked (`Room`), a check that
only gets easier as time passes.
-/

namespace IntentX.RiskEngine

open Lib Quota

/-! ## Activity -/

/-- A second, on either clock. -/
abbrev second : Int := 1000000000

/-- `date_naive` of a time in UTC. -/
def dateNaive (wall : Int) : Int := wall / (86400 * second)

theorem dateNaive_mono {t t' : Int} (h : t ≤ t') : dateNaive t ≤ dateNaive t' :=
  Int.ediv_le_ediv (by decide) h

structure UserActivity where
  recentIntents : List Int
  dailyVolume : UInt64
  dayStart : Int
  deriving Repr, DecidableEq

namespace UserActivity

def new (wall : Int) : UserActivity := ⟨[], 0, dateNaive wall⟩

def resetIfNewDay (a : UserActivity) (wall : Int) : UserActivity :=
  let today := dateNaive wall
  if today ≠ a.dayStart then { a with dailyVolume := 0, dayStart := today } else a

def pruneOldIntents (a : UserActivity) (mono : Int) : UserActivity :=
  let cutoff := mono - 60 * second
  { a with recentIntents := a.recentIntents.filter fun t => t > cutoff }

end UserActivity

abbrev Activity := String → Option UserActivity

structure Limits where
  maxIntentsPerMinute : UInt64
  dailyVolumeLimit : UInt64
  deriving Repr, DecidableEq

/-- An intent that was recorded as accepted, with the readings it was recorded with. -/
structure Accepted where
  userId : String
  amount : UInt64
  wall : Int
  mono : Int
  deriving Repr, DecidableEq

/-- The database and the risk engine.  The clocks only go forward.  `accepted` is what was recorded,
the latest first, and `overflowed` is set when an addition of the engine leaves 64 bits. -/
structure Engine where
  world : World
  activity : Activity
  wall : Int
  mono : Int
  accepted : List Accepted
  overflowed : Bool

/-- How far a clock gets before each reading of a call: the wall clock for a new entry, the monotonic
clock, and the wall clock for the day. -/
structure Pace where
  entry : Nat
  instant : Nat
  day : Nat
  deriving Repr, DecidableEq

namespace Engine

def start (w : World) (wall mono : Int) : Engine := ⟨w, fun _ => none, wall, mono, [], false⟩

/-- `.entry(user_id).or_insert_with(UserActivity::new)` -/
def entry (e : Engine) (userId : String) : UserActivity :=
  (e.activity userId).getD (.new e.wall)

/-- A write through the entry. -/
def modify (e : Engine) (userId : String) (f : UserActivity → UserActivity) : Engine :=
  { e with activity := fun u => if u = userId then some (f (e.entry userId)) else e.activity u }

theorem entry_modify (e : Engine) (userId : String) (f : UserActivity → UserActivity) :
    (e.modify userId f).entry userId = f (e.entry userId) := by
  simp only [entry, modify, if_pos, Option.getD_some]

def passWall (e : Engine) (d : Nat) : Engine := { e with wall := e.wall + d }

def passMono (e : Engine) (d : Nat) : Engine := { e with mono := e.mono + d }

/-- An addition of two numbers of 64 bits. -/
def adds (e : Engine) (x y : UInt64) : Engine :=
  { e with overflowed := e.overflowed || decide (2 ^ 64 ≤ x.toNat + y.toNat) }

end Engine

def checkUserLimits (lim : Limits) (pace : Pace) (userId : String) (amount : UInt64) (e : Engine) :
    Except RiskRejection Unit × Engine :=
  let e := (e.passWall pace.entry).modify userId id
  let e := e.passMono pace.instant
  let e := e.modify userId (·.pruneOldIntents e.mono)
  if (e.entry userId).recentIntents.length ≥ lim.maxIntentsPerMinute.toNat then
    (.error (.RateLimitExceeded lim.maxIntentsPerMinute), e)
  else
    let e := e.passWall pace.day
    let e := e.modify userId (·.resetIfNewDay e.wall)
    let used := (e.entry userId).dailyVolume
    let e := e.adds used amount
    if used + amount > lim.dailyVolumeLimit then
      (.error (.DailyVolumeLimitExceeded used lim.dailyVolumeLimit), e)
    else (.ok (), e)

def UserActivity.push (a : UserActivity) (mono : Int) : UserActivity :=
  { a with recentIntents := a.recentIntents ++ [mono] }

/-- A push changes the list of times only. -/
theorem UserActivity.resetIfNewDay_push (a : UserActivity) (mono wall : Int) :
    (a.push mono).resetIfNewDay wall = (a.resetIfNewDay wall).push mono := by
  unfold resetIfNewDay
  by_cases hnew : dateNaive wall ≠ a.dayStart
  · rw [if_pos hnew]
    exact if_pos hnew
  · rw [if_neg hnew]
    exact if_neg hnew

def UserActivity.add (a : UserActivity) (amount : UInt64) : UserActivity :=
  { a with dailyVolume := a.dailyVolume + amount }

def recordAcceptedIntent (pace : Pace) (userId : String) (amount : UInt64) (e : Engine) : Engine :=
  let e := (e.passWall pace.entry).modify userId id
  let e := e.passMono pace.instant
  let e := e.modify userId (·.push e.mono)
  let e := e.passWall pace.day
  let e := e.modify userId (·.resetIfNewDay e.wall)
  let e := e.adds (e.entry userId).dailyVolume amount
  let e := e.modify userId (·.add amount)
  { e with accepted := ⟨userId, amount, e.wall, e.mono⟩ :: e.accepted }

/-! ## `create_intent` with the counters -/

inductive Op where
  | act (o : Act)
  | checkUserLimits (userId : String) (amount : UInt64)
  | recordAcceptedIntent (userId : String) (amount : UInt64)

abbrev Op.Reply : Op → Type
  | .act o => o.Reply
  | _ => Unit

inductive OpError where
  | act (e : ActError)
  | risk (r : RiskRejection)
  deriving DecidableEq, Repr

/-- How an error reaches the caller of the intent service. -/
def OpError.toIntent : OpError → IntentError
  | .act e => e.toIntent
  | .risk r => .RiskRejected r.text

/-- A call of `create_intent`: its arguments, what the risk engine reads, and the two paces. -/
structure Request where
  env : Env
  view : RiskView
  userId : String
  accountId : Uuid
  tokenIn : String
  tokenOut : String
  amountIn : UInt64
  minAmountOut : UInt64
  deadline : Int
  check : Pace
  record : Pace

def Request.params (r : Request) : IntentRiskParams :=
  ⟨r.userId, r.accountId, r.tokenIn, r.tokenOut, r.amountIn, r.minAmountOut⟩

/-- The intent the call creates. -/
def Request.intent (r : Request) : Intent :=
  Intent.new (r.env.uuid 0) r.userId r.tokenIn r.tokenOut r.amountIn r.minAmountOut r.deadline
    (r.env.now 0)

abbrev Service (α : Type) := Call Op Op.Reply OpError IntentError α

def act (o : Act) : Service o.Reply := Call.op (Op.act o) OpError.toIntent

def trySend (o : Act) : Service (Option o.Reply) := Call.attempt (Op.act o)

def check (userId : String) (amount : UInt64) : Service Unit :=
  Call.op (Op.checkUserLimits userId amount) OpError.toIntent

def record (userId : String) (amount : UInt64) : Service Unit :=
  Call.op (Op.recordAcceptedIntent userId amount) OpError.toIntent

/-- `validate_intent` up to the limits of the user, which it looks at last. -/
def Request.validate (r : Request) : Except RiskRejection Market :=
  validateIntent { r.view with userLimits := none } r.params

def createIntent (r : Request) : Service Intent := do
  match r.validate with
  | .error e => throw (.RiskRejected e.text)
  | .ok _ => do
    check r.userId r.amountIn
    let asset ← Call.orThrow (parseAsset r.tokenIn) (.InvalidAsset (upperText r.tokenIn))
    act (.tx (.create r.accountId asset (asI64 r.amountIn) (r.env.now 1) r.intent))
    record r.userId r.amountIn
    act (.publish (.IntentCreated r.intent))
    let _ ← trySend (.stream (.intentCreated r.intent))
    return r.intent

/-- What the database and Redis do with an act. -/
abbrev Acts := Handler Act Act.Reply ActError World

def exec (lim : Limits) (check record : Pace) (acts : Acts) :
    (o : Op) → Engine → Except OpError o.Reply × Engine
  | .act o, e => ((acts o e.world).1.mapError .act, { e with world := (acts o e.world).2 })
  | .checkUserLimits userId amount, e =>
    ((checkUserLimits lim check userId amount e).1.mapError .risk,
      (checkUserLimits lim check userId amount e).2)
  | .recordAcceptedIntent userId amount, e => (.ok (), recordAcceptedIntent record userId amount e)

/-- `validate_intent` is its first checks and then the limits of the user. -/
theorem validateIntent_limits (view : RiskView) (p : IntentRiskParams) (r : Option RiskRejection) :
    validateIntent { view with userLimits := r } p =
      validateIntent { view with userLimits := none } p >>= fun m =>
        rejectWith r >>= fun _ => pure m := by
  unfold validateIntent
  rcases parseAsset p.tokenIn with _ | assetIn
  · rfl
  rcases parseAsset p.tokenOut with _ | assetOut
  · rfl
  rcases hm : view.markets.bind (findMarket · assetIn assetOut) with _ | market
  · simp only [hm]
    rfl
  simp only [hm]
  have hb : checkBalance { view with userLimits := r } assetIn p.amountIn =
      checkBalance { view with userLimits := none } assetIn p.amountIn := rfl
  rw [hb]
  simp only [bind_assoc]
  rfl

theorem checkUserLimits_world (lim : Limits) (pace : Pace) (userId : String) (amount : UInt64)
    (e : Engine) : (checkUserLimits lim pace userId amount e).2.world = e.world := by
  simp only [checkUserLimits]
  split
  · rfl
  · split <;> rfl

section Forget

variable {lim : Limits} {p q : Pace} {acts : Acts} {α β : Type}

/-- The service does to the database and answers what the task does. -/
def Forgets (lim : Limits) (p q : Pace) (acts : Acts) (c : Service α) (t : Task IntentError α)
    (e : Engine) : Prop :=
  Prod.map id Engine.world (Call.exec (exec lim p q acts) c e) = Call.exec acts t e.world

theorem forgets_bind {c : Service α} {t : Task IntentError α} {f : α → Service β}
    {g : α → Task IntentError β} {e : Engine} (h : Forgets lim p q acts c t e)
    (hf : ∀ a e, Forgets lim p q acts (f a) (g a) e) :
    Forgets lim p q acts (c >>= f) (t >>= g) e := by
  unfold Forgets at h ⊢
  rw [Call.exec_bind, Call.exec_bind, ← h]
  rcases Call.exec (exec lim p q acts) c e with ⟨r, e'⟩
  cases r with
  | error x => rfl
  | ok a => exact hf a e'

theorem forgets_act (o : Act) (e : Engine) :
    Forgets lim p q acts (act o) (IntentX.act o) e := by
  refine Prod.ext ?_ rfl
  show Except.mapError _ (Except.mapError _ (acts o e.world).1) = Except.mapError _ (acts o e.world).1
  cases (acts o e.world).1 <;> rfl

theorem forgets_trySend (o : Act) (e : Engine) :
    Forgets lim p q acts (trySend o) (IntentX.trySend o) e := by
  refine Prod.ext ?_ rfl
  show Except.ok (Except.mapError _ (acts o e.world).1).toOption = Except.ok (acts o e.world).1.toOption
  cases (acts o e.world).1 <;> rfl

theorem forgets_orThrow (o : Option α) (x : IntentError) (e : Engine) :
    Forgets lim p q acts (Call.orThrow o x) (Call.orThrow o x) e := by
  cases o <;> rfl

/-- The rejection, if that is the answer. -/
def rejection : Except RiskRejection Unit → Option RiskRejection
  | .error r => some r
  | .ok _ => none

/-- Without the counters the call is the one of the intent service, told what the limits of the user
say. -/
theorem createIntent_forget (lim : Limits) (r : Request) (acts : Acts) (e : Engine) :
    Forgets lim r.check r.record acts (createIntent r)
      (IntentX.createIntent r.env
        { r.view with userLimits := rejection (checkUserLimits lim r.check r.userId r.amountIn e).1 }
        r.userId r.accountId r.tokenIn r.tokenOut r.amountIn r.minAmountOut r.deadline) e := by
  have hval : ∀ x, validateIntent { r.view with userLimits := x } r.params =
      r.validate >>= fun m => rejectWith x >>= fun _ => pure m := validateIntent_limits _ _
  simp only [Request.params] at hval
  unfold IntentX.createIntent createIntent
  rw [hval]
  rcases r.validate with err | m
  · rfl
  have hw := checkUserLimits_world lim r.check r.userId r.amountIn e
  have hcheck : Call.exec (exec lim r.check r.record acts) (check r.userId r.amountIn) e =
      ((checkUserLimits lim r.check r.userId r.amountIn e).1.mapError fun x => .RiskRejected x.text,
        (checkUserLimits lim r.check r.userId r.amountIn e).2) := by
    show (Except.mapError _ (Except.mapError _ _), _) = _
    cases (checkUserLimits lim r.check r.userId r.amountIn e).1 <;> rfl
  unfold Forgets
  dsimp only
  rw [Call.exec_bind, hcheck, ← hw]
  rcases checkUserLimits lim r.check r.userId r.amountIn e with ⟨res, e₁⟩
  cases res with
  | error x => rfl
  | ok _ =>
    show Forgets lim r.check r.record acts _ _ e₁
    refine forgets_bind (forgets_orThrow _ _ e₁) fun asset e₂ => ?_
    refine forgets_bind (forgets_act _ e₂) fun _ e₃ => ?_
    -- recording touches nothing but the counters
    show Forgets lim r.check r.record acts _ _ (recordAcceptedIntent r.record r.userId r.amountIn e₃)
    refine forgets_bind (forgets_act _ _) fun _ e₄ => ?_
    exact forgets_bind (forgets_trySend _ e₄) fun _ _ => rfl

end Forget

/-! ## The record -/

def Accepted.day (x : Accepted) : Int := dateNaive x.wall

/-- What was recorded for a user. -/
def ofUser (l : List Accepted) (userId : String) : List Accepted :=
  l.filter fun x => x.userId = userId

/-- The volume of a day. -/
def volume (l : List Accepted) (day : Int) : Nat :=
  total (fun x => decide (x.day = day)) (fun x => x.amount.toNat) l

theorem volume_cons (x : Accepted) (l : List Accepted) (day : Int) :
    volume (x :: l) day = (if x.day = day then x.amount.toNat else 0) + volume l day := by
  unfold volume
  rw [total_cons]
  simp only [decide_eq_true_eq]

theorem volume_eq_zero {l : List Accepted} {day : Int} (h : ∀ x ∈ l, x.day < day) :
    volume l day = 0 :=
  total_eq_zero fun x hx => decide_eq_false (Int.ne_of_lt (h x hx))

/-- The entry of a user agrees with the record on what a check from now on looks at: how many intents
are later than a cutoff that is at most a minute back, and the volume of the latest day. -/
structure Tracks (l : List Accepted) (a : UserActivity) (wall mono : Int) : Prop where
  recent : ∀ m, mono - 60 * second ≤ m →
    a.recentIntents.countP (fun t => m < t) = l.countP fun x => m < x.mono
  volume : a.dailyVolume.toNat = volume l a.dayStart
  days : ∀ x ∈ l, x.day ≤ a.dayStart
  today : a.dayStart ≤ dateNaive wall

namespace Tracks

variable {l : List Accepted} {a : UserActivity} {wall wall' mono mono' : Int}

theorem later (h : Tracks l a wall mono) (hw : wall ≤ wall') (hm : mono ≤ mono') :
    Tracks l a wall' mono' :=
  ⟨fun m hle => h.recent m (by omega), h.volume, h.days, h.today.trans (dateNaive_mono hw)⟩

theorem prune (h : Tracks l a wall mono) : Tracks l (a.pruneOldIntents mono) wall mono := by
  refine ⟨fun m hle => ?_, h.volume, h.days, h.today⟩
  rw [← h.recent m hle]
  simp only [UserActivity.pruneOldIntents, List.countP_filter]
  refine List.countP_congr fun t _ => ?_
  simp only [Bool.and_eq_true, decide_eq_true_eq]
  omega

/-- After a prune the list has the intents of the last minute. -/
theorem length_prune (h : Tracks l a wall mono) :
    (a.pruneOldIntents mono).recentIntents.length =
      l.countP fun x => mono - 60 * second < x.mono := by
  rw [← h.recent _ (le_refl _), List.countP_eq_length_filter]
  rfl

theorem dayStart_reset (a : UserActivity) (wall : Int) :
    (a.resetIfNewDay wall).dayStart = dateNaive wall := by
  simp only [UserActivity.resetIfNewDay]
  split
  · rfl
  · next hsame => exact (not_not.1 hsame).symm

theorem reset (h : Tracks l a wall mono) : Tracks l (a.resetIfNewDay wall) wall mono := by
  simp only [UserActivity.resetIfNewDay]
  split
  · next hnew =>
    have hlt : ∀ x ∈ l, x.day < dateNaive wall := fun x hx =>
      lt_of_le_of_lt (h.days x hx) (lt_of_le_of_ne h.today (Ne.symm hnew))
    exact ⟨h.recent, (volume_eq_zero hlt).symm, fun x hx => (hlt x hx).le, le_refl _⟩
  · exact h

end Tracks

/-- The engine has kept to the limits so far, and its entries say what it will need. -/
structure Sound (lim : Limits) (e : Engine) : Prop where
  tracks : ∀ u t, e.wall ≤ t → Tracks (ofUser e.accepted u) ((e.activity u).getD (.new t)) t e.mono
  volume : ∀ u day, volume (ofUser e.accepted u) day ≤ lim.dailyVolumeLimit.toNat
  sparse : ∀ u, Sparse Accepted.mono (60 * second) lim.maxIntentsPerMinute.toNat
    (ofUser e.accepted u)
  fits : e.overflowed = false

/-- There is room for an intent of the user, now and later. -/
structure Room (lim : Limits) (e : Engine) (userId : String) (amount : UInt64) : Prop where
  few : (ofUser e.accepted userId).countP (fun x => e.mono - 60 * second < x.mono) <
    lim.maxIntentsPerMinute.toNat
  covered : ∀ day, dateNaive e.wall ≤ day →
    RiskEngine.volume (ofUser e.accepted userId) day + amount.toNat ≤ lim.dailyVolumeLimit.toNat

section Steps

variable {lim : Limits} {e : Engine} {userId : String} {amount : UInt64} {pace : Pace}

theorem sound_start (lim : Limits) (w : World) (wall mono : Int) :
    Sound lim (.start w wall mono) where
  tracks := fun _ _ _ => ⟨fun _ _ => rfl, rfl, fun _ hx => (nomatch hx), le_refl _⟩
  volume := fun _ _ => Nat.zero_le _
  sparse := fun _ => sparse_nil
  fits := rfl

theorem Sound.passWall (h : Sound lim e) (d : Nat) : Sound lim (e.passWall d) where
  tracks := fun u t ht => h.tracks u t (by simp only [Engine.passWall] at ht; omega)
  volume := h.volume
  sparse := h.sparse
  fits := h.fits

theorem Sound.passMono (h : Sound lim e) (d : Nat) : Sound lim (e.passMono d) where
  tracks := fun u t ht => (h.tracks u t ht).later (le_refl t) (by simp only [Engine.passMono]; omega)
  volume := h.volume
  sparse := h.sparse
  fits := h.fits

theorem Sound.entry (h : Sound lim e) (userId : String) :
    Tracks (ofUser e.accepted userId) (e.entry userId) e.wall e.mono :=
  h.tracks userId e.wall (le_refl _)

/-- An entry may be replaced by one that tracks the record as well. -/
theorem Sound.modify (h : Sound lim e) (userId : String) (f : UserActivity → UserActivity)
    (hf : ∀ a, Tracks (ofUser e.accepted userId) a e.wall e.mono →
      Tracks (ofUser e.accepted userId) (f a) e.wall e.mono) : Sound lim (e.modify userId f) where
  tracks := by
    intro u t ht
    simp only [Engine.modify]
    by_cases hu : u = userId
    · subst hu
      rw [if_pos rfl]
      exact (hf _ (h.entry u)).later ht (le_refl _)
    · rw [if_neg hu]
      exact h.tracks u t ht
  volume := h.volume
  sparse := h.sparse
  fits := h.fits

theorem Sound.adds (h : Sound lim e) {x y : UInt64} (hlt : x.toNat + y.toNat < 2 ^ 64) :
    Sound lim (e.adds x y) where
  tracks := h.tracks
  volume := h.volume
  sparse := h.sparse
  fits := by simp only [Engine.adds, h.fits, Bool.false_or, decide_eq_false_iff_not]; omega

theorem Room.passWall (h : Room lim e userId amount) (d : Nat) :
    Room lim (e.passWall d) userId amount where
  few := h.few
  covered := fun day hd => h.covered day
    ((dateNaive_mono (by simp only [Engine.passWall]; omega)).trans hd)

theorem Room.passMono (h : Room lim e userId amount) (d : Nat) :
    Room lim (e.passMono d) userId amount where
  few := by
    have hle : e.mono ≤ (e.passMono d).mono := by simp only [Engine.passMono]; omega
    refine lt_of_le_of_lt (List.countP_mono_left fun x _ hx => ?_) h.few
    simp only [decide_eq_true_eq] at hx ⊢
    omega
  covered := h.covered

/-- An addition below the limits is exact. -/
theorem toNat_add_of_lt {x y : UInt64} (h : x.toNat + y.toNat < 2 ^ 64) :
    (x + y).toNat = x.toNat + y.toNat := by
  rw [UInt64.toNat_add]
  exact Nat.mod_eq_of_lt h

/-- An entry of today that covers the amount has room for it on every later day. -/
theorem Tracks.covered {l : List Accepted} {a : UserActivity} {wall mono : Int}
    (h : Tracks l a wall mono) (hday : a.dayStart = dateNaive wall)
    (hle : a.dailyVolume.toNat + amount.toNat ≤ lim.dailyVolumeLimit.toNat) (day : Int)
    (hd : dateNaive wall ≤ day) :
    RiskEngine.volume l day + amount.toNat ≤ lim.dailyVolumeLimit.toNat := by
  rcases eq_or_lt_of_le hd with rfl | hlt
  · rw [← hday, ← h.volume]
    exact hle
  · rw [volume_eq_zero fun x hx => lt_of_le_of_lt (h.days x hx) (hday ▸ hlt)]
    omega

theorem checkUserLimits_spec (hlim : lim.dailyVolumeLimit.toNat < 2 ^ 63) (pace : Pace)
    (userId : String) (hx : amount.toNat < 2 ^ 63) (h : Sound lim e) :
    Sound lim (checkUserLimits lim pace userId amount e).2 ∧
      ((checkUserLimits lim pace userId amount e).1 = .ok () →
        Room lim (checkUserLimits lim pace userId amount e).2 userId amount) := by
  simp only [checkUserLimits]
  have h₁ : Sound lim (((e.passWall pace.entry).modify userId id).passMono pace.instant) :=
    ((h.passWall _).modify userId id fun _ ha => ha).passMono _
  generalize ((e.passWall pace.entry).modify userId id).passMono pace.instant = e₁ at h₁ ⊢
  have h₂ : Sound lim (e₁.modify userId (·.pruneOldIntents e₁.mono)) :=
    h₁.modify userId _ fun _ ha => ha.prune
  split
  · exact ⟨h₂, fun hok => (nomatch hok)⟩
  next hfew =>
  rw [Engine.entry_modify, (h₁.entry userId).length_prune] at hfew
  have h₃ := h₂.passWall pace.day
  have hfew : (ofUser ((e₁.modify userId (·.pruneOldIntents e₁.mono)).passWall pace.day).accepted
      userId).countP (fun x => ((e₁.modify userId (·.pruneOldIntents e₁.mono)).passWall
        pace.day).mono - 60 * second < x.mono) < lim.maxIntentsPerMinute.toNat :=
    Nat.lt_of_not_le hfew
  generalize (e₁.modify userId (·.pruneOldIntents e₁.mono)).passWall pace.day = e₃ at h₃ hfew ⊢
  have ht := (h₃.entry userId).reset
  have hused : ((e₃.entry userId).resetIfNewDay e₃.wall).dailyVolume.toNat ≤
      lim.dailyVolumeLimit.toNat := ht.volume ▸ h₃.volume userId _
  have hsum : ((e₃.entry userId).resetIfNewDay e₃.wall).dailyVolume.toNat + amount.toNat < 2 ^ 64 := by
    omega
  have h₄ := (h₃.modify userId (·.resetIfNewDay e₃.wall) fun _ ha => ha.reset).adds hsum
  simp only [Engine.entry_modify]
  split
  · exact ⟨h₄, fun hok => (nomatch hok)⟩
  next hcov =>
  refine ⟨h₄, fun _ => ⟨hfew, ?_⟩⟩
  refine ht.covered (Tracks.dayStart_reset _ _) ?_
  rw [← toNat_add_of_lt hsum]
  exact UInt64.not_lt.1 hcov

/-- A further intent of the user, recorded with the readings it has. -/
theorem Tracks.record {l : List Accepted} {a : UserActivity} {x : Accepted}
    (h : Tracks l a x.wall x.mono)
    (hsum : (a.resetIfNewDay x.wall).dailyVolume.toNat + x.amount.toNat < 2 ^ 64) :
    Tracks (x :: l) (((a.push x.mono).resetIfNewDay x.wall).add x.amount) x.wall x.mono := by
  have hr := h.reset
  rw [UserActivity.resetIfNewDay_push]
  generalize hb : a.resetIfNewDay x.wall = b at hr hsum
  have hday : b.dayStart = x.day := hb ▸ dayStart_reset a x.wall
  refine ⟨fun m hle => ?_, ?_, ?_, hr.today⟩
  · show (b.recentIntents ++ [x.mono]).countP _ = _
    rw [List.countP_append, hr.recent m hle, List.countP_cons, List.countP_cons, List.countP_nil]
    omega
  · show (b.dailyVolume + x.amount).toNat = RiskEngine.volume (x :: l) b.dayStart
    rw [toNat_add_of_lt hsum, volume_cons, if_pos hday.symm, hr.volume]
    exact Nat.add_comm _ _
  · intro y hy
    rcases List.mem_cons.1 hy with rfl | hy
    · exact hday.ge
    · exact hr.days y hy

theorem Room.modify (h : Room lim e userId amount) (u : String) (f : UserActivity → UserActivity) :
    Room lim (e.modify u f) userId amount := ⟨h.few, h.covered⟩

theorem Room.adds (h : Room lim e userId amount) (x y : UInt64) :
    Room lim (e.adds x y) userId amount := ⟨h.few, h.covered⟩

/-- The engine with one more intent recorded and the entry of its user replaced. -/
def Engine.accept (e : Engine) (x : Accepted) (a : UserActivity) : Engine :=
  { e with
    activity := fun u => if u = x.userId then some a else e.activity u
    accepted := x :: e.accepted }

theorem ofUser_cons_self (x : Accepted) (l : List Accepted) :
    ofUser (x :: l) x.userId = x :: ofUser l x.userId := by
  simp [ofUser]

theorem ofUser_cons_ne {x : Accepted} {u : String} (hu : u ≠ x.userId) (l : List Accepted) :
    ofUser (x :: l) u = ofUser l u := by
  simp [ofUser, Ne.symm hu]

theorem Sound.accept {x : Accepted} {a : UserActivity} (h : Sound lim e)
    (hroom : Room lim e x.userId x.amount) (hwall : x.wall = e.wall) (hmono : x.mono = e.mono)
    (ha : Tracks (x :: ofUser e.accepted x.userId) a e.wall e.mono) : Sound lim (e.accept x a) := by
  constructor
  case tracks =>
    intro u t ht
    simp only [Engine.accept]
    by_cases hu : u = x.userId
    · subst hu
      rw [if_pos rfl, ofUser_cons_self]
      exact ha.later ht (le_refl _)
    · rw [if_neg hu, ofUser_cons_ne hu]
      exact h.tracks u t ht
  case volume =>
    intro u day
    simp only [Engine.accept]
    by_cases hu : u = x.userId
    · subst hu
      rw [ofUser_cons_self, volume_cons]
      split
      · next hday =>
        have hcov := hroom.covered day (by rw [← hday, ← hwall]; exact le_refl _)
        omega
      · rw [Nat.zero_add]
        exact h.volume _ day
    · rw [ofUser_cons_ne hu]
      exact h.volume u day
  case sparse =>
    intro u
    simp only [Engine.accept]
    by_cases hu : u = x.userId
    · subst hu
      rw [ofUser_cons_self]
      exact (h.sparse _).cons (by rw [hmono]; exact hroom.few)
    · rw [ofUser_cons_ne hu]
      exact h.sparse u
  case fits => exact h.fits

/-- The writes to the entry, put together. -/
theorem recordAcceptedIntent_eq (pace : Pace) (userId : String) (amount : UInt64) (e e₁ e₂ : Engine)
    (a : UserActivity) (h₁ : e₁ = ((e.passWall pace.entry).modify userId id).passMono pace.instant)
    (h₂ : e₂ = e₁.passWall pace.day)
    (ha : a = ((e₁.entry userId).push e₁.mono).resetIfNewDay e₂.wall) :
    recordAcceptedIntent pace userId amount e =
      (e₂.adds a.dailyVolume amount).accept ⟨userId, amount, e₂.wall, e₂.mono⟩ (a.add amount) := by
  subst h₁ h₂ ha
  simp only [recordAcceptedIntent, Engine.accept, Engine.modify, Engine.entry, Engine.passWall,
    Engine.passMono, Engine.adds, if_pos, Option.getD_some, id]
  congr 1
  funext u
  by_cases hu : u = userId
  · rw [if_pos hu, if_pos hu]
  · simp only [if_neg hu]

theorem recordAcceptedIntent_spec (hlim : lim.dailyVolumeLimit.toNat < 2 ^ 63) (pace : Pace)
    (h : Sound lim e) (hroom : Room lim e userId amount) :
    Sound lim (recordAcceptedIntent pace userId amount e) := by
  rw [recordAcceptedIntent_eq pace userId amount e _ _ _ rfl rfl rfl]
  have h₁ : Sound lim (((e.passWall pace.entry).modify userId id).passMono pace.instant) :=
    ((h.passWall _).modify userId id fun _ ha => ha).passMono _
  have hroom₁ : Room lim (((e.passWall pace.entry).modify userId id).passMono pace.instant) userId
      amount := ((hroom.passWall _).modify userId id).passMono _
  generalize ((e.passWall pace.entry).modify userId id).passMono pace.instant = e₁ at h₁ hroom₁ ⊢
  have ht : Tracks (ofUser e₁.accepted userId) (e₁.entry userId) (e₁.passWall pace.day).wall
      e₁.mono := (h₁.entry userId).later (by simp only [Engine.passWall]; omega) (le_refl _)
  have h₂ := h₁.passWall pace.day
  have hroom₂ := hroom₁.passWall pace.day
  have hsum : ((e₁.entry userId).resetIfNewDay
      (e₁.passWall pace.day).wall).dailyVolume.toNat + amount.toNat < 2 ^ 64 := by
    rw [ht.reset.volume, Tracks.dayStart_reset]
    exact lt_of_le_of_lt (hroom₂.covered _ (le_refl _)) (by omega)
  have hrec := Tracks.record (x := ⟨userId, amount, (e₁.passWall pace.day).wall, e₁.mono⟩) ht hsum
  refine Sound.accept ?_ (hroom₂.adds _ _) rfl rfl hrec
  rw [UserActivity.resetIfNewDay_push]
  exact h₂.adds hsum

end Steps

/-! ## Runs -/

/-- The markets that the risk engine is told of have a minimum order size of 0 or more. -/
def Request.MinSizes (r : Request) : Prop :=
  ∀ ms, r.view.markets = some ms → ∀ m ∈ ms, 0 ≤ m.minOrderSize

/-- The size check compares the amount as a signed number, so it leaves half of the range. -/
theorem Request.amount_lt {r : Request} {m : Market} (hmin : r.MinSizes)
    (h : r.validate = .ok m) : r.amountIn.toNat < 2 ^ 63 := by
  obtain ⟨ms, hms, hm, hle⟩ := validateIntent_ok h
  have h0 : 0 ≤ wrapI64 r.amountIn.toNat := (hmin ms hms m hm).trans hle
  have hmod : wrapI64 r.amountIn.toNat % 2 ^ 64 = r.amountIn.toNat % 2 ^ 64 := Int.bmod_emod
  have hrange := wrapI64_range r.amountIn.toNat
  have hlt := r.amountIn.toNat_lt
  omega

/-- A call with the database and Redis as they are while it runs. -/
structure Event where
  request : Request
  acts : Acts

def step (lim : Limits) (e : Engine) (c : Event) : Engine :=
  (Call.exec (exec lim c.request.check c.request.record c.acts) (createIntent c.request) e).2

theorem Sound.world {lim : Limits} {e : Engine} (h : Sound lim e) (w : World) :
    Sound lim { e with world := w } := ⟨h.tracks, h.volume, h.sparse, h.fits⟩

theorem Room.world {lim : Limits} {e : Engine} {userId : String} {amount : UInt64}
    (h : Room lim e userId amount) (w : World) : Room lim { e with world := w } userId amount :=
  ⟨h.few, h.covered⟩

theorem exec_check_ok {lim : Limits} {p q : Pace} {acts : Acts} {userId : String} {amount : UInt64}
    {e e' : Engine} {r : Unit}
    (h : Call.exec (exec lim p q acts) (check userId amount) e = (.ok r, e')) :
    checkUserLimits lim p userId amount e = (.ok (), e') := by
  rw [check, Call.exec_op] at h
  obtain ⟨hr, he⟩ := Prod.mk.inj h
  refine Prod.ext ?_ he
  simp only [exec] at hr
  cases hc : (checkUserLimits lim p userId amount e).1 with
  | ok _ => rfl
  | error x => rw [hc] at hr; cases hr

theorem exec_act_ok {lim : Limits} {p q : Pace} {acts : Acts} {o : Act} {e e' : Engine} {v : o.Reply}
    (h : Call.exec (exec lim p q acts) (act o) e = (.ok v, e')) :
    acts o e.world = (.ok v, e'.world) := by
  rw [act, Call.exec_op] at h
  obtain ⟨hr, he⟩ := Prod.mk.inj h
  refine Prod.ext ?_ (congrArg Engine.world he)
  simp only [exec] at hr
  cases hc : (acts o e.world).1 with
  | ok u =>
    rw [hc] at hr
    obtain rfl : u = v := Except.ok.inj hr
    rfl
  | error x => rw [hc] at hr; cases hr

theorem sound_step {lim : Limits} (hlim : lim.dailyVolumeLimit.toNat < 2 ^ 63) (e : Engine)
    (c : Event) (h : Sound lim e) (hmin : c.request.MinSizes) : Sound lim (step lim e c) := by
  show Call.Ends _ (Sound lim) (createIntent c.request) e
  unfold createIntent
  split
  · exact Call.ends_throw h
  next m hm =>
  obtain ⟨hcheck, hroom⟩ :=
    checkUserLimits_spec hlim c.request.check c.request.userId (Request.amount_lt hmin hm) h
  refine Call.ends_bind (Call.ends_op hcheck) fun _ e₁ hx₁ h₁ => ?_
  have hroom₁ : Room lim e₁ c.request.userId c.request.amountIn := by
    have hok := exec_check_ok hx₁
    rw [hok] at hroom
    exact hroom rfl
  refine Call.ends_orThrow_bind h₁ fun s hs => ?_
  refine Call.ends_bind (Call.ends_op (h₁.world _)) fun _ e₂ hx₂ h₂ => ?_
  have hroom₂ : Room lim e₂ c.request.userId c.request.amountIn :=
    (Prod.mk.inj hx₂).2 ▸ hroom₁.world _
  refine Call.ends_bind (Call.ends_op (recordAcceptedIntent_spec hlim _ h₂ hroom₂)) fun _ e₃ _ h₃ => ?_
  refine Call.ends_bind (Call.ends_op (h₃.world _)) fun _ e₄ _ h₄ => ?_
  exact Call.ends_bind (Call.ends_attempt (h₄.world _)) fun _ _ _ h₅ => Call.ends_pure h₅

theorem sound_run {lim : Limits} (hlim : lim.dailyVolumeLimit.toNat < 2 ^ 63) (w : World)
    (wall mono : Int) (es : List Event) (hmin : ∀ c ∈ es, c.request.MinSizes) :
    Sound lim (Machine.run (step lim) (.start w wall mono) es) :=
  Machine.run_keeps (fun e c h hc => sound_step hlim e c h hc) (sound_start lim w wall mono)
    (Machine.each_of_forall hmin)

/-- Whatever calls come one after the other and however the clocks go forward: no day of a user has
more volume than the limit, no minute more intents, and no addition has overflowed. -/
theorem user_limits_hold (lim : Limits) (hlim : lim.dailyVolumeLimit.toNat < 2 ^ 63) (w : World)
    (wall mono : Int) (es : List Event) (hmin : ∀ c ∈ es, c.request.MinSizes) (userId : String) :
    let e := Machine.run (step lim) (.start w wall mono) es
    (∀ day, volume (ofUser e.accepted userId) day ≤ lim.dailyVolumeLimit.toNat) ∧
      (∀ t, (ofUser e.accepted userId).countP
          (fun x => t ≤ x.mono ∧ x.mono < t + 60 * second) ≤ lim.maxIntentsPerMinute.toNat ∧
        (ofUser e.accepted userId).countP
          (fun x => t < x.mono ∧ x.mono ≤ t + 60 * second) ≤ lim.maxIntentsPerMinute.toNat) ∧
      e.overflowed = false := by
  have h := sound_run hlim w wall mono es hmin
  exact ⟨h.volume userId, h.sparse userId, h.fits⟩

/-- A call for 100 USDC that comes some nanoseconds after the one before it; the wall clock goes on
by as much again before the intent is recorded. -/
def demoCall (id : Uuid) (after : Nat) : Event where
  request := ⟨⟨fun i => id + i, fun _ => 0⟩, demoView, "alice", 2, "USDC", "ETH", 100, 0, 0,
    ⟨after, after, 0⟩, ⟨after, 0, 0⟩⟩
  acts := execAct .release upBus

/-- The third call is one too many for its minute and the fourth for its day; the last is checked a
day later and recorded the day after that. -/
def demoCalls : List Event :=
  [demoCall 1000 0, demoCall 2000 0, demoCall 3000 0, demoCall 4000 60000000000,
    demoCall 5000 86400000000000]

theorem demoCall_minSizes : ∀ c ∈ demoCalls, c.request.MinSizes := by
  intro c hc ms hms m hm
  have hview : c.request.view = demoView := by
    revert c
    simp [demoCalls, demoCall]
  rw [hview] at hms
  cases hms
  rw [List.mem_singleton.1 hm]
  decide

theorem demo_limits_hold :
    (Machine.run (step ⟨2, 250⟩) (.start lockDemo 0 0) demoCalls).accepted.length = 3 ∧
      volume (ofUser (Machine.run (step ⟨2, 250⟩) (.start lockDemo 0 0) demoCalls).accepted "alice")
        0 ≤ 250 :=
  ⟨by decide +kernel,
    (user_limits_hold ⟨2, 250⟩ (by decide) lockDemo 0 0 demoCalls demoCall_minSizes "alice").1 0⟩

end IntentX.RiskEngine
