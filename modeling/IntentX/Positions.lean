import IntentX.Matching
import IntentX.Lib.Table
import Mathlib.Data.List.Induction
import Mathlib.Tactic.Linarith

/-!
# Positions of solvers

`record_fill` and `calculate_pnl` of `src/solver/positions.rs`, with overflow checks on.

A position and its average entry price stand for what the fills have cost.  A fill that closes part of a
long position books the difference; a fill that buys back a short position books it with the wrong sign, and
one that flips a position leaves the old average on what it opens.  What is reported is exact in every state
of a run if and only if all fills of these two kinds are at the average entry price (`pnl_exact_iff`).
-/

namespace IntentX.Positions

open Lib

/-! ## Rows -/

structure SolverPosition where
  solverId : String
  asset : String
  position : Int
  avgEntryPrice : Int
  realizedPnl : Int
  updatedAt : Int
  deriving DecidableEq, Repr

structure PositionPnl where
  solverId : String
  asset : String
  position : Int
  avgEntryPrice : Int
  currentPrice : Int
  unrealizedPnl : Int
  realizedPnl : Int
  totalPnl : Int
  deriving DecidableEq, Repr

def SolverPosition.key (pos : SolverPosition) : String × String := (pos.solverId, pos.asset)

/-- `solver_positions` -/
abbrev SolverPositions := Table SolverPosition SolverPosition.key SolverPosition.key

/-- `SELECT * FROM solver_positions WHERE solver_id = $1 AND asset = $2` -/
def SolverPositions.get (t : SolverPositions) (solverId asset : String) : Option SolverPosition :=
  t.find fun pos => pos.key = (solverId, asset)

/-- A fill, and the clock when it is recorded. -/
structure SolverFill where
  qty : Int
  price : Int
  now : Int
  deriving DecidableEq, Repr

/-! ## Recording -/

/-- `i64::abs` -/
def absI64 (x : Int) : Option Int := checkedI64 |x|

def newAvg (pos : SolverPosition) (newPosition qty price : Int) : Option Int :=
  if newPosition ≠ 0 ∧ (pos.position.sign = qty.sign ∨ pos.position = 0) then do
    let held ← checkedI64 (pos.avgEntryPrice * (← absI64 pos.position))
    let added ← checkedI64 (price * (← absI64 qty))
    let totalCost ← checkedI64 (held + added)
    return totalCost.tdiv (← absI64 newPosition)
  else if newPosition = 0 then some 0
  else some pos.avgEntryPrice

def closedQty (pos : SolverPosition) (qty : Int) : Option Int :=
  if pos.position.sign ≠ qty.sign then do return min (← absI64 qty) (← absI64 pos.position)
  else some 0

def SolverPosition.realized (pos : SolverPosition) (f : SolverFill) : Option Int := do
  let closedQty ← closedQty pos f.qty
  checkedI64 (closedQty * (← checkedI64 (f.price - pos.avgEntryPrice)))

/-- The position that is returned for a fill; `none` is an overflow. -/
def SolverPosition.fill (pos : SolverPosition) (f : SolverFill) : Option SolverPosition := do
  let newPosition ← checkedI64 (pos.position + f.qty)
  let newAvg ← newAvg pos newPosition f.qty f.price
  let realized ← pos.realized f
  return { pos with
    position := newPosition
    avgEntryPrice := newAvg
    realizedPnl := ← checkedI64 (pos.realizedPnl + realized)
    updatedAt := f.now }

def recordFill (solverId asset : String) (t : SolverPositions) (f : SolverFill) :
    Option (SolverPosition × SolverPositions) :=
  match t.get solverId asset with
  | some pos => do
    let pos' ← pos.fill f
    let realized ← pos.realized f
    return (pos', t.update (fun r => r.key = (solverId, asset))
      (fun r => { r with
        position := pos'.position
        avgEntryPrice := pos'.avgEntryPrice
        realizedPnl := r.realizedPnl + realized
        updatedAt := f.now }) fun _ => ⟨rfl, rfl⟩)
  | none => do
    let pos := ⟨solverId, asset, f.qty, f.price, 0, f.now⟩
    return (pos, ← t.insert pos)

/-- One fill after the other. -/
def recordFills (solverId asset : String) (t : SolverPositions) (fills : List SolverFill) :
    Option SolverPositions :=
  fills.foldlM (fun t f => (recordFill solverId asset t f).map (·.2)) t

def calculatePnl (pos : SolverPosition) (currentPrice : Int) : Option PositionPnl := do
  let unrealized ←
    if pos.position ≠ 0 then do checkedI64 (pos.position * (← checkedI64 (currentPrice - pos.avgEntryPrice)))
    else some 0
  return {
    solverId := pos.solverId
    asset := pos.asset
    position := pos.position
    avgEntryPrice := pos.avgEntryPrice
    currentPrice
    unrealizedPnl := unrealized
    realizedPnl := pos.realizedPnl
    totalPnl := ← checkedI64 (unrealized + pos.realizedPnl) }

/-! ## One fill -/

section Fill

variable {pos pos' : SolverPosition} {f : SolverFill} {x y : Int}

/-- A fill that adds to the position. -/
def Adds (pos : SolverPosition) (qty : Int) : Prop :=
  pos.position + qty ≠ 0 ∧ (pos.position.sign = qty.sign ∨ pos.position = 0)

instance (pos : SolverPosition) (qty : Int) : Decidable (Adds pos qty) :=
  inferInstanceAs (Decidable (_ ∧ _))

/-- The weighted average is a whole number. -/
def DividesExactly (pos : SolverPosition) (f : SolverFill) : Prop :=
  Adds pos f.qty → |pos.position + f.qty| ∣ pos.avgEntryPrice * |pos.position| + f.price * |f.qty|

instance (pos : SolverPosition) (f : SolverFill) : Decidable (DividesExactly pos f) :=
  inferInstanceAs (Decidable (_ → _))

theorem newAvg_eq_some {newPosition qty price avg : Int} (hpos : newPosition = pos.position + qty)
    (h : newAvg pos newPosition qty price = some avg) :
    avg = if Adds pos qty then (pos.avgEntryPrice * |pos.position| + price * |qty|).tdiv |pos.position + qty|
      else if pos.position + qty = 0 then 0 else pos.avgEntryPrice := by
  subst hpos
  unfold newAvg absI64 at h
  split at h
  · next hadds =>
    rw [if_pos (show Adds pos qty from hadds)]
    simp only [Option.bind_eq_bind, Option.bind_eq_some_iff, checkedI64_eq_some_iff] at h
    obtain ⟨_, ⟨-, rfl⟩, _, ⟨-, rfl⟩, _, ⟨-, rfl⟩, _, ⟨-, rfl⟩, _, ⟨-, rfl⟩, _, ⟨-, rfl⟩, hret⟩ := h
    exact (Option.some.inj hret).symm
  · next hadds =>
    rw [if_neg (show ¬ Adds pos qty from hadds)]
    split at h
    · next hzero => rw [if_pos hzero, Option.some.inj h]
    · next hzero => rw [if_neg hzero, Option.some.inj h]

/-- What a fill closes, as long as nothing overflows. -/
def closed (pos : SolverPosition) (qty : Int) : Int :=
  if pos.position.sign ≠ qty.sign then min |qty| |pos.position| else 0

theorem realized_eq_some (h : pos.realized f = some x) :
    x = closed pos f.qty * (f.price - pos.avgEntryPrice) := by
  unfold SolverPosition.realized closedQty absI64 at h
  unfold closed
  split at h
  · next hsign =>
    rw [if_pos hsign]
    simp only [Option.bind_eq_bind, Option.bind_eq_some_iff, checkedI64_eq_some_iff] at h
    obtain ⟨_, ⟨_, ⟨-, rfl⟩, _, ⟨-, rfl⟩, hmin⟩, _, ⟨-, rfl⟩, -, hx⟩ := h
    rw [← hx, ← Option.some.inj hmin]
  · next hsign =>
    rw [if_neg hsign]
    simp only [Option.bind_eq_bind, Option.bind_eq_some_iff, checkedI64_eq_some_iff] at h
    obtain ⟨_, hzero, _, ⟨-, rfl⟩, -, hx⟩ := h
    rw [← hx, ← Option.some.inj hzero]

/-- What a fill makes of a position, as long as nothing overflows. -/
theorem fill_eq_some (h : pos.fill f = some pos') :
    pos'.position = pos.position + f.qty ∧
    pos'.avgEntryPrice = (if Adds pos f.qty then
      (pos.avgEntryPrice * |pos.position| + f.price * |f.qty|).tdiv |pos.position + f.qty|
      else if pos.position + f.qty = 0 then 0 else pos.avgEntryPrice) ∧
    pos'.realizedPnl = pos.realizedPnl + closed pos f.qty * (f.price - pos.avgEntryPrice) ∧
    inI64 pos'.realizedPnl := by
  unfold SolverPosition.fill at h
  simp only [Option.bind_eq_bind, Option.bind_eq_some_iff, checkedI64_eq_some_iff] at h
  obtain ⟨_, ⟨-, rfl⟩, avg, havg, realized, hrealized, _, ⟨hin, rfl⟩, hret⟩ := h
  cases hret
  refine ⟨rfl, newAvg_eq_some rfl havg, ?_, hin⟩
  rw [realized_eq_some hrealized]

/-- What is written is what is returned. -/
theorem fill_row {realized : Int} (h : pos.fill f = some pos') (hrealized : pos.realized f = some realized) :
    { pos with
      position := pos'.position
      avgEntryPrice := pos'.avgEntryPrice
      realizedPnl := pos.realizedPnl + realized
      updatedAt := f.now } = pos' := by
  unfold SolverPosition.fill at h
  rw [hrealized] at h
  simp only [Option.bind_eq_bind, Option.bind_eq_some_iff, checkedI64_eq_some_iff, Option.some.injEq] at h
  obtain ⟨_, ⟨-, rfl⟩, avg, -, _, rfl, _, ⟨-, rfl⟩, hret⟩ := h
  cases hret
  rfl

/-- What is reported at the price of zero. -/
def SolverPosition.worth (pos : SolverPosition) : Int := pos.realizedPnl - pos.position * pos.avgEntryPrice

/-- A fill that buys back a short position, or that flips a long one, is at the average entry price. -/
def AtAverage (pos : SolverPosition) (f : SolverFill) : Prop :=
  pos.position < 0 ∧ 0 < f.qty ∨ 0 < pos.position ∧ pos.position + f.qty < 0 → f.price = pos.avgEntryPrice

instance (pos : SolverPosition) (f : SolverFill) : Decidable (AtAverage pos f) :=
  inferInstanceAs (Decidable (_ → _))

theorem sign_eq_sign_iff : x.sign = y.sign ↔ 0 < x ∧ 0 < y ∨ x = 0 ∧ y = 0 ∨ x < 0 ∧ y < 0 := by
  have hx₁ : x.sign = 1 ↔ 0 < x := Int.sign_eq_one_iff_pos
  have hx₂ : x.sign = -1 ↔ x < 0 := Int.sign_eq_neg_one_iff_neg
  have hy₁ : y.sign = 1 ↔ 0 < y := Int.sign_eq_one_iff_pos
  have hy₂ : y.sign = -1 ↔ y < 0 := Int.sign_eq_neg_one_iff_neg
  have hx₀ : x.sign = 0 ↔ x = 0 := Int.sign_eq_zero_iff_zero
  have hy₀ : y.sign = 0 ↔ y = 0 := Int.sign_eq_zero_iff_zero
  omega

/-- Without a position, or in the direction of the position. -/
theorem adds_iff {qty : Int} : Adds pos qty ↔ qty ≠ 0 ∧ (pos.position = 0 ∨ (0 < pos.position ∧ 0 < qty) ∨
    pos.position < 0 ∧ qty < 0) := by
  unfold Adds
  rw [sign_eq_sign_iff]
  omega

/-- The weighted average stands for both costs. -/
theorem average_mul {a : Int} {qty price : Int} (hadds : Adds pos qty)
    (ha : a * |pos.position + qty| = pos.avgEntryPrice * |pos.position| + price * |qty|) :
    (pos.position + qty) * a = pos.position * pos.avgEntryPrice + qty * price := by
  obtain ⟨hq, hp | ⟨hp, hq'⟩ | ⟨hp, hq'⟩⟩ := adds_iff.1 hadds
  · rw [hp, Int.zero_add, abs_zero, Int.mul_zero, Int.zero_add] at ha
    rw [hp, Int.zero_add, Int.zero_mul, Int.zero_add, mul_right_cancel₀ (abs_ne_zero.2 hq) ha]
  · rw [abs_of_pos (show 0 < pos.position + qty by omega), abs_of_pos hp, abs_of_pos hq'] at ha
    linarith
  · rw [abs_of_neg (show pos.position + qty < 0 by omega), abs_of_neg hp, abs_of_neg hq'] at ha
    linarith

/-- A fill that adds closes nothing. -/
theorem Adds.closed_eq_zero {qty : Int} (hadds : Adds pos qty) : closed pos qty = 0 := by
  unfold closed
  split
  · next hsign =>
    rw [Ne, sign_eq_sign_iff] at hsign
    have hp : pos.position = 0 := by
      rcases (adds_iff.1 hadds).2 with hp | hp | hp <;> omega
    rw [hp, abs_zero]
    exact min_eq_right (abs_nonneg qty)
  · rfl

/-- Any other fill is closed in full and on the right side, unless it buys against a short position or flips a
long one. -/
theorem closed_add_eq_zero_iff {qty : Int} (hadds : ¬ Adds pos qty) : closed pos qty + qty = 0 ↔
    ¬ (pos.position < 0 ∧ 0 < qty ∨ 0 < pos.position ∧ pos.position + qty < 0) := by
  rw [adds_iff] at hadds
  unfold closed
  rcases Int.lt_trichotomy qty 0 with hq | hq | hq
  · have hp : 0 < pos.position := by omega
    have hsign : pos.position.sign ≠ qty.sign := mt sign_eq_sign_iff.1 (by omega)
    rw [if_pos hsign, abs_of_neg hq, abs_of_pos hp]
    omega
  · rw [hq, abs_zero, min_eq_left (abs_nonneg pos.position), ite_self]
    omega
  · have hp : pos.position < 0 := by omega
    have hsign : pos.position.sign ≠ qty.sign := mt sign_eq_sign_iff.1 (by omega)
    rw [if_pos hsign, abs_of_pos hq, abs_of_neg hp]
    omega

/-- A fill costs what it costs if and only if it is at the average where it has to be. -/
theorem worth_fill_iff (h : pos.fill f = some pos') (hdiv : DividesExactly pos f) :
    pos'.worth = pos.worth - f.qty * f.price ↔ AtAverage pos f := by
  obtain ⟨hposition, havg, hrealized, -⟩ := fill_eq_some h
  unfold SolverPosition.worth
  rw [hposition, hrealized]
  by_cases hadds : Adds pos f.qty
  · rw [if_pos hadds] at havg
    have hmul := average_mul hadds (havg ▸ Int.tdiv_mul_cancel (hdiv hadds))
    have hfar : ¬ (pos.position < 0 ∧ 0 < f.qty ∨ 0 < pos.position ∧ pos.position + f.qty < 0) := by
      rcases (adds_iff.1 hadds).2 with hp | hp | hp <;> omega
    rw [hmul, hadds.closed_eq_zero]
    exact iff_of_true (by ring) fun hcase => absurd hcase hfar
  · rw [if_neg hadds] at havg
    have hkeep : (pos.position + f.qty) * pos'.avgEntryPrice = (pos.position + f.qty) * pos.avgEntryPrice := by
      rw [havg]
      split
      · next hzero => rw [hzero, Int.zero_mul, Int.zero_mul]
      · rfl
    -- what is booked and what is left differ from the cost by this product
    have herror : pos.realizedPnl + closed pos f.qty * (f.price - pos.avgEntryPrice) -
        (pos.position + f.qty) * pos.avgEntryPrice = pos.realizedPnl - pos.position * pos.avgEntryPrice -
          f.qty * f.price ↔ (closed pos f.qty + f.qty) * (f.price - pos.avgEntryPrice) = 0 := by
      constructor
      · intro heq
        linarith
      · intro heq
        linarith
    rw [hkeep, herror, mul_eq_zero, sub_eq_zero, closed_add_eq_zero_iff hadds, AtAverage,
      or_iff_not_imp_left, not_not]

end Fill

/-! ## Runs -/

section Runs

variable {solverId asset : String} {t t' : SolverPositions} {pos : SolverPosition} {f : SolverFill}
  {fills : List SolverFill} {x y : Int}

/-- A fill is recorded in the row of the position, or opens one. -/
theorem recordFill_eq_some {pos' : SolverPosition} (h : recordFill solverId asset t f = some (pos', t')) :
    t'.get solverId asset = some pos' ∧
      ((∃ pos, t.get solverId asset = some pos ∧ pos.fill f = some pos') ∨
        t.get solverId asset = none ∧ pos' = ⟨solverId, asset, f.qty, f.price, 0, f.now⟩) := by
  unfold recordFill at h
  cases hget : t.get solverId asset with
  | none =>
    rw [hget] at h
    simp only [Option.bind_eq_bind, Option.bind_eq_some_iff] at h
    obtain ⟨t₁, hinsert, hret⟩ := h
    cases hret
    refine ⟨?_, .inr ⟨rfl, rfl⟩⟩
    rw [SolverPositions.get, Table.find_insert_pk hinsert]
    simp [SolverPosition.key]
  | some pos =>
    rw [hget] at h
    simp only [Option.bind_eq_bind, Option.bind_eq_some_iff] at h
    obtain ⟨pos₁, hfill, realized, hrealized, hret⟩ := h
    cases hret
    refine ⟨?_, .inl ⟨pos, rfl, hfill⟩⟩
    have hkey : pos.key = (solverId, asset) := (Table.find_pk_iff.1 hget).2
    unfold SolverPositions.get at hget
    rw [SolverPositions.get, Table.find_update_pk, hget, Option.map_some, if_pos (decide_eq_true hkey),
      fill_row hfill hrealized]

def totalQty (fills : List SolverFill) : Int := (fills.map (·.qty)).sum

def totalCost (fills : List SolverFill) : Int := (fills.map fun f => f.qty * f.price).sum

theorem sum_pnl (fills : List SolverFill) (p : Int) :
    (fills.map fun f => f.qty * (p - f.price)).sum = p * totalQty fills - totalCost fills := by
  unfold totalQty totalCost
  induction fills with
  | nil => simp
  | cons f fills ih =>
    simp only [List.map_cons, List.sum_cons, ih]
    ring

/-- At every price, what is reported is the sum over the fills. -/
def ExactPnl (pos : SolverPosition) (fills : List SolverFill) : Prop :=
  ∀ p pnl, calculatePnl pos p = some pnl →
    pnl.totalPnl = (fills.map fun f => f.qty * (p - f.price)).sum ∧ pnl.position = totalQty fills

theorem calculatePnl_eq_some {p : Int} {pnl : PositionPnl} (h : calculatePnl pos p = some pnl) :
    pnl.totalPnl = pos.position * p + pos.worth ∧ pnl.position = pos.position := by
  unfold calculatePnl at h
  unfold SolverPosition.worth
  split at h
  · simp only [Option.bind_eq_bind, Option.bind_eq_some_iff, checkedI64_eq_some_iff] at h
    obtain ⟨_, ⟨-, rfl⟩, _, ⟨-, rfl⟩, _, ⟨-, rfl⟩, hret⟩ := h
    cases hret
    exact ⟨by ring, rfl⟩
  · next hzero =>
    simp only [Option.bind_eq_bind, Option.bind_eq_some_iff, checkedI64_eq_some_iff] at h
    obtain ⟨_, hzero', _, ⟨-, rfl⟩, hret⟩ := h
    cases hret
    cases hzero'
    have hposition : pos.position = 0 := not_not.1 hzero
    refine ⟨?_, rfl⟩
    rw [hposition]
    ring

/-- At the average entry price nothing is unrealized. -/
theorem calculatePnl_avg (h : inI64 pos.realizedPnl) :
    ∃ pnl, calculatePnl pos pos.avgEntryPrice = some pnl := by
  have hzero : checkedI64 0 = some 0 := checkedI64_eq_some_iff.2 ⟨by decide, rfl⟩
  have htotal : checkedI64 (0 + pos.realizedPnl) = some pos.realizedPnl :=
    checkedI64_eq_some_iff.2 ⟨by rwa [Int.zero_add], Int.zero_add _⟩
  unfold calculatePnl
  simp only [Int.sub_self, hzero, Option.bind_eq_bind, Option.bind_some, Int.mul_zero, ite_self, htotal]
  exact ⟨_, rfl⟩

theorem exactPnl_iff (h : inI64 pos.realizedPnl) :
    ExactPnl pos fills ↔ pos.position = totalQty fills ∧ pos.worth = -totalCost fills := by
  unfold ExactPnl
  constructor
  · intro hexact
    obtain ⟨pnl, hpnl⟩ := calculatePnl_avg h
    obtain ⟨htotal, hposition⟩ := hexact _ _ hpnl
    rw [(calculatePnl_eq_some hpnl).2] at hposition
    rw [(calculatePnl_eq_some hpnl).1, sum_pnl, hposition, Int.mul_comm] at htotal
    exact ⟨hposition, by linarith⟩
  · rintro ⟨hposition, hworth⟩ p pnl hpnl
    obtain ⟨htotal, hpos⟩ := calculatePnl_eq_some hpnl
    rw [htotal, hpos, sum_pnl, hworth, hposition]
    exact ⟨by ring, rfl⟩

/-! ### From one state to the next -/

/-- `P` holds of each fill of a run and the position that it finds. -/
def EachFill (P : SolverPosition → SolverFill → Prop) (solverId asset : String) (t : SolverPositions)
    (fills : List SolverFill) : Prop :=
  ∀ before f after t₁ pos, fills = before ++ f :: after → recordFills solverId asset t before = some t₁ →
    t₁.get solverId asset = some pos → P pos f

/-- What is reported is exact in every state of a run. -/
def AlwaysExact (solverId asset : String) (t : SolverPositions) (fills : List SolverFill) : Prop :=
  ∀ before after t₁ pos, fills = before ++ after → recordFills solverId asset t before = some t₁ →
    t₁.get solverId asset = some pos → ExactPnl pos before

theorem EachFill.nil {P : SolverPosition → SolverFill → Prop} : EachFill P solverId asset t [] := by
  intro before f after t₁ pos hsplit
  cases before <;> cases hsplit

/-- One more fill before a run. -/
theorem EachFill.cons {P : SolverPosition → SolverFill → Prop} {f : SolverFill}
    (hf : ∀ pos, t.get solverId asset = some pos → P pos f)
    (h : ∀ r, recordFill solverId asset t f = some r → EachFill P solverId asset r.2 fills) :
    EachFill P solverId asset t (f :: fills) := by
  intro before g after t₁ pos hsplit hrun hpos
  cases before with
  | nil =>
    cases hsplit
    cases hrun
    exact hf pos hpos
  | cons f' before =>
    rw [List.cons_append, List.cons.injEq] at hsplit
    obtain ⟨rfl, hsplit⟩ := hsplit
    unfold recordFills at hrun
    rw [List.foldlM_cons] at hrun
    obtain ⟨t', hfirst, hrest⟩ := Option.bind_eq_some_iff.1 hrun
    obtain ⟨r, hr, rfl⟩ := Option.map_eq_some_iff.1 hfirst
    exact h r hr before g after t₁ pos hsplit hrest hpos

theorem EachFill.init {P : SolverPosition → SolverFill → Prop} {after : List SolverFill}
    (h : EachFill P solverId asset t (fills ++ after)) : EachFill P solverId asset t fills := by
  intro before f after' t₁ pos hsplit
  refine h before f (after' ++ after) t₁ pos ?_
  rw [hsplit, List.append_assoc, List.cons_append]

theorem recordFills_append (fills fills' : List SolverFill) :
    recordFills solverId asset t (fills ++ fills') =
      (recordFills solverId asset t fills).bind fun t => recordFills solverId asset t fills' :=
  List.foldlM_append

theorem recordFills_snoc (h : recordFills solverId asset t (fills ++ [f]) = some t') :
    ∃ t₁, recordFills solverId asset t fills = some t₁ ∧
      ∃ pos', recordFill solverId asset t₁ f = some (pos', t') := by
  rw [recordFills_append, Option.bind_eq_some_iff] at h
  obtain ⟨t₁, h₁, h₂⟩ := h
  rw [recordFills, List.foldlM_cons, Option.bind_eq_bind, Option.bind_eq_some_iff] at h₂
  obtain ⟨t₂, hf, hret⟩ := h₂
  cases hret
  obtain ⟨⟨pos', t₂⟩, hrecord, rfl⟩ := Option.map_eq_some_iff.1 hf
  exact ⟨t₁, h₁, pos', hrecord⟩

/-- The position is the sum of the quantities, whatever the prices. -/
theorem get_recordFills (hnone : t.get solverId asset = none)
    (h : recordFills solverId asset t fills = some t') :
    (fills = [] ∧ t'.get solverId asset = none) ∨ ∃ pos, t'.get solverId asset = some pos ∧
      pos.position = totalQty fills ∧ inI64 pos.realizedPnl := by
  induction fills using List.reverseRecOn generalizing t' with
  | nil =>
    cases h
    exact .inl ⟨rfl, hnone⟩
  | append_singleton fills f ih =>
    obtain ⟨t₁, h₁, pos', hrecord⟩ := recordFills_snoc h
    obtain ⟨hget, hstep⟩ := recordFill_eq_some hrecord
    refine .inr ⟨pos', hget, ?_⟩
    have hqty : totalQty (fills ++ [f]) = totalQty fills + f.qty := by simp [totalQty]
    rw [hqty]
    rcases ih h₁ with ⟨rfl, hempty⟩ | ⟨pos, hpos, hposition, -⟩
    · rcases hstep with ⟨pos, hsome, -⟩ | ⟨-, rfl⟩
      · rw [hempty] at hsome
        cases hsome
      · have hzero : inI64 0 := by decide
        exact ⟨(Int.zero_add _).symm, hzero⟩
    · rcases hstep with ⟨pos₁, hsome, hfill⟩ | ⟨hno, -⟩
      · rw [hpos] at hsome
        cases hsome
        obtain ⟨hnew, -, -, hin⟩ := fill_eq_some hfill
        exact ⟨by rw [hnew, hposition], hin⟩
      · rw [hpos] at hno
        cases hno

/-- What the position is worth after a fill that is or is not at the average. -/
theorem worth_recordFill {t₁ : SolverPositions} {pos' : SolverPosition}
    (hpos : t.get solverId asset = some pos) (hworth : pos.worth = -totalCost fills)
    (hdiv : DividesExactly pos f) (h : recordFill solverId asset t f = some (pos', t₁)) :
    pos'.worth = -totalCost (fills ++ [f]) ↔ AtAverage pos f := by
  have hcost : totalCost (fills ++ [f]) = totalCost fills + f.qty * f.price := by simp [totalCost]
  rcases (recordFill_eq_some h).2 with ⟨pos₁, hsome, hfill⟩ | ⟨hno, -⟩
  · rw [hpos] at hsome
    cases hsome
    rw [← worth_fill_iff hfill hdiv, hworth, hcost, neg_add, sub_eq_add_neg]
  · rw [hpos] at hno
    cases hno

/-- Fills at the average leave what they have cost. -/
theorem worth_recordFills (hnone : t.get solverId asset = none)
    (h : recordFills solverId asset t fills = some t') (hget : t'.get solverId asset = some pos)
    (hdiv : EachFill DividesExactly solverId asset t fills) (hat : EachFill AtAverage solverId asset t fills) :
    pos.worth = -totalCost fills := by
  induction fills using List.reverseRecOn generalizing t' pos with
  | nil =>
    cases h
    rw [hnone] at hget
    cases hget
  | append_singleton fills f ih =>
    obtain ⟨t₁, h₁, pos', hrecord⟩ := recordFills_snoc h
    obtain ⟨hget', hstep⟩ := recordFill_eq_some hrecord
    rw [hget'] at hget
    cases hget
    rcases get_recordFills hnone h₁ with ⟨rfl, hempty⟩ | ⟨pos₁, hpos₁, -, -⟩
    · rcases hstep with ⟨pos₁, hsome, -⟩ | ⟨-, rfl⟩
      · rw [hempty] at hsome
        cases hsome
      · simp [SolverPosition.worth, totalCost]
    · have hworth : pos₁.worth = -totalCost fills := ih h₁ hpos₁ hdiv.init hat.init
      have hwhole : DividesExactly pos₁ f := hdiv fills f [] t₁ pos₁ rfl h₁ hpos₁
      exact (worth_recordFill hpos₁ hworth hwhole hrecord).2 (hat fills f [] t₁ pos₁ rfl h₁ hpos₁)

/-- In a run from no position in which nothing overflows and every weighted average is a whole number: what
is reported is exact in every state that is reached, if and only if every fill that buys back a short
position or flips a long one is at the average entry price. -/
theorem pnl_exact_iff (hnone : t.get solverId asset = none)
    (hrun : recordFills solverId asset t fills ≠ none)
    (hdiv : EachFill DividesExactly solverId asset t fills) :
    AlwaysExact solverId asset t fills ↔ EachFill AtAverage solverId asset t fills := by
  have hexact : ∀ {before t₁ pos}, recordFills solverId asset t before = some t₁ →
      t₁.get solverId asset = some pos → (ExactPnl pos before ↔ pos.worth = -totalCost before) := by
    intro before t₁ pos h₁ hpos
    rcases get_recordFills hnone h₁ with ⟨-, hempty⟩ | ⟨_, hpos', hposition, hin⟩
    · rw [hempty] at hpos
      cases hpos
    · rw [hpos] at hpos'
      cases hpos'
      rw [exactPnl_iff hin, and_iff_right hposition]
  constructor
  · intro hall before f after t₁ pos hsplit h₁ hpos
    -- the fill itself goes through, as all of them do
    obtain ⟨t₂, h₂⟩ : ∃ t₂, recordFills solverId asset t (before ++ [f]) = some t₂ := by
      rw [hsplit, List.append_cons, recordFills_append] at hrun
      refine Option.ne_none_iff_exists'.1 fun hfail => hrun ?_
      rw [hfail, Option.bind_none]
    obtain ⟨_, h₁', pos', hrecord⟩ := recordFills_snoc h₂
    rw [h₁] at h₁'
    cases h₁'
    have hpos' : t₂.get solverId asset = some pos' := (recordFill_eq_some hrecord).1
    have hworth : pos.worth = -totalCost before :=
      (hexact h₁ hpos).1 (hall before (f :: after) t₁ pos hsplit h₁ hpos)
    have hworth' : pos'.worth = -totalCost (before ++ [f]) :=
      (hexact h₂ hpos').1 (hall (before ++ [f]) after t₂ pos' (hsplit.trans (List.append_cons _ _ _)) h₂ hpos')
    exact (worth_recordFill hpos hworth (hdiv before f after t₁ pos hsplit h₁ hpos) hrecord).1 hworth'
  · intro hat before after t₁ pos hsplit h₁ hpos
    rw [hsplit] at hdiv hat
    exact (hexact h₁ hpos).2 (worth_recordFills hnone h₁ hpos hdiv.init hat.init)

end Runs

/-- Ten bought at 3000, ten more at 3100 and five sold at 3500: the average is 3050 and nothing is lost. -/
theorem pnl_exact_long :
    AlwaysExact "s1" "ETH" .empty [⟨10, 3000, 1⟩, ⟨10, 3100, 2⟩, ⟨-5, 3500, 3⟩] := by
  have heach : EachFill (fun pos f => DividesExactly pos f ∧ AtAverage pos f) "s1" "ETH" .empty
      [⟨10, 3000, 1⟩, ⟨10, 3100, 2⟩, ⟨-5, 3500, 3⟩] := by
    refine .cons (fun _ hpos => nomatch hpos) fun r₁ h₁ => ?_
    cases h₁
    refine .cons (fun pos hpos => ?_) fun r₂ h₂ => ?_
    · cases hpos
      decide
    cases h₂
    refine .cons (fun pos hpos => ?_) fun r₃ h₃ => .nil
    cases hpos
    decide
  exact (pnl_exact_iff rfl (by decide) fun before f after t₁ pos hsplit h₁ hpos =>
    (heach before f after t₁ pos hsplit h₁ hpos).1).2 fun before f after t₁ pos hsplit h₁ hpos =>
      (heach before f after t₁ pos hsplit h₁ hpos).2

/-- A short position of ten at 3000 that is bought back at 2800 has made 2000, and 2000 are reported as
lost.  Ten that were bought at 3000 and flipped by fifteen at 3500 have made 5000, and 2500 are reported. -/
theorem shortCover_not_exact :
    ((recordFills "s1" "ETH" .empty [⟨-10, 3000, 1⟩, ⟨10, 2800, 2⟩]).bind fun t =>
      (t.get "s1" "ETH").bind fun pos => (calculatePnl pos 2800).map (·.totalPnl)) = some (-2000) ∧
    (([⟨-10, 3000, 1⟩, ⟨10, 2800, 2⟩] : List SolverFill).map fun f => f.qty * (2800 - f.price)).sum = 2000 ∧
    ((recordFills "s1" "ETH" .empty [⟨10, 3000, 1⟩, ⟨-15, 3500, 2⟩]).bind fun t =>
      (t.get "s1" "ETH").bind fun pos => (calculatePnl pos 3500).map (·.totalPnl)) = some 2500 ∧
    (([⟨10, 3000, 1⟩, ⟨-15, 3500, 2⟩] : List SolverFill).map fun f => f.qty * (3500 - f.price)).sum = 5000 ∧
    EachFill DividesExactly "s1" "ETH" .empty [⟨-10, 3000, 1⟩, ⟨10, 2800, 2⟩] := by
  refine ⟨by decide, by decide, by decide, by decide, ?_⟩
  refine .cons (fun _ hpos => nomatch hpos) fun r₁ h₁ => ?_
  cases h₁
  refine .cons (fun pos hpos => ?_) fun r₂ h₂ => .nil
  cases hpos
  decide

end IntentX.Positions
