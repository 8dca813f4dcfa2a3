import IntentX.IntentFaults
import IntentX.NonNegative

/-!
# What an amendment moves

`IntentService::amend_intent` of `src/services/intent_service.rs`, next to what `create_intent` asks
of a new order.  The requested amount is cast from `u64` to `i64`, the signed difference picks the
branch, and the account is the one the request names: the table has no account, so who locked the
funds (`owner`) is not something the code can look up.

With the account that locked the funds, a request between 1 and 2^63 - 1 and no wrap-around of the
difference, the locked balance moves by exactly the difference (`amended_iff`).  The minimum order
size and the daily volume are not looked at, so they hold when the request happens to meet them.
-/

namespace IntentX

open Lib RiskEngine IntentFaults

/-! ## Rows -/

/-- An amendment leaves the rows of all other cells alone. -/
theorem adjusted_other {w : World} {a b : Uuid} {s t : Asset} {diff now : Int}
    (hk : (b, t) ≠ (a, s)) : (adjusted w a s diff now).balance b t = w.balance b t := by
  have hshift : ∀ d, (shift w a s d now).balance b t = w.balance b t := by
    intro d
    show Table.find _ _ = w.balances.find _
    rw [shift, Table.find_update_uk]
    rcases hrow : w.balances.find (fun c => c.key = (b, t)) with _ | c
    · rfl
    · have hne : c.key ≠ (a, s) := by
        rw [(Table.find_uk_iff.1 hrow).2]
        exact hk
      simp [hne]
  unfold adjusted
  split
  · exact hshift _
  · split
    · exact hshift _
    · rfl

/-! ## A successful amendment -/

section Success

variable {bus : Bus} {env : Env} {w w' : World} {m : Amend} {amended : Intent}

/-- What is left behind by an amendment that succeeds. -/
theorem amendIntent_ok
    (h : Call.exec (execAct .release bus) (amendIntent env m.intentId m.accountId m.newAmountIn
      m.newMinAmountOut m.newLimitPrice) w = (.ok amended, w')) :
    ∃ i s, w.intent m.intentId = some i ∧ parseAsset i.tokenIn = some s ∧
      CanAdjust w m.accountId s (m.diff i) ∧
      w'.balances = (adjusted w m.accountId s (m.diff i) (env.now 0)).balances ∧
      w'.intent m.intentId = some (m.row i) := by
  obtain ⟨_, w₁, htx, hrest⟩ := Call.exec_bind_ok.1 h
  have hbody : Call.exec (Faults.none bus).execStmt (amendBody .release m.intentId m.accountId
      m.newAmountIn m.newMinAmountOut m.newLimitPrice (env.now 0)) w = (.ok (), w₁) :=
    Call.exec_mapErr_ok.1 (Call.transaction_ok.1 (Call.exec_op_ok.1 htx))
  obtain ⟨i, s, hi, -, hs, -, hcan, rfl⟩ := exec_amendBody.1 hbody
  obtain ⟨row, w₂, hget, hrest⟩ := Call.exec_bind_ok.1 hrest
  obtain ⟨rfl, rfl⟩ := ok_inj ((exec_getIntent m.intentId).symm.trans hget)
  obtain ⟨j, w₃, hrow, hrest⟩ := Call.exec_bind_ok.1 hrest
  obtain ⟨hrow, rfl⟩ := Call.exec_orThrow_ok.1 hrow
  obtain ⟨_, w₄, hpub, hret⟩ := Call.exec_bind_ok.1 hrest
  have hsame : w₄.balances = (m.result w i s (env.now 0)).balances ∧
      w₄.intents = (m.result w i s (env.now 0)).intents := by
    have hpub := Call.exec_op_ok.1 hpub
    simp only [execAct] at hpub
    split at hpub
    · obtain ⟨-, rfl⟩ := ok_inj hpub
      exact ⟨rfl, rfl⟩
    · cases hpub
  obtain ⟨-, rfl⟩ := ok_inj hret
  refine ⟨i, s, hi, hs, hcan, hsame.1, ?_⟩
  have hres : (m.result w i s (env.now 0)).intent m.intentId = some (m.row i) := intent_result hi
  unfold World.intent at hres ⊢
  rw [hsame.2]
  exact hres

/-- How far the two columns of the account move. -/
theorem adjusted_moves (now : Int) {a : Uuid} {s : Asset} {diff : Int} (hcan : CanAdjust w a s diff) :
    Moves (a, s) (-w.adjustment .release a s diff) (w.adjustment .release a s diff) w
      (adjusted w a s diff now) := by
  -- any bus will do: the adjustment sends nothing
  have hx : Call.exec (Faults.none ⟨fun _ => true, fun _ => true, ""⟩).execStmt
      (adjustLock .release a s diff now) w = (.ok (), adjusted w a s diff now) :=
    exec_adjustLock.2 ⟨fun _ _ => rfl, hcan, rfl⟩
  exact (adjustLock_ok hx).2

end Success

/-! ## What it should do -/

/-- The amount that the request asks for: the current one if it names none. -/
def IntentFaults.Amend.asked (m : Amend) (i : Intent) : Int :=
  (m.newAmountIn.map fun x => (x.toNat : Int)).getD i.amountIn

/-- The volume the risk engine has counted for a user today. -/
def usedToday (activity : Activity) (userId : String) (wall : Int) : Nat :=
  (((activity userId).getD (.new wall)).resetIfNewDay wall).dailyVolume.toNat

/-- What `create_intent` asks of a new order of this size: the market of the pair takes it. -/
def MeetsMinimum (markets : List Market) (i : Intent) (s : Asset) (amount : Int) : Prop :=
  ∃ out market, parseAsset i.tokenOut = some out ∧ findMarket markets s out = some market ∧
    market.minOrderSize ≤ amount

/-- An increase to `amount` is within what is left of the user's volume of the day. -/
def WithinVolume (activity : Activity) (lim : Limits) (wall : Int) (i : Intent) (amount : Int) : Prop :=
  i.amountIn < amount →
    usedToday activity i.userId wall + (amount - i.amountIn) ≤ lim.dailyVolumeLimit.toNat

/-- The risk engine's side of an amendment: the markets it lists, what it has counted, its limits
and its clock. -/
structure Desk where
  markets : List Market
  activity : Activity
  lim : Limits
  wall : Int

/-- An amendment of `i`, whose funds (in `s`) the account `owner` locked, as it should be. -/
structure Amended (owner : Uuid) (desk : Desk) (m : Amend) (i : Intent) (s : Asset) (w w' : World) :
    Prop where
  account : m.accountId = owner
  amount : ∃ i', w'.intent m.intentId = some i' ∧ 0 < i'.amountIn ∧ i'.amountIn = m.asked i ∧
    MeetsMinimum desk.markets i s i'.amountIn ∧
    WithinVolume desk.activity desk.lim desk.wall i i'.amountIn ∧
    w'.locked (owner, s) = w.locked (owner, s) + (i'.amountIn - i.amountIn)
  total : w'.avail (owner, s) + w'.locked (owner, s) = w.avail (owner, s) + w.locked (owner, s)
  nonneg : 0 ≤ w'.avail (owner, s) ∧ 0 ≤ w'.locked (owner, s)
  others : ∀ b t, (b, t) ≠ (owner, s) → w'.balance b t = w.balance b t

/-- What the request has to be for that. -/
structure Proper (owner : Uuid) (desk : Desk) (m : Amend) (i : Intent) (s : Asset) : Prop where
  account : m.accountId = owner
  amount : 0 < m.asked i ∧ m.asked i < 2 ^ 63
  -- fails only for an amount_in that is negative
  diff : m.asked i - i.amountIn < 2 ^ 63
  minimum : MeetsMinimum desk.markets i s (m.asked i)
  volume : WithinVolume desk.activity desk.lim desk.wall i (m.asked i)

section Amount

variable {m : Amend} {i : Intent}

theorem asI64_eq_toNat {x : UInt64} (h : asI64 x = x.toNat) : (x.toNat : Int) < 2 ^ 63 := by
  have := wrapI64_range x.toNat
  unfold asI64 at h
  omega

/-- The cast keeps the amount iff it is below 2^63. -/
theorem newAmount_eq_asked (h : i.amountIn < 2 ^ 63) :
    i.newAmount m.newAmountIn = m.asked i ↔ m.asked i < 2 ^ 63 := by
  unfold Intent.newAmount IntentFaults.Amend.asked
  rcases m.newAmountIn with _ | x
  · simpa using h
  · rw [Option.map_some, Option.map_some, Option.getD_some, Option.getD_some]
    constructor
    · intro hx
      exact asI64_eq_toNat hx
    · intro hx
      rw [asI64]
      exact wrapI64_of_inI64 ⟨by omega, hx⟩

end Amount

/-! ## When it does it -/

section Moved

variable {w : World} {owner : Uuid} {s : Asset} {m : Amend} {i : Intent}

/-- The signed difference of two `i64` values that does not overflow is what is moved, if the
account has a row for what it releases. -/
theorem adjustment_exact (hcov : i.amountIn ≤ w.locked (owner, s))
    (hi64 : i.amountIn < 2 ^ 63) {new : Int} (hpos : 0 < new) (hnew : new < 2 ^ 63)
    (hdiff : new - i.amountIn < 2 ^ 63) (hcan : CanAdjust w owner s (wrapI64 (new - i.amountIn))) :
    w.adjustment .release owner s (wrapI64 (new - i.amountIn)) = new - i.amountIn := by
  have hw : wrapI64 (new - i.amountIn) = new - i.amountIn := wrapI64_of_inI64 (by omega)
  rw [hw] at hcan ⊢
  have hrow : new ≠ i.amountIn → (w.balance owner s).isSome := by
    intro hne
    by_contra hnone
    simp only [Option.not_isSome_iff_eq_none] at hnone
    have hav := World.avail_of_none (World.balance_none_iff.1 hnone)
    have hlk := World.locked_of_none (World.balance_none_iff.1 hnone)
    unfold CanAdjust at hcan
    by_cases h0 : 0 < new - i.amountIn
    · rw [if_pos h0] at hcan
      omega
    · omega
  unfold World.adjustment World.ifRow
  by_cases hup : 0 < new - i.amountIn
  · rw [if_pos hup, if_pos (hrow (by omega))]
  · rw [if_neg hup]
    by_cases hdown : new - i.amountIn < 0
    · rw [if_pos hdown, if_pos (hrow (by omega)), Arith.release_rust (by omega), neg_neg]
    · rw [if_neg hdown]
      omega

/-- An overflowing difference moves something else, or would leave 64 bits. -/
theorem adjustment_overflow (hn : w.NonNeg) {new : Int} (hnew : new < 2 ^ 63)
    (hlow : -2 ^ 63 ≤ i.amountIn) (hdiff : 2 ^ 63 ≤ new - i.amountIn)
    (hcan : CanAdjust w owner s (wrapI64 (new - i.amountIn))) :
    w.adjustment .release owner s (wrapI64 (new - i.amountIn)) ≠ new - i.amountIn := by
  intro he
  have hw : wrapI64 (new - i.amountIn) = new - i.amountIn - 2 ^ 64 := by
    unfold wrapI64
    rw [Int.bmod_def]
    omega
  rw [hw] at he hcan
  unfold World.adjustment World.ifRow at he
  rw [if_neg (by omega), if_pos (by omega)] at he
  have hrange := wrapI64_range (-(new - i.amountIn - 2 ^ 64))
  change -(if _ then wrapI64 _ else 0) = _ at he
  split at he
  · -- only a difference of exactly 2^63 gives itself back, and that does not fit on top
    next hrow =>
    obtain ⟨b, hb⟩ := Option.isSome_iff_exists.1 hrow
    obtain ⟨hmem, hkey⟩ := World.balance_some_iff.1 hb
    unfold CanAdjust at hcan
    rw [if_neg (by omega), if_pos (by omega)] at hcan
    have hfit := inI64_iff.1 (hcan b hmem hkey).2
    have hnn := (World.nonNeg_iff.1 hn b.key).2
    rw [World.locked_of_mem hmem] at hnn
    omega
  · omega

theorem World.avail_of_balances {w w' : World} (h : w'.balances = w.balances) (k : Uuid × Asset) :
    w'.avail k = w.avail k := by
  unfold World.avail World.availSum
  rw [h]

theorem World.locked_of_balances {w w' : World} (h : w'.balances = w.balances) (k : Uuid × Asset) :
    w'.locked k = w.locked k := by
  unfold World.locked World.lockedSum
  rw [h]

variable {w' : World} {desk : Desk} {now : Int}

/-- An amount that does not overflow asks for nothing more than it says. -/
theorem proper_of_amended (hn : w.NonNeg) (hi64 : -2 ^ 63 ≤ i.amountIn ∧ i.amountIn < 2 ^ 63)
    (hcan : CanAdjust w m.accountId s (m.diff i))
    (hbal : w'.balances = (adjusted w m.accountId s (m.diff i) now).balances)
    (hrow : w'.intent m.intentId = some (m.row i)) (h : Amended owner desk m i s w w') :
    Proper owner desk m i s := by
  obtain ⟨hacc, ⟨i', hi', hpos, hasked, hmin, hvol, hlocked⟩, -, -, -⟩ := h
  cases hrow.symm.trans hi'
  have hlt : m.asked i < 2 ^ 63 := (newAmount_eq_asked hi64.2).1 hasked
  have hnew : i.newAmount m.newAmountIn = m.asked i := hasked
  rw [hasked] at hpos hmin hvol hlocked
  refine ⟨hacc, ⟨hpos, hlt⟩, ?_, hmin, hvol⟩
  by_contra hover
  have hm := (adjusted_moves now hcan).locked_self
  rw [World.locked_of_balances hbal, ← hacc] at hlocked
  unfold Amend.diff at hcan hm hlocked
  rw [hnew] at hcan hm hlocked
  refine adjustment_overflow hn hlt hi64.1 (by omega) hcan ?_
  omega

/-- A proper request moves the difference. -/
theorem amended_of_proper (hn : w.NonNeg) (hi64 : -2 ^ 63 ≤ i.amountIn ∧ i.amountIn < 2 ^ 63)
    (hcov : i.amountIn ≤ w.locked (owner, s)) (hcan : CanAdjust w m.accountId s (m.diff i))
    (hbal : w'.balances = (adjusted w m.accountId s (m.diff i) now).balances)
    (hrow : w'.intent m.intentId = some (m.row i)) (h : Proper owner desk m i s) :
    Amended owner desk m i s w w' := by
  obtain ⟨rfl, ⟨hpos, hlt⟩, hdiff, hmin, hvol⟩ := h
  have hnew : i.newAmount m.newAmountIn = m.asked i := (newAmount_eq_asked hi64.2).2 hlt
  have hadj : w.adjustment .release m.accountId s (m.diff i) = m.asked i - i.amountIn := by
    unfold Amend.diff at hcan ⊢
    rw [hnew] at hcan ⊢
    exact adjustment_exact hcov hi64.2 hpos hlt hdiff hcan
  have hm := adjusted_moves now hcan
  rw [hadj] at hm
  have hav := (World.avail_of_balances hbal (m.accountId, s)).trans hm.avail_self
  have hlk := (World.locked_of_balances hbal (m.accountId, s)).trans hm.locked_self
  have hnn := World.nonNeg_iff.1 hn (m.accountId, s)
  have hcover : 0 < m.asked i - i.amountIn → m.asked i - i.amountIn ≤ w.avail (m.accountId, s) := by
    intro hup
    have hw : m.diff i = m.asked i - i.amountIn := by
      unfold Amend.diff
      rw [hnew]
      exact wrapI64_of_inI64 (by omega)
    unfold CanAdjust at hcan
    rw [hw, if_pos hup] at hcan
    exact hcan.1
  have hamount : (m.row i).amountIn = i.newAmount m.newAmountIn := rfl
  refine ⟨rfl, ⟨m.row i, hrow, ?_⟩, ?_, ?_, ?_⟩
  · rw [hamount, hnew, hlk]
    exact ⟨hpos, rfl, hmin, hvol, rfl⟩
  · rw [hav, hlk]
    ring
  · rw [hav, hlk]
    omega
  · intro b t hk
    have hother : w'.balance b t = (adjusted w m.accountId s (m.diff i) now).balance b t := by
      unfold World.balance
      rw [hbal]
    rw [hother, adjusted_other hk]

end Moved

/-- A successful amendment is as it should be iff the request is: it names the account that locked
the funds, asks for an amount between 1 and 2^63 - 1 that `create_intent` would take, and the
difference to the current amount is a 64-bit number. -/
theorem amended_iff (bus : Bus) (env : Env) (owner : Uuid) (desk : Desk) (m : Amend) (i : Intent)
    (s : Asset) (w w' : World) (amended : Intent) (hn : w.NonNeg)
    (hi : w.intent m.intentId = some i) (hs : parseAsset i.tokenIn = some s)
    (hi64 : -2 ^ 63 ≤ i.amountIn ∧ i.amountIn < 2 ^ 63) (hcov : i.amountIn ≤ w.locked (owner, s))
    (h : Call.exec (execAct .release bus) (amendIntent env m.intentId m.accountId m.newAmountIn
      m.newMinAmountOut m.newLimitPrice) w = (.ok amended, w')) :
    Amended owner desk m i s w w' ↔ Proper owner desk m i s := by
  obtain ⟨i₀, s₀, hi₀, hs₀, hcan, hbal, hrow⟩ := amendIntent_ok h
  cases hi.symm.trans hi₀
  cases hs.symm.trans hs₀
  constructor
  · intro hamended
    exact proper_of_amended hn hi64 hcan hbal hrow hamended
  · intro hproper
    exact amended_of_proper hn hi64 hcov hcan hbal hrow hproper

/-- Account 2 has 400 USDC and 100 more locked for its open intent 1000, account 3 has 50. -/
def amendDemo : World :=
  { World.empty with
    accounts := [⟨2, 10⟩, ⟨3, 11⟩]
    balances := ⟨[⟨20, 2, .USDC, 400, 100, 0⟩, ⟨30, 3, .USDC, 50, 0, 0⟩], by decide, by decide⟩
    intents := ⟨[Intent.new 1000 "u" "USDC" "ETH" 100 1 0 0], by decide, by decide⟩ }

def amendBus : Bus := ⟨fun _ => true, fun _ => true, ""⟩

def amendEnv : Env := ⟨fun i => 2000 + i, fun _ => 5⟩

/-- One market, which takes orders from 10 on, and a daily limit of 1000. -/
def amendDesk : Desk := ⟨[⟨7, .ETH, .USDC, 1, 10, "ethereum", none⟩], fun _ => none, ⟨10, 1000⟩, 0⟩

def amendRun (m : Amend) : Except IntentError Intent × World :=
  Call.exec (execAct .release amendBus) (amendIntent amendEnv m.intentId m.accountId m.newAmountIn
    m.newMinAmountOut m.newLimitPrice) amendDemo

/-- Account 2 raises its order to 150. -/
theorem amended_by_owner :
    Amended 2 amendDesk ⟨1000, 2, some 150, none, none⟩ (Intent.new 1000 "u" "USDC" "ETH" 100 1 0 0)
      .USDC amendDemo (amendRun ⟨1000, 2, some 150, none, none⟩).2 := by
  have hok : (amendRun ⟨1000, 2, some 150, none, none⟩).1.isOk = true := by decide +kernel
  rcases hr : (amendRun ⟨1000, 2, some 150, none, none⟩).1 with e | r
  · rw [hr] at hok
    cases hok
  · refine (amended_iff amendBus amendEnv 2 amendDesk _ _ .USDC amendDemo _ r
      (by decide +kernel) (by decide +kernel) (by decide +kernel) (by decide +kernel) (by decide +kernel) (Prod.ext hr rfl)).2
      ⟨rfl, by decide +kernel, by decide +kernel, ?_, ?_⟩
    · exact ⟨.ETH, ⟨7, .ETH, .USDC, 1, 10, "ethereum", none⟩, by decide +kernel, by decide +kernel,
        by decide +kernel⟩
    · intro _
      decide +kernel

/-- Account 3 lowers the order of account 2 to 50 and is paid out of a lock it never made. -/
theorem amended_by_stranger :
    ¬ ∀ (bus : Bus) (env : Env) (owner : Uuid) (desk : Desk) (m : Amend) (i : Intent) (s : Asset)
        (w w' : World) (amended : Intent), w.NonNeg → w.intent m.intentId = some i →
      parseAsset i.tokenIn = some s → i.amountIn ≤ w.locked (owner, s) →
      Call.exec (execAct .release bus) (amendIntent env m.intentId m.accountId m.newAmountIn
        m.newMinAmountOut m.newLimitPrice) w = (.ok amended, w') →
      Amended owner desk m i s w w' := by
  intro h
  have hok : (amendRun ⟨1000, 3, some 50, none, none⟩).1.isOk = true := by decide +kernel
  rcases hr : (amendRun ⟨1000, 3, some 50, none, none⟩).1 with e | r
  · rw [hr] at hok
    cases hok
  · have ha := h amendBus amendEnv 2 amendDesk ⟨1000, 3, some 50, none, none⟩
      (Intent.new 1000 "u" "USDC" "ETH" 100 1 0 0) .USDC amendDemo _ r (by decide +kernel)
      (by decide +kernel) (by decide +kernel) (by decide +kernel) (Prod.ext hr rfl)
    have hrow := ha.others 3 .USDC (by decide)
    change (amendRun ⟨1000, 3, some 50, none, none⟩).2.balance 3 .USDC = _ at hrow
    revert hrow
    decide +kernel

end IntentX
