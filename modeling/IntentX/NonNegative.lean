import IntentX.LockAccounting

/-!
# No negative balances

No constraint of the database keeps `available_balance` and `locked_balance` from going below 0;
each writer has to.  A call is a chain of moves of cells, so it keeps them at 0 or above when each
move does (`World.NonNeg.moves`).  `FundsReq.Guarded` is the condition, on the state before a call,
that the writers without a check of their own need: what they release is locked, and what they
add with Rust's `+` does not wrap around.
-/

namespace IntentX

open Lib

def World.NonNeg (w : World) : Prop :=
  ∀ b ∈ w.balances.rows, 0 ≤ b.availableBalance ∧ 0 ≤ b.lockedBalance

instance (w : World) : Decidable w.NonNeg :=
  inferInstanceAs (Decidable (∀ b ∈ w.balances.rows, 0 ≤ b.availableBalance ∧ 0 ≤ b.lockedBalance))

section Moves

variable {w w₁ w' : World} {k : Cell} {da dl x : Int}

theorem World.nonNeg_iff : w.NonNeg ↔ ∀ k, 0 ≤ w.avail k ∧ 0 ≤ w.locked k := by
  constructor
  · intro h k
    rcases hb : w.balance k.1 k.2 with _ | b
    · have hnone := World.balance_none_iff.1 hb
      rw [World.avail_of_none hnone, World.locked_of_none hnone]
      exact ⟨le_rfl, le_rfl⟩
    · obtain ⟨hm, hk⟩ := World.balance_some_iff.1 hb
      have hkey : k = b.key := hk.symm
      rw [hkey, World.avail_of_mem hm, World.locked_of_mem hm]
      exact h b hm
  · intro h b hb
    have hk := h b.key
    rwa [World.avail_of_mem hb, World.locked_of_mem hb] at hk

/-- A move keeps all cells at 0 or above if it keeps its own there. -/
theorem World.NonNeg.moves (h : w.NonNeg) (hm : Moves k da dl w w') (ha : 0 ≤ w.avail k + da)
    (hl : 0 ≤ w.locked k + dl) : w'.NonNeg := by
  rw [World.nonNeg_iff] at h ⊢
  intro k'
  by_cases hk : k = k'
  · subst hk
    rw [hm.avail_self, hm.locked_self]
    exact ⟨ha, hl⟩
  · rw [hm.avail_ne hk, hm.locked_ne hk]
    exact h k'

theorem World.NonNeg.add (h : w.NonNeg) (hm : Moves k da 0 w w') (ha : 0 ≤ da) : w'.NonNeg := by
  have hk := World.nonNeg_iff.1 h k
  exact h.moves hm (by omega) (by omega)

/-- A debit of the available balance that the cell covers. -/
theorem World.NonNeg.debit {x : Int} (h : w.NonNeg) (hcov : x ≤ w.avail k) (hm : Moves k (-x) 0 w w') :
    w'.NonNeg := by
  have hk := World.nonNeg_iff.1 h k
  exact h.moves hm (by omega) (by omega)

theorem World.NonNeg.books (h : w.NonNeg) (hb : Books k x w w') : w'.NonNeg := by
  rw [hb.frame]
  exact h

theorem nonNeg_silent : Silent World.NonNeg := ⟨fun _ _ h => h, fun _ _ h => h⟩

end Moves

/-! ## Intents -/

section Intents

variable {ar : Arith} {w w' : World} {a id : Uuid} {s : Asset} {x now : Int}

theorem World.ifRow_none (h : w.balance a s = none) : w.ifRow a s x = 0 := by
  unfold World.ifRow
  rw [h]
  rfl

theorem World.ifRow_cases (w : World) (a : Uuid) (s : Asset) (x : Int) :
    w.ifRow a s x = x ∨ w.ifRow a s x = 0 := by
  unfold World.ifRow
  split
  · exact .inl rfl
  · exact .inr rfl

/-- Locking an amount that is available. -/
theorem nonNeg_create {i : Intent} (h : w.NonNeg) (hx : 0 ≤ x)
    (hbody : Call.exec (execStmt ar) (createBody a s x now i) w = (.ok (), w')) : w'.NonNeg := by
  obtain ⟨hcov, w₁, t, hm, -, rfl⟩ := createBody_ok hbody
  have hk := World.nonNeg_iff.1 h (a, s)
  have hrow := w.ifRow_cases a s x
  have hw₁ : w₁.NonNeg := h.moves hm (by omega) (by omega)
  exact hw₁

/-- Moving `x` between the two columns of a row, where the row has room for it. -/
theorem nonNeg_shift {d : Int} (h : w.NonNeg) (hm : Moves (a, s) (w.ifRow a s d) (-w.ifRow a s d) w w')
    (hd : ∀ b, w.balance a s = some b → -b.availableBalance ≤ d ∧ d ≤ b.lockedBalance) :
    w'.NonNeg := by
  rcases hb : w.balance a s with _ | b
  · have hk := World.nonNeg_iff.1 h (a, s)
    rw [World.ifRow_none hb] at hm
    exact h.moves hm (by omega) (by omega)
  · obtain ⟨hmem, hkey⟩ := World.balance_some_iff.1 hb
    have hrow : w.ifRow a s d = d := by
      unfold World.ifRow
      rw [hb]
      rfl
    rw [hrow] at hm
    have ha : w.avail (a, s) = b.availableBalance := by rw [← hkey, World.avail_of_mem hmem]
    have hl : w.locked (a, s) = b.lockedBalance := by rw [← hkey, World.locked_of_mem hmem]
    have hroom := hd b hb
    exact h.moves hm (by omega) (by omega)

theorem nonNeg_release {st : IntentStatus} (h : w.NonNeg)
    (hx : ∀ b, w.balance a s = some b → -b.availableBalance ≤ x ∧ x ≤ b.lockedBalance)
    (hbody : Call.exec (execStmt ar) (releaseBody id a s x now st) w = (.ok (), w')) : w'.NonNeg := by
  obtain ⟨w₁, hm, rfl⟩ := releaseBody_ok hbody
  have hw₁ : w₁.NonNeg := nonNeg_shift h hm hx
  exact hw₁

theorem nonNeg_amend {y z : Option UInt64} {p : Option Int} (h : w.NonNeg)
    (hcond : ∀ i s b, w.intent id = some i → i.status.amendable = true →
      parseAsset i.tokenIn = some s → w.balance a s = some b →
      wrapI64 (i.newAmount y - i.amountIn) < 0 →
      -2 ^ 63 < wrapI64 (i.newAmount y - i.amountIn) ∧
        -wrapI64 (i.newAmount y - i.amountIn) ≤ b.lockedBalance)
    (hbody : Call.exec (execStmt .release) (amendBody .release id a y z p now) w = (.ok (), w')) :
    w'.NonNeg := by
  obtain ⟨i, s, w₁, log, minOut, price, hi, hst, hs, ⟨hcov, hm⟩, rfl⟩ := amendBody_ok hbody
  have hrel := hcond i s
  have hrange := wrapI64_range (i.newAmount y - i.amountIn)
  change 0 < wrapI64 (i.newAmount y - i.amountIn) → wrapI64 (i.newAmount y - i.amountIn) ≤ _ at hcov
  change Moves _ (-w.adjustment .release a s (wrapI64 (i.newAmount y - i.amountIn)))
    (w.adjustment .release a s (wrapI64 (i.newAmount y - i.amountIn))) w w₁ at hm
  generalize wrapI64 (i.newAmount y - i.amountIn) = d at hrel hrange hcov hm
  have hk := World.nonNeg_iff.1 h (a, s)
  have hw₁ : w₁.NonNeg := by
    unfold World.adjustment at hm
    split at hm
    · next hpos =>
      have hle := hcov hpos
      have hrow := w.ifRow_cases a s d
      exact h.moves hm (by omega) (by omega)
    · split at hm
      · next hneg =>
        rw [neg_neg] at hm
        refine nonNeg_shift h hm fun b hb => ?_
        obtain ⟨hlo, hle⟩ := hrel b hi hst hs hb hneg
        have hrust : Arith.release.rust (-d) = -d := Arith.release_rust (by omega)
        have hav := h b (World.balance_some_iff.1 hb).1
        rw [hrust]
        omega
      · exact h.moves hm (by omega) (by omega)
  exact hw₁

theorem nonNeg_expire {j : Intent} {b : Bool} (h : w.NonNeg)
    (hcond : ∀ i k r, w.intent j.id = some i → i.status.amendable = true →
      w.expiryCell j = some k → w.balance k.1 k.2 = some r → -r.availableBalance ≤ j.amountIn)
    (hbody : Call.exec (execStmt ar) (expireBody j now) w = (.ok b, w')) : w'.NonNeg := by
  rcases expireBody_ok hbody with ⟨-, rfl⟩ | ⟨i, w₁, hi, hst, hmove, hstay, rfl⟩
  · exact h
  have hw₁ : w₁.NonNeg := by
    rcases hc : w.expiryCell j with _ | k
    · rw [hstay hc]
      exact h
    · have hm := hmove k hc
      have hk := World.nonNeg_iff.1 h k
      have hrel : w.expiryRelease j = w.ifLocked k.1 k.2 j.amountIn := by
        unfold World.expiryRelease
        rw [hc]
      rw [hrel] at hm
      unfold World.ifLocked at hm
      split at hm
      · next hany =>
        -- the statement's own guard covers the locked column
        obtain ⟨r, hr, hle⟩ := (Option.any_eq_true _ _).1 hany
        obtain ⟨hmem, hkey⟩ := World.balance_some_iff.1 hr
        have hkey' : r.key = k := hkey
        have ha : w.avail k = r.availableBalance := by rw [← hkey', World.avail_of_mem hmem]
        have hl : w.locked k = r.lockedBalance := by rw [← hkey', World.locked_of_mem hmem]
        have hroom := hcond i k r hi hst hc hr
        have hle' := of_decide_eq_true hle
        exact h.moves hm (by omega) (by omega)
      · exact h.moves hm (by omega) (by omega)
  exact hw₁

end Intents

/-! ## Settlement -/

section Settlement

variable {env : Env} {w w' : World}

/-- What is handed over is covered, and nothing negative is paid. -/
theorem World.NonNeg.payOut {kr kd kg kp ks : Cell} {share out pf sf : Int} (h : w.NonNeg)
    (hpay : PayOut kr kd kg kp ks share out pf sf w w') (hshare : 0 ≤ share) (hout : 0 ≤ out) (hpf : 0 ≤ pf)
    (hsf : 0 ≤ sf) : w'.NonNeg := by
  obtain ⟨w₁, w₂, w₃, w₄, receive, deliver, hcov, give, platform, solver⟩ := hpay
  have n₁ : w₁.NonNeg := h.add receive hshare
  have n₂ : w₂.NonNeg := n₁.add deliver hout
  have n₃ : w₃.NonNeg := n₂.debit hcov give
  have n₄ : w₄.NonNeg := n₃.add platform hpf
  exact n₄.add solver hsf

theorem nonNeg_settleFill {p : SettleFillArgs} (h : w.NonNeg) (hfit : w.Fits)
    (hfee : ∀ f, w.fill p.fillId = some f → FeesOk (p.fees f.filledQty) f.filledQty)
    (hcond : ∀ f, w.fill p.fillId = some f → 0 ≤ f.qty ∧ NoWraps .release (fillSteps .release p f w) w)
    (hx : Call.exec (execStmt .release) (settleFill .release env p) w = (.ok (), w')) : w'.NonNeg := by
  obtain ⟨f, w₆, v₆, hf, -, hmv, hbk, rfl⟩ := settleFill_ok hx
  obtain ⟨hs, hst, hta⟩ := hfee f hf
  obtain ⟨hqty, hsums⟩ := hcond f hf
  obtain ⟨w₁, ⟨hcov, hdebit⟩, hpay⟩ := hmv.payOut_of_noWraps hsums
  have hrange := (hfit (p.buyerAccountId, p.assetIn)).2
  have hshare : (fillShares .release p f).1 = f.filledQty - (p.fees f.filledQty).1 :=
    Arith.release_rust (by omega)
  -- the two debits are covered, the credits are not negative
  have k₁ := World.nonNeg_iff.1 h (p.buyerAccountId, p.assetIn)
  have n₁ : w₁.NonNeg := h.moves hdebit (by omega) (by omega)
  have n₆ : w₆.NonNeg := n₁.payOut hpay (by omega) hqty (by omega) (by omega)
  have n₇ : v₆.NonNeg := by
    rw [hbk.frame]
    exact n₆
  exact n₇

theorem nonNeg_settleTrade {id : Uuid} {r : Trade} (h : w.NonNeg) (hfit : w.Fits)
    (hfee : ∀ t, w.trade id = some t →
      0 ≤ t.platformFee ∧ 0 ≤ t.solverFee ∧ t.platformFee + t.solverFee ≤ t.amountIn)
    (hcond : ∀ t, w.trade id = some t → 0 ≤ t.amountOut ∧ NoWraps .release (tradeSteps .release t) w)
    (hx : Call.exec (execStmt .release) (settleTrade .release env id) w = (.ok r, w')) : w'.NonNeg := by
  obtain ⟨t, w₆, v₆, ht, -, hmv, hbk, rfl⟩ := settleTrade_ok hx
  obtain ⟨hpf, hsf, hsum⟩ := hfee t ht
  obtain ⟨hout, hsums⟩ := hcond t ht
  obtain ⟨w₁, hcov, hdebit, hpay⟩ := hmv.payOut_of_noWraps hsums
  have hrange := (hfit (t.buyerAccountId, t.assetIn)).1
  have hinner : Arith.release.rust (t.amountIn - t.platformFee) = t.amountIn - t.platformFee :=
    Arith.release_rust (by omega)
  have hshare : tradeShare .release t = t.amountIn - t.platformFee - t.solverFee := by
    unfold tradeShare
    rw [hinner]
    exact Arith.release_rust (by omega)
  have n₁ : w₁.NonNeg := h.debit hcov hdebit
  have n₆ : w₆.NonNeg := n₁.payOut hpay (by omega) hout hpf hsf
  have n₇ : v₆.NonNeg := by
    rw [hbk.frame]
    exact n₆
  exact n₇

end Settlement

/-! ## The balance service -/

/-- What a request adds with Rust's `+` stays within 64 bits. -/
def BalanceReq.NoWrap (w : World) : BalanceReq → Prop
  | .deposit a s x | .unlockBalance a s x => w.avail (a, s) + x < 2 ^ 63
  | .withdraw .. => True
  | .lockBalance a s x => w.locked (a, s) + x < 2 ^ 63
  | .transfer _ b s x => w.avail (b, s) + x < 2 ^ 63

theorem BalanceReq.nonNeg {w w' : World} {req : BalanceReq} (h : w.NonNeg) (hfit : w.Fits)
    (hb : req.NoWrap w) (hs : req.Succeeds w w') : w'.NonNeg := by
  obtain ⟨env, r, hx⟩ := hs
  have hpos := World.nonNeg_iff.1 h
  cases req with
  | deposit a s x =>
    obtain ⟨b, _, hcall, hret⟩ := Call.exec_bind_ok.1 hx
    cases hret
    obtain ⟨hx, w₁, hm, hbk⟩ := deposit_ok hcall
    have hk := hpos (a, s)
    change w.avail (a, s) + x < 2 ^ 63 at hb
    unfold Credit at hm
    rw [Arith.release_rust (by omega)] at hm
    exact (h.moves hm (by omega) (by omega)).books hbk
  | withdraw a s x =>
    obtain ⟨b, _, hcall, hret⟩ := Call.exec_bind_ok.1 hx
    cases hret
    obtain ⟨hx, w₁, ⟨hcov, hm⟩, hbk⟩ := withdraw_ok hcall
    have hk := hpos (a, s)
    have hrange := hfit (a, s)
    rw [Arith.release_rust (by omega), sub_sub_cancel_left] at hm
    exact (h.debit hcov hm).books hbk
  | lockBalance a s x =>
    obtain ⟨b, _, hcall, hret⟩ := Call.exec_bind_ok.1 hx
    cases hret
    obtain ⟨hx, hcov, hm⟩ := lockBalance_ok hcall
    have hk := hpos (a, s)
    have hrange := hfit (a, s)
    change w.locked (a, s) + x < 2 ^ 63 at hb
    rw [Arith.release_rust (by omega), Arith.release_rust (by omega)] at hm
    exact h.moves hm (by omega) (by omega)
  | unlockBalance a s x =>
    obtain ⟨b, _, hcall, hret⟩ := Call.exec_bind_ok.1 hx
    cases hret
    obtain ⟨hx, hcov, hm⟩ := unlockBalance_ok hcall
    have hk := hpos (a, s)
    have hrange := hfit (a, s)
    change w.avail (a, s) + x < 2 ^ 63 at hb
    rw [Arith.release_rust (by omega), Arith.release_rust (by omega)] at hm
    exact h.moves hm (by omega) (by omega)
  | transfer a b s x =>
    obtain ⟨b', _, hcall, hret⟩ := Call.exec_bind_ok.1 hx
    cases hret
    obtain ⟨hx, hcov, w₁, w₂, w₃, hm₁, hm₂, hbk₁, hbk₂⟩ := transfer_ok hcall
    have hka := hpos (a, s)
    have hkb := hpos (b, s)
    have hrange := hfit (a, s)
    change w.avail (b, s) + x < 2 ^ 63 at hb
    rw [Arith.release_rust (by omega)] at hm₁ hm₂
    have n₁ : w₁.NonNeg := h.moves hm₁ (by omega) (by omega)
    have hk₁ := World.nonNeg_iff.1 n₁ (b, s)
    -- the receiver's row is set to what it held before either write, plus the amount
    have n₂ : w₂.NonNeg := n₁.moves hm₂ (by omega) (by omega)
    exact (n₂.books hbk₁).books hbk₂

/-! ## Runs -/

/-- The calls that write balances. -/
inductive FundsReq where
  | balance (req : BalanceReq)
  | create (view : RiskView) (userId : String) (accountId : Uuid) (tokenIn tokenOut : String)
      (amountIn minAmountOut : UInt64) (deadline : Int)
  | amend (intentId accountId : Uuid) (newAmountIn newMinAmountOut : Option UInt64)
      (newLimitPrice : Option Int)
  | cancel (intentId accountId : Uuid)
  | fail (intentId accountId : Uuid)
  | expire (intent : Intent)
  | settleFill (p : SettleFillArgs)
  | settleTrade (tradeId : Uuid)

namespace FundsReq

/-- The call returns without an error and takes `w` to `w'`, in the release build. -/
def Succeeds (w w' : World) : FundsReq → Prop
  | .balance req => req.Succeeds w w'
  | .create view u a x y n m d => ∃ env bus r,
      Call.exec (execAct .release bus) (createIntent env view u a x y n m d) w = (.ok r, w')
  | .amend id a n m p => ∃ env bus r,
      Call.exec (execAct .release bus) (amendIntent env id a n m p) w = (.ok r, w')
  | .cancel id a => ∃ env bus r,
      Call.exec (execAct .release bus) (cancelIntent env id a) w = (.ok r, w')
  | .fail id a => ∃ env bus r,
      Call.exec (execAct .release bus) (failIntent env id a) w = (.ok r, w')
  | .expire i => ∃ env bus r, Call.exec (execAct .release bus) (expireIntent env i) w = (.ok r, w')
  | .settleFill p => ∃ env, settleFillTx .release env p w = (.ok (), w')
  | .settleTrade id => ∃ env t, settleTradeTx .release env id w = (.ok t, w')

/-- Minimum order sizes are not negative, and fees are neither negative nor more than the amount. -/
def Regular (w : World) : FundsReq → Prop
  | .create view .. => ∀ ms, view.markets = some ms → ∀ m ∈ ms, 0 ≤ m.minOrderSize
  | .settleFill p => ∀ f, w.fill p.fillId = some f → FeesOk (p.fees f.filledQty) f.filledQty
  | .settleTrade id => ∀ t, w.trade id = some t →
      0 ≤ t.platformFee ∧ 0 ≤ t.solverFee ∧ t.platformFee + t.solverFee ≤ t.amountIn
  | _ => True

/-- What the call does not check itself. -/
def Guarded (w : World) : FundsReq → Prop
  | .balance req => req.NoWrap w
  | .create .. => True
  -- an amendment downwards releases no more than the account has locked
  | .amend id a n _ _ => ∀ i s b, w.intent id = some i → i.status.amendable = true →
      parseAsset i.tokenIn = some s → w.balance a s = some b →
      wrapI64 (i.newAmount n - i.amountIn) < 0 →
      -2 ^ 63 < wrapI64 (i.newAmount n - i.amountIn) ∧
        -wrapI64 (i.newAmount n - i.amountIn) ≤ b.lockedBalance
  -- the account that is named has the amount of the intent locked
  | .cancel id a | .fail id a => ∀ i s b, w.intent id = some i → parseAsset i.tokenIn = some s →
      w.balance a s = some b → -b.availableBalance ≤ i.amountIn ∧ i.amountIn ≤ b.lockedBalance
  -- the amount is not so negative that releasing it overdraws
  | .expire j => ∀ i k b, w.intent j.id = some i → i.status.amendable = true →
      w.expiryCell j = some k → w.balance k.1 k.2 = some b → -b.availableBalance ≤ j.amountIn
  -- nothing negative is delivered and no balance that is stored wraps around
  | .settleFill p => ∀ f, w.fill p.fillId = some f →
      0 ≤ f.qty ∧ NoWraps .release (fillSteps .release p f w) w
  | .settleTrade id => ∀ t, w.trade id = some t →
      0 ≤ t.amountOut ∧ NoWraps .release (tradeSteps .release t) w

/-- One call keeps the balances at 0 or above. -/
theorem nonNeg {w w' : World} {req : FundsReq} (h : w.NonNeg) (hfit : w.Fits) (hr : req.Regular w)
    (hg : req.Guarded w) (hs : req.Succeeds w w') : w'.NonNeg := by
  cases req with
  | balance req => exact BalanceReq.nonNeg h hfit hg hs
  | create view u a x y n m d =>
    obtain ⟨env, bus, r, hx⟩ := hs
    refine Call.Ends.holds (createIntent_ends nonNeg_silent h ?_) hx
    intro mkt s w₁ hval _ hbody
    obtain ⟨ms, hms, hmem, hmin⟩ := validateIntent_ok hval
    exact nonNeg_create h (le_trans (hr ms hms mkt hmem) hmin) hbody
  | amend id a n m p =>
    obtain ⟨env, bus, r, hx⟩ := hs
    exact (amendIntent_ends nonNeg_silent h fun _ hbody => nonNeg_amend h hg hbody).holds hx
  | cancel id a =>
    obtain ⟨env, bus, r, hx⟩ := hs
    refine Call.Ends.holds (closeIntent_ends nonNeg_silent h ?_) hx
    intro i s w₁ hi hs hbody
    exact nonNeg_release h (fun b hb => hg i s b hi hs hb) hbody
  | fail id a =>
    obtain ⟨env, bus, r, hx⟩ := hs
    refine Call.Ends.holds (closeIntent_ends nonNeg_silent h ?_) hx
    intro i s w₁ hi hs hbody
    exact nonNeg_release h (fun b hb => hg i s b hi hs hb) hbody
  | expire j =>
    obtain ⟨env, bus, r, hx⟩ := hs
    exact (expireIntent_ends nonNeg_silent h fun _ _ hbody => nonNeg_expire h hg hbody).holds hx
  | settleFill p =>
    obtain ⟨env, hx⟩ := hs
    exact nonNeg_settleFill h hfit hr hg (Call.transaction_ok.1 hx)
  | settleTrade id =>
    obtain ⟨env, t, hx⟩ := hs
    exact nonNeg_settleTrade h hfit hr hg (Call.transaction_ok.1 hx)

end FundsReq

/-- The columns are 64-bit. -/
def World.I64Rows (w : World) : Prop :=
  ∀ b ∈ w.balances.rows, inI64 b.availableBalance = true ∧ inI64 b.lockedBalance = true

instance (w : World) : Decidable w.I64Rows :=
  inferInstanceAs (Decidable (∀ b ∈ w.balances.rows,
    inI64 b.availableBalance = true ∧ inI64 b.lockedBalance = true))

theorem World.I64Rows.fits {w : World} (h : w.I64Rows) : w.Fits := by
  intro k
  rcases hb : w.balance k.1 k.2 with _ | b
  · have hnone := World.balance_none_iff.1 hb
    rw [World.avail_of_none hnone, World.locked_of_none hnone]
    omega
  · obtain ⟨hm, hk⟩ := World.balance_some_iff.1 hb
    have hkey : k = b.key := hk.symm
    rw [hkey, World.avail_of_mem hm, World.locked_of_mem hm]
    exact ⟨inI64_iff.1 (h b hm).1, inI64_iff.1 (h b hm).2⟩

/-- A successful call with regular arguments that meets the condition `C`, on 64-bit columns. -/
def FundsStep (C : World → FundsReq → Prop) (w w' : World) : Prop :=
  ∃ req : FundsReq, w.I64Rows ∧ req.Regular w ∧ C w req ∧ req.Succeeds w w'

/-- **No negative balances.**  A run of successful calls that are all guarded keeps every balance
at 0 or above. -/
theorem funds_run_nonNeg (w w' : World) (h : w.NonNeg)
    (run : Relation.ReflTransGen (FundsStep fun u req => req.Guarded u) w w') : w'.NonNeg := by
  induction run with
  | refl => exact h
  | tail _ hstep ih =>
    obtain ⟨req, hrows, hr, hg, hs⟩ := hstep
    exact req.nonNeg ih hrows.fits hr hg hs

/-- A call that returned is a successful one. -/
theorem succeeds_of_isOk {E α σ : Type} {x : Except E α × σ} (h : x.1.isOk = true) :
    ∃ r, x = (.ok r, x.2) := by
  rcases x with ⟨r, s⟩
  cases r with
  | error e => cases h
  | ok a => exact ⟨a, rfl⟩

theorem cancel_succeeds {w : World} {id a : Uuid}
    (h : (Call.exec (execAct .release upBus) (cancelIntent demoEnv id a) w).1.isOk = true) :
    (FundsReq.cancel id a).Succeeds w ((LockReq.cancel id a).after demoEnv upBus w) := by
  obtain ⟨r, hr⟩ := succeeds_of_isOk h
  exact ⟨demoEnv, upBus, r, hr⟩

/-- Cancelling the intent of the demo once keeps the balances at 0 or above. -/
theorem cancelled_once_nonNeg : createdLocks.world.NonNeg ∧ cancelledLocks.world.NonNeg := by
  have hnn : createdLocks.world.NonNeg := by decide +kernel
  refine ⟨hnn, funds_run_nonNeg createdLocks.world _ hnn (.single
    ⟨.cancel 1000 2, by decide +kernel, trivial, ?_, cancel_succeeds (by decide +kernel)⟩)⟩
  intro i s b hi hs hb
  have hall : (createdLocks.world.intent 1000).all (fun i => decide (i.amountIn = 100) &&
      (parseAsset i.tokenIn == some .USDC)) = true := by decide +kernel
  have hrow : (createdLocks.world.balance 2 .USDC).all (fun b =>
      decide (b.availableBalance = 400) && decide (b.lockedBalance = 100)) = true := by decide +kernel
  have h₁ := (Option.all_eq_true _ _).1 hall i hi
  simp only [Bool.and_eq_true, decide_eq_true_eq, beq_iff_eq] at h₁
  cases h₁.2.symm.trans hs
  have h₂ := (Option.all_eq_true _ _).1 hrow b hb
  simp only [Bool.and_eq_true, decide_eq_true_eq] at h₂
  omega

/-- Cancelling it a second time releases the 100 USDC again, and leaves -100 locked. -/
theorem cancelled_twice_negative :
    ¬ ∀ w w' : World, w.NonNeg → Relation.ReflTransGen (FundsStep fun _ _ => True) w w' →
      w'.NonNeg := by
  intro h
  have hrun := h createdLocks.world ((LockReq.cancel 1000 2).after demoEnv upBus cancelledLocks.world)
    (by decide +kernel)
    (.tail (.single ⟨.cancel 1000 2, by decide +kernel, trivial, trivial,
        cancel_succeeds (by decide +kernel)⟩)
      ⟨.cancel 1000 2, by decide +kernel, trivial, trivial, cancel_succeeds (by decide +kernel)⟩)
  revert hrun
  decide +kernel

end IntentX
