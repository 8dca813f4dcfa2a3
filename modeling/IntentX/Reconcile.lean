import IntentX.Conservation
import Mathlib.Logic.Relation

/-!
# Balances and the ledger

Every balance change is meant to be mirrored by ledger entries of the same value: over any run,
what a cell holds (available plus locked) and the sum that `LedgerRepository::compute_balance` asks
for should move together.

* `settle_fill` credits the solver's fee to the solver's account but books it on the platform
  account, so runs reconcile as long as no fee goes to a solver with an account of its own.
* `BalanceService::transfer` books its two entries with the sides swapped (a `DEBIT` raises a
  balance here), so runs of the balance service reconcile as long as they do not transfer.

In both cases a 64-bit addition that wraps around breaks the agreement as well.  No caller sees
the sum, though: it is `NUMERIC` and does not decode as the `i64` that `get_balance` returns
(`getBalance_error`).
-/

namespace IntentX

open Lib

/-- Available plus locked, weighted. -/
def World.held (w : World) (χ : Cell → Int) : Int := w.availSum χ + w.lockedSum χ

/-- Between `w` and `w'` every holding moves as its ledger does. -/
def Reconciles (w w' : World) : Prop :=
  ∀ χ, w'.held χ - w.held χ = w'.ledgerSum χ - w.ledgerSum χ

theorem Reconciles.refl (w : World) : Reconciles w w := fun χ => by rw [sub_self, sub_self]

theorem Reconciles.trans {w w₁ w' : World} (h : Reconciles w w₁) (h' : Reconciles w₁ w') :
    Reconciles w w' := by
  intro χ
  have h₁ := h χ
  have h₂ := h' χ
  omega

/-! ## Settlement -/

section Settlement

variable {ar : Arith} {w w' : World}

theorem BooksFee.ledgerSum {k : Cell} {x : Int} (h : BooksFee k x w w') (χ : Cell → Int) :
    w'.ledgerSum χ = w.ledgerSum χ + χ k * max 0 x := by
  unfold BooksFee at h
  split at h
  · rw [h.ledgerSum, max_eq_right (by omega)]
  · rw [h, max_eq_left (by omega), mul_zero, add_zero]

theorem FillBooks.ledgerSum {p : SettleFillArgs} {fill : Fill} (h : FillBooks ar p fill w w')
    (χ : Cell → Int) :
    w'.ledgerSum χ = w.ledgerSum χ
      - χ (p.buyerAccountId, p.assetIn) * fill.filledQty
      + χ (p.buyerAccountId, p.assetOut) * fill.qty
      + χ (p.sellerAccountId, p.assetIn) * (fillShares ar p fill).1
      - χ (p.sellerAccountId, p.assetOut) * fill.qty
      + χ (platformAccountId, p.assetIn) * max 0 (fillShares ar p fill).2.1
      + χ (platformAccountId, p.assetIn) * max 0 (fillShares ar p fill).2.2 := by
  obtain ⟨w₁, w₂, w₃, w₄, w₅, h₁, h₂, h₃, h₄, h₅, h₆⟩ := h
  rw [h₆.ledgerSum, h₅.ledgerSum, h₄.ledgerSum, h₃.ledgerSum, h₂.ledgerSum, h₁.ledgerSum]
  ring

theorem TradeBooks.ledgerSum {t : Trade} (h : TradeBooks ar t w w') (χ : Cell → Int) :
    w'.ledgerSum χ = w.ledgerSum χ
      - χ (t.buyerAccountId, t.assetIn) * t.amountIn
      + χ (t.buyerAccountId, t.assetOut) * t.amountOut
      + χ (t.sellerAccountId, t.assetIn) * tradeShare ar t
      - χ (t.sellerAccountId, t.assetOut) * t.amountOut
      + χ (platformAccountId, t.assetIn) * t.platformFee
      + χ (t.solverAccountId, t.assetIn) * t.solverFee := by
  obtain ⟨w₁, w₂, w₃, w₄, w₅, h₁, h₂, h₃, h₄, h₅, h₆⟩ := h
  rw [h₆.ledgerSum, h₅.ledgerSum, h₄.ledgerSum, h₃.ledgerSum, h₂.ledgerSum, h₁.ledgerSum]
  ring

/-- The fee of the fill, if any, goes to the account it is booked on. -/
def SolverFeeBooked (p : SettleFillArgs) (fill : Fill) (w : World) : Prop :=
  (p.fees fill.filledQty).2 ≤ 0 ∨ w.solverAccount fill.solverId = platformAccountId

instance (p : SettleFillArgs) (fill : Fill) (w : World) : Decidable (SolverFeeBooked p fill w) :=
  inferInstanceAs (Decidable (_ ∨ _))

theorem settleFill_reconciles {env : Env} {p : SettleFillArgs}
    (h : Call.exec (execStmt ar) (settleFill ar env p) w = (.ok (), w'))
    (hc : ∀ fill, w.fill p.fillId = some fill → SolverFeeBooked p fill w ∧
      Rooms ar (fillBudget ar p fill).1 (fillBudget ar p fill).2 (fillCells p fill w) w) :
    Reconciles w w' := by
  obtain ⟨fill, w₁, w₂, hfill, -, hmv, hbk, rfl⟩ := settleFill_ok h
  obtain ⟨hfee, hroom⟩ := hc fill hfill
  intro χ
  have hheld : (w₂.markFill p.fillId (env.now 0)).held χ = w₁.held χ := by
    rw [hbk.frame]
    rfl
  have hled : (w₂.markFill p.fillId (env.now 0)).ledgerSum χ = w₂.ledgerSum χ := rfl
  have hled₁ : w₁.ledgerSum χ = w.ledgerSum χ := by
    rw [hmv.frame]
    rfl
  -- the two fee entries agree: there is no solver fee, or both go to the platform
  have hsolver : χ (w.solverAccount fill.solverId, p.assetIn) * max 0 (fillShares ar p fill).2.2 =
      χ (platformAccountId, p.assetIn) * max 0 (fillShares ar p fill).2.2 := by
    rcases hfee with hzero | hsame
    · rw [max_eq_left (show (fillShares ar p fill).2.2 ≤ 0 from hzero), mul_zero, mul_zero]
    · rw [hsame]
  rw [hheld, hled, hbk.ledgerSum, hled₁]
  unfold World.held
  rw [hmv.availSum hroom, hmv.lockedSum, hsolver]
  ring

theorem settleTrade_reconciles {env : Env} {tradeId : Uuid} {r : Trade}
    (h : Call.exec (execStmt ar) (settleTrade ar env tradeId) w = (.ok r, w'))
    (hc : ∀ t, w.trade tradeId = some t →
      Rooms ar (tradeBudget ar t).1 (tradeBudget ar t).2 (tradeCells t) w) :
    Reconciles w w' := by
  obtain ⟨t, w₁, w₂, ht, -, hmv, hbk, rfl⟩ := settleTrade_ok h
  have hroom := hc t ht
  intro χ
  have hheld : (w₂.markTrade t.id (env.now 0)).held χ = w₁.held χ := by
    rw [hbk.frame]
    rfl
  have hled : (w₂.markTrade t.id (env.now 0)).ledgerSum χ = w₂.ledgerSum χ := rfl
  have hled₁ : w₁.ledgerSum χ = w.ledgerSum χ := by
    rw [hmv.frame]
    rfl
  rw [hheld, hled, hbk.ledgerSum, hled₁]
  unfold World.held
  rw [hmv.availSum hroom, hmv.lockedSum]
  ring

end Settlement

/-- A settlement call. -/
inductive SettleCall where
  | fill (p : SettleFillArgs)
  | trade (tradeId : Uuid)

/-- The call succeeds in the release build and takes `w` to `w'`. -/
def SettleCall.Succeeds (w w' : World) : SettleCall → Prop
  | .fill p => ∃ env, settleFillTx .release env p w = (.ok (), w')
  | .trade id => ∃ env t, settleTradeTx .release env id w = (.ok t, w')

/-- The call books what it moves: a solver's fee goes to the account it is booked on, and the
cells that are credited stay within 64 bits. -/
def SettleCall.Booked (w : World) : SettleCall → Prop
  | .fill p => ∀ fill, w.fill p.fillId = some fill → SolverFeeBooked p fill w ∧
      I64Room (fillBudget .release p fill).1 (fillBudget .release p fill).2 (fillCells p fill w) w
  | .trade id => ∀ t, w.trade id = some t →
      I64Room (tradeBudget .release t).1 (tradeBudget .release t).2 (tradeCells t) w

theorem SettleCall.reconciles {w w' : World} {c : SettleCall} (hs : c.Succeeds w w')
    (hb : c.Booked w) : Reconciles w w' := by
  cases c with
  | fill p =>
    obtain ⟨env, h⟩ := hs
    exact settleFill_reconciles (Call.transaction_ok.1 h) fun fill hf =>
      ⟨(hb fill hf).1, (hb fill hf).2.rooms⟩
  | trade id =>
    obtain ⟨env, t, h⟩ := hs
    exact settleTrade_reconciles (Call.transaction_ok.1 h) fun t ht => (hb t ht).rooms

/-- **Settlement reconciles.**  Over a run of successful settlements, all of which book what they
move, the change of what a cell holds is the change of its ledger balance. -/
theorem settlement_run_reconciles (w w' : World)
    (run : Relation.ReflTransGen (fun u u' => ∃ c : SettleCall, c.Booked u ∧ c.Succeeds u u') w w')
    (a : Uuid) (s : Asset) :
    (w'.avail (a, s) + w'.locked (a, s)) - (w.avail (a, s) + w.locked (a, s)) =
      w'.computeBalance a s - w.computeBalance a s := by
  have hrec : Reconciles w w' := by
    induction run with
    | refl => exact Reconciles.refl w
    | tail _ hstep ih =>
      obtain ⟨c, hb, hs⟩ := hstep
      exact ih.trans (SettleCall.reconciles hs hb)
  rw [← World.ledgerSum_only, ← World.ledgerSum_only]
  exact hrec (only (a, s))

/-- The demo fill with the whole fee going to the platform. -/
def platformFeeFill : SettleFillArgs := { demoFill with fees := fun _ => (10, 0) }

theorem platformFeeFill_reconciles :
    ((settleFillTx .release demoEnv platformFeeFill settlementDemo).2.avail (3, .USDC) +
        (settleFillTx .release demoEnv platformFeeFill settlementDemo).2.locked (3, .USDC)) -
      (settlementDemo.avail (3, .USDC) + settlementDemo.locked (3, .USDC)) =
      (settleFillTx .release demoEnv platformFeeFill settlementDemo).2.computeBalance 3 .USDC -
        settlementDemo.computeBalance 3 .USDC := by
  refine settlement_run_reconciles settlementDemo _ (.single ⟨.fill platformFeeFill, ?_, demoEnv, ?_⟩)
    3 .USDC
  · intro fill hf
    have hq : fill = Fill.new 7 70 (uuidText 20) 1 2 100 0 := by
      simpa [World.fill, Table.find, settlementDemo, platformFeeFill, demoFill, Fill.new] using
        hf.symm
    subst hq
    decide +kernel
  · exact Prod.ext (by decide +kernel) rfl

/-- The demo fill pays 3 to the solver's account 3 and books it on the platform. -/
theorem demoFill_not_reconciled :
    ¬ ∀ (w w' : World),
      Relation.ReflTransGen (fun u u' => ∃ c : SettleCall, c.Succeeds u u') w w' →
      ∀ a s, (w'.avail (a, s) + w'.locked (a, s)) - (w.avail (a, s) + w.locked (a, s)) =
        w'.computeBalance a s - w.computeBalance a s := by
  intro h
  have hrun := h settlementDemo (settleFillTx .release demoEnv demoFill settlementDemo).2
    (.single ⟨.fill demoFill, demoEnv, Prod.ext (by decide +kernel) rfl⟩) 3 .USDC
  revert hrun
  decide +kernel

/-! ## The balance service -/

/-- Every cell is a 64-bit value. -/
def World.Fits (w : World) : Prop :=
  ∀ k, (-2 ^ 63 ≤ w.avail k ∧ w.avail k < 2 ^ 63) ∧ (-2 ^ 63 ≤ w.locked k ∧ w.locked k < 2 ^ 63)

section Service

variable {w w₁ w' : World} {k : Cell} {da dl x : Int}

theorem Moves.fits (h : Moves k da dl w w') (hf : w.Fits)
    (ha : -2 ^ 63 ≤ w.avail k + da ∧ w.avail k + da < 2 ^ 63)
    (hl : -2 ^ 63 ≤ w.locked k + dl ∧ w.locked k + dl < 2 ^ 63) : w'.Fits := by
  intro k'
  by_cases hk : k = k'
  · subst hk
    rw [h.avail_self, h.locked_self]
    exact ⟨ha, hl⟩
  · rw [h.avail_ne hk, h.locked_ne hk]
    exact hf k'

/-- A Rust addition wraps around into range, so a credit keeps the cells in range. -/
theorem Credit.fits (h : Credit .release k x w w') (hf : w.Fits) : w'.Fits := by
  have hfit := hf k
  have hrange := wrapI64_range (w.avail k + x)
  refine Moves.fits h hf ?_ (by omega)
  change _ ≤ _ + (wrapI64 (w.avail k + x) - _) ∧ _ + (wrapI64 (w.avail k + x) - _) < _
  omega

theorem Debit.fits (h : Debit .release k x w w') (hf : w.Fits) : w'.Fits := by
  have hfit := hf k
  have hrange := wrapI64_range (w.avail k - x)
  refine Moves.fits h.2 hf ?_ (by omega)
  change _ ≤ _ + (wrapI64 (w.avail k - x) - _) ∧ _ + (wrapI64 (w.avail k - x) - _) < _
  omega

theorem TradeMoves.fits {t : Trade} (h : TradeMoves .release t w w') (hf : w.Fits) : w'.Fits := by
  obtain ⟨w₁, w₂, w₃, w₄, w₅, h₁, h₂, h₃, h₄, h₅, h₆⟩ := h
  exact h₆.fits (h₅.fits (h₄.fits (h₃.fits (h₂.fits (h₁.fits hf)))))

theorem Books.fits (h : Books k x w w') (hf : w.Fits) : w'.Fits := by
  rw [h.frame]
  exact hf

theorem Books.held (h : Books k x w w') (χ : Cell → Int) : w'.held χ = w.held χ := by
  rw [h.frame]
  rfl

theorem Moves.held (h : Moves k da dl w w') (χ : Cell → Int) :
    w'.held χ = w.held χ + χ k * (da + dl) := by
  unfold World.held
  rw [h.avail, h.locked]
  ring

/-- A move with an entry for its net value. -/
theorem Moves.reconciles (h : Moves k da dl w w₁) (hb : Books k (da + dl) w₁ w') :
    Reconciles w w' := by
  intro χ
  rw [hb.held, h.held, hb.ledgerSum, h.ledgerSum]
  ring

/-- A move within a cell needs no entry. -/
theorem Moves.reconciles_within (h : Moves k da (-da) w w') : Reconciles w w' := by
  intro χ
  rw [h.held, h.ledgerSum]
  ring

end Service

/-- The request takes `w` to `w'` in the release build. -/
def BalanceReq.Succeeds (w w' : World) (req : BalanceReq) : Prop :=
  ∃ env r, Call.exec (execStmt .release) (req.call .release env) w = (.ok r, w')

/-- The request is not a transfer and what it adds stays within 64 bits. -/
def BalanceReq.Booked (w : World) : BalanceReq → Prop
  | .deposit a s x => w.avail (a, s) + x < 2 ^ 63
  | .withdraw .. => True
  | .lockBalance a s x => w.locked (a, s) + x < 2 ^ 63
  | .unlockBalance a s x => w.avail (a, s) + x < 2 ^ 63
  | .transfer .. => False

/-- One request keeps the cells within 64 bits and the ledger in step. -/
theorem BalanceReq.reconciles {w w' : World} {req : BalanceReq} (hs : req.Succeeds w w')
    (hb : req.Booked w) (hf : w.Fits) : w'.Fits ∧ Reconciles w w' := by
  obtain ⟨env, r, h⟩ := hs
  cases req with
  | deposit a s x =>
    obtain ⟨b, _, hcall, hret⟩ := Call.exec_bind_ok.1 h
    cases hret
    obtain ⟨hx, w₁, hm, hbk⟩ := deposit_ok hcall
    have hfit := hf (a, s)
    change w.avail (a, s) + x < 2 ^ 63 at hb
    unfold Credit at hm
    rw [Arith.release_rust (by omega), add_sub_cancel_left] at hm
    exact ⟨hbk.fits (hm.fits hf (by omega) (by omega)), hm.reconciles (by simpa using hbk)⟩
  | withdraw a s x =>
    obtain ⟨b, _, hcall, hret⟩ := Call.exec_bind_ok.1 h
    cases hret
    obtain ⟨hx, w₁, ⟨hcov, hm⟩, hbk⟩ := withdraw_ok hcall
    have hfit := hf (a, s)
    rw [Arith.release_rust (by omega), sub_sub_cancel_left] at hm
    exact ⟨hbk.fits (hm.fits hf (by omega) (by omega)), hm.reconciles (by simpa using hbk)⟩
  | lockBalance a s x =>
    obtain ⟨b, _, hcall, hret⟩ := Call.exec_bind_ok.1 h
    cases hret
    obtain ⟨hx, hcov, hm⟩ := lockBalance_ok hcall
    have hfit := hf (a, s)
    change w.locked (a, s) + x < 2 ^ 63 at hb
    rw [Arith.release_rust (by omega), Arith.release_rust (by omega), sub_sub_cancel_left,
      add_sub_cancel_left] at hm
    have hm' : Moves (a, s) (-x) (- -x) w w' := by rwa [neg_neg]
    exact ⟨hm.fits hf (by omega) (by omega), hm'.reconciles_within⟩
  | unlockBalance a s x =>
    obtain ⟨b, _, hcall, hret⟩ := Call.exec_bind_ok.1 h
    cases hret
    obtain ⟨hx, hcov, hm⟩ := unlockBalance_ok hcall
    have hfit := hf (a, s)
    change w.avail (a, s) + x < 2 ^ 63 at hb
    rw [Arith.release_rust (by omega), Arith.release_rust (by omega), add_sub_cancel_left,
      sub_sub_cancel_left] at hm
    exact ⟨hm.fits hf (by omega) (by omega), hm.reconciles_within⟩
  | transfer a b s x => exact hb.elim

/-- A run of requests that all succeed and are booked as they move. -/
def BookedRun : World → World → Prop :=
  Relation.ReflTransGen fun u u' => ∃ req : BalanceReq, req.Booked u ∧ req.Succeeds u u'

/-- A database without balances and ledger entries mirrors itself. -/
theorem mirror_of_empty {w : World} (hbal : w.balances.rows = []) (hled : w.ledgerEntries = [])
    (χ : Cell → Int) : w.held χ = 0 ∧ w.ledgerSum χ = 0 := by
  simp [World.held, World.availSum, World.lockedSum, World.ledgerSum, Table.sum, hbal, hled]

theorem fits_of_empty {w : World} (hbal : w.balances.rows = []) : w.Fits := by
  intro k
  have ha : w.avail k = 0 := World.avail_of_none (by simp [hbal])
  have hl : w.locked k = 0 := World.locked_of_none (by simp [hbal])
  omega

/-- From a database without balances and ledger entries, steps that keep the cells within 64 bits and
the ledger in step with them keep the ledger a mirror of the balances. -/
theorem mirror_of_run {R : World → World → Prop} {w₀ w : World}
    (hstep : ∀ u u', R u u' → u.Fits → u'.Fits ∧ Reconciles u u') (hbal : w₀.balances.rows = [])
    (hled : w₀.ledgerEntries = []) (run : Relation.ReflTransGen R w₀ w) (χ : Cell → Int) :
    w.held χ = w.ledgerSum χ := by
  have hinv : w.Fits ∧ Reconciles w₀ w := by
    induction run with
    | refl => exact ⟨fits_of_empty hbal, Reconciles.refl w₀⟩
    | tail _ hr ih =>
      obtain ⟨hfits, hrec⟩ := hstep _ _ hr ih.1
      exact ⟨hfits, ih.2.trans hrec⟩
  have hrec := hinv.2 χ
  obtain ⟨hheld, hledg⟩ := mirror_of_empty hbal hled χ
  omega

/-- From a database without balances and ledger entries, a run of successful requests without a
transfer keeps the ledger sum of every cell at what the cell holds. -/
theorem BookedRun.computeBalance {w₀ w : World} (run : BookedRun w₀ w) (hbal : w₀.balances.rows = [])
    (hled : w₀.ledgerEntries = []) (a : Uuid) (s : Asset) :
    w.computeBalance a s = w.avail (a, s) + w.locked (a, s) := by
  have hmirror : w.held (only (a, s)) = w.ledgerSum (only (a, s)) := by
    refine mirror_of_run (fun u u' hstep hfit => ?_) hbal hled run _
    obtain ⟨req, hb, hs⟩ := hstep
    exact BalanceReq.reconciles hs hb hfit
  rw [← World.ledgerSum_only, ← hmirror]
  rfl

/-- `get_balance` answers with an error on every database. -/
theorem getBalance_error (ar : Arith) (w : World) (a : Uuid) (s : Asset) :
    ∃ e, Call.exec (execStmt ar) (getBalance a s) w = (.error (.DbError e), w) :=
  ⟨_, rfl⟩

/-- **The balance service never reconciles.**  `get_balance` fails on every database.  The sum it
asks for is what the cell holds, after every run of successful requests without a transfer from a
database without balances and ledger entries. -/
theorem getBalance_never_reconciles (w₀ w : World) (a : Uuid) (s : Asset) :
    (∃ e, Call.exec (execStmt .release) (getBalance a s) w = (.error (.DbError e), w)) ∧
      (w₀.balances.rows = [] → w₀.ledgerEntries = [] → BookedRun w₀ w →
        w.computeBalance a s = w.avail (a, s) + w.locked (a, s)) :=
  ⟨getBalance_error .release w a s, fun hbal hled run => run.computeBalance hbal hled a s⟩

/-- Two accounts and no balances. -/
def twoAccounts : World := { World.empty with accounts := [⟨2, 10⟩, ⟨3, 20⟩] }

/-- The database after a request run alone. -/
def BalanceReq.after (req : BalanceReq) (env : Env) (w : World) : World :=
  (Call.exec (execStmt .release) (req.call .release env) w).2

theorem BalanceReq.succeeds_after {req : BalanceReq} {env : Env} {w : World} {r : List Balance}
    (h : (Call.exec (execStmt .release) (req.call .release env) w).1 = .ok r) :
    req.Succeeds w (req.after env w) :=
  ⟨env, r, Prod.ext h rfl⟩

/-- After a deposit of 100 the ledger sum is 100, and asking for it fails. -/
theorem deposit_reconciles :
    (∃ e, Call.exec (execStmt .release) (getBalance 2 .USDC)
        ((BalanceReq.deposit 2 .USDC 100).after demoEnv twoAccounts) =
      (.error (.DbError e), (BalanceReq.deposit 2 .USDC 100).after demoEnv twoAccounts)) ∧
      ((BalanceReq.deposit 2 .USDC 100).after demoEnv twoAccounts).computeBalance 2 .USDC = 100 := by
  have hdep : (BalanceReq.deposit 2 .USDC 100).Succeeds twoAccounts
      ((BalanceReq.deposit 2 .USDC 100).after demoEnv twoAccounts) :=
    BalanceReq.succeeds_after (r := [⟨1000, 2, .USDC, 100, 0, 0⟩]) (by decide)
  have hroom : (BalanceReq.deposit 2 .USDC 100).Booked twoAccounts := by
    show twoAccounts.avail (2, .USDC) + 100 < 2 ^ 63
    decide
  obtain ⟨herr, hsum⟩ := getBalance_never_reconciles twoAccounts
    ((BalanceReq.deposit 2 .USDC 100).after demoEnv twoAccounts) 2 .USDC
  exact ⟨herr, hsum rfl rfl (.single ⟨_, hroom, hdep⟩)⟩

/-- A second caller's ids. -/
def demoEnv' : Env := ⟨fun i => 2000 + i, fun _ => 0⟩

/-- After a deposit of 100 and a transfer of 40 `get_balance` of the sender fails, and the sum it
asks for is 140, where the sender holds 60. -/
theorem transfer_not_reconciled :
    (¬ ∀ (w₀ w : World), w₀.balances.rows = [] → w₀.ledgerEntries = [] →
      Relation.ReflTransGen (fun u u' => ∃ req : BalanceReq, req.Succeeds u u') w₀ w →
      ∀ a s, Call.exec (execStmt .release) (getBalance a s) w =
        (.ok (w.avail (a, s) + w.locked (a, s)), w)) ∧
    ¬ ∀ (w₀ w : World), w₀.balances.rows = [] → w₀.ledgerEntries = [] →
      Relation.ReflTransGen (fun u u' => ∃ req : BalanceReq, req.Succeeds u u') w₀ w →
      ∀ a s, w.computeBalance a s = w.avail (a, s) + w.locked (a, s) := by
  have hdep : (BalanceReq.deposit 2 .USDC 100).Succeeds twoAccounts
      ((BalanceReq.deposit 2 .USDC 100).after demoEnv twoAccounts) :=
    BalanceReq.succeeds_after (r := [⟨1000, 2, .USDC, 100, 0, 0⟩]) (by decide)
  have htra : (BalanceReq.transfer 2 3 .USDC 40).Succeeds
      ((BalanceReq.deposit 2 .USDC 100).after demoEnv twoAccounts)
      ((BalanceReq.transfer 2 3 .USDC 40).after demoEnv'
        ((BalanceReq.deposit 2 .USDC 100).after demoEnv twoAccounts)) :=
    BalanceReq.succeeds_after
      (r := [⟨1000, 2, .USDC, 60, 0, 0⟩, ⟨2001, 3, .USDC, 40, 0, 0⟩]) (by decide)
  have run : Relation.ReflTransGen (fun u u' => ∃ req : BalanceReq, req.Succeeds u u') twoAccounts
      ((BalanceReq.transfer 2 3 .USDC 40).after demoEnv'
        ((BalanceReq.deposit 2 .USDC 100).after demoEnv twoAccounts)) :=
    .tail (.single ⟨_, hdep⟩) ⟨_, htra⟩
  constructor <;> intro h
  · have hans := congrArg Prod.fst (h twoAccounts _ rfl rfl run 2 .USDC)
    revert hans
    decide
  · have hsum := h twoAccounts _ rfl rfl run 2 .USDC
    revert hsum
    decide

end IntentX
