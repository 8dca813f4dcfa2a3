import IntentX.Reconcile

/-!
# The invariant checker

The fund-conservation checks of `InvariantChecker` (`src/chaos/verify.rs`): the per-asset check
`check_balance_sum_constant` and the per-account check `check_ledger_debits_equal_credits`.  Both
ask Postgres for sums of `BIGINT` columns and read them as `i64`, which fails on the first row; the
checks report that as a violation.  So they are silent only while there is nothing to sum, which
is to say before the first call (`checkFunds_passed_iff_no_call`).

Both also recompute the net position of the ledger as credits minus debits, while every writer
books a raised balance as a `DEBIT`: on a database whose ledger mirrors its balances the query of
the per-account check finds every row that is worth anything (`ledgerMismatches_of_mirror`).
-/

namespace IntentX

open Lib

def Asset.text : Asset → String
  | .USDC => "USDC"
  | .ETH => "ETH"
  | .BTC => "BTC"
  | .SOL => "SOL"

def Asset.all : List Asset := [.USDC, .ETH, .BTC, .SOL]

structure Violation where
  check : String
  detail : String
  deriving DecidableEq, Repr

structure InvariantReport where
  violations : List Violation
  checksRun : Nat
  checksPassed : Nat
  deriving DecidableEq, Repr

namespace InvariantReport

def new : InvariantReport := ⟨[], 0, 0⟩

def recordPass (r : InvariantReport) : InvariantReport :=
  { r with checksRun := r.checksRun + 1, checksPassed := r.checksPassed + 1 }

def recordFail (r : InvariantReport) (check detail : String) : InvariantReport :=
  { r with checksRun := r.checksRun + 1, violations := r.violations ++ [⟨check, detail⟩] }

def passed (r : InvariantReport) : Bool := r.violations.isEmpty

/-- One failure for each of the rows found, a pass when there is none. -/
def record {α : Type} (r : InvariantReport) (check : String) (detail : α → String) :
    List α → InvariantReport
  | [] => r.recordPass
  | bad => bad.foldl (fun r x => r.recordFail check (detail x)) r

end InvariantReport

/-! ## Queries -/

/-- `CASE WHEN entry_type = 'CREDIT' THEN amount ELSE -amount END`. -/
def LedgerEntry.creditNet (e : LedgerEntry) : Int :=
  match e.entryType with
  | .CREDIT => e.amount
  | .DEBIT => -e.amount

/-- `available_balance + locked_balance` -/
def Balance.total (b : Balance) : Int := b.availableBalance + b.lockedBalance

/-- `fetch_all` of rows whose column `index` is `NUMERIC` and read as an `i64`. -/
def fetchNumeric {α : Type} (index : Nat) : List α → Except SqlError (List α)
  | [] => .ok []
  | _ :: _ => .error (.ColumnDecode index)

/-- The ledger's net position in an asset. -/
def World.ledgerNet (w : World) (s : Asset) : Int :=
  ((w.ledgerEntries.filter fun e => e.asset == s).map LedgerEntry.creditNet).sum

/-- `COALESCE(l.net, 0)` of the per-account check. -/
def World.accountNet (w : World) (a : Uuid) (s : Asset) : Int :=
  ((w.ledgerEntries.filter fun e => e.accountId == a && e.asset == s).map
    LedgerEntry.creditNet).sum

/-- `SELECT asset, SUM(available_balance + locked_balance) FROM balances GROUP BY asset`. -/
def World.balanceSums (w : World) : Except SqlError (List (Asset × Int)) :=
  if w.balances.rows.all fun b => inI64 b.total then
    fetchNumeric 1 ((Asset.all.filter fun s => w.balances.rows.any fun b => b.asset == s).map fun s =>
      (s, w.balances.sum fun b => if b.asset = s then b.total else 0))
  else .error .outOfRange

/-- `SELECT asset, SUM(CASE … END) FROM ledger_entries GROUP BY asset`. -/
def World.ledgerSums (w : World) : Except SqlError (List (Asset × Int)) :=
  if w.ledgerEntries.all fun e => inI64 e.creditNet then
    fetchNumeric 1 ((Asset.all.filter fun s => w.ledgerEntries.any fun e => e.asset == s).map fun s =>
      (s, w.ledgerNet s))
  else .error .outOfRange

/-- The rows of `balances` that differ from `COALESCE(l.net, 0)`, with both values. -/
def World.ledgerMismatches (w : World) : Except SqlError (List (Uuid × Asset × Int × Int)) :=
  if (w.balances.rows.all fun b => inI64 b.total) && w.ledgerEntries.all fun e => inI64 e.creditNet then
    fetchNumeric 3 ((w.balances.rows.filter fun b =>
      !(b.total == w.accountNet b.accountId b.asset)).map fun b =>
        (b.accountId, b.asset, b.total, w.accountNet b.accountId b.asset))
  else .error .outOfRange

/-! ## Checks -/

/-- A query that fails is a violation of its check. -/
def InvariantReport.queryError (r : InvariantReport) (check : String) (e : SqlError) : InvariantReport :=
  r.recordFail check ("query error: " ++ e.text)

/-- `check_balance_sum_constant`. -/
def checkBalanceSumConstant (w : World) (report : InvariantReport) : InvariantReport :=
  match w.balanceSums, w.ledgerSums with
  | .ok balances, .ok ledger =>
    let ledgerNet (s : Asset) : Int := ((ledger.find? fun x => x.1 == s).map (·.2)).getD 0
    report.record "balance_sum_constant"
      (fun (s, total) => "asset=" ++ s.text ++ " balance_sum=" ++ toString total ++ " ledger_net=" ++
        toString (ledgerNet s) ++ " diff=" ++ toString (total - ledgerNet s))
      (balances.filter fun (s, total) => !(total == ledgerNet s))
  | .error e, _ => report.queryError "balance_sum_constant" e
  | .ok _, .error e => report.queryError "balance_sum_constant" e

/-- `check_ledger_debits_equal_credits`. -/
def checkLedgerDebitsEqualCredits (w : World) (report : InvariantReport) : InvariantReport :=
  match w.ledgerMismatches with
  | .ok bad =>
    report.record "ledger_balance_match"
      (fun (a, s, total, net) => "account=" ++ uuidText a ++ " asset=" ++ s.text ++ " balance=" ++
        toString total ++ " ledger=" ++ toString net ++ " diff=" ++ toString (total - net)) bad
  | .error e => report.queryError "ledger_balance_match" e

/-- The two checks of fund conservation, as `run_all` runs them on one report. -/
def checkFunds (w : World) : InvariantReport :=
  checkLedgerDebitsEqualCredits w (checkBalanceSumConstant w .new)

/-! ## What the checks say -/

section Checks

variable {w : World}

theorem fetchNumeric_ok {α : Type} {index : Nat} {l r : List α} :
    fetchNumeric index l = .ok r ↔ l = [] ∧ r = [] := by
  cases l <;> simp [fetchNumeric, eq_comm]

/-- A table with a row has a row for one of the assets. -/
theorem assets_nil_iff {α : Type} {l : List α} {f : α → Asset} :
    (Asset.all.filter fun s => l.any fun x => f x == s) = [] ↔ l = [] := by
  constructor
  · intro h
    rcases l with _ | ⟨x, l⟩
    · rfl
    · have hx := List.filter_eq_nil_iff.1 h (f x) (by cases f x <;> decide)
      simp at hx
  · rintro rfl
    rfl

theorem balanceSums_ok {r : List (Asset × Int)} :
    w.balanceSums = .ok r ↔ w.balances.rows = [] ∧ r = [] := by
  unfold World.balanceSums
  split
  · rw [fetchNumeric_ok, List.map_eq_nil_iff, assets_nil_iff]
  · next hall =>
    constructor
    · rintro ⟨⟩
    · rintro ⟨hnil, -⟩
      rw [hnil] at hall
      exact absurd rfl hall

theorem ledgerSums_ok {r : List (Asset × Int)} :
    w.ledgerSums = .ok r ↔ w.ledgerEntries = [] ∧ r = [] := by
  unfold World.ledgerSums
  split
  · rw [fetchNumeric_ok, List.map_eq_nil_iff, assets_nil_iff]
  · next hall =>
    constructor
    · rintro ⟨⟩
    · rintro ⟨hnil, -⟩
      rw [hnil] at hall
      exact absurd rfl hall

/-- Recording only adds to the violations. -/
theorem record_violations_le {α : Type} (r : InvariantReport) (check : String)
    (detail : α → String) (bad : List α) :
    r.violations.length ≤ (r.record check detail bad).violations.length := by
  have hfold : ∀ (l : List α) (r : InvariantReport), r.violations.length ≤
      (l.foldl (fun r x => r.recordFail check (detail x)) r).violations.length := by
    intro l
    induction l with
    | nil => exact fun r => le_rfl
    | cons x xs ih =>
      intro r
      refine le_trans ?_ (ih _)
      simp [InvariantReport.recordFail]
  cases bad with
  | nil => exact le_rfl
  | cons x xs => exact hfold (x :: xs) r

theorem queryError_violations (r : InvariantReport) (check : String) (e : SqlError) :
    (r.queryError check e).violations.length = r.violations.length + 1 := by
  simp [InvariantReport.queryError, InvariantReport.recordFail]

/-- The per-asset check adds a violation when either of its tables has a row. -/
theorem checkBalanceSumConstant_alarm (r : InvariantReport)
    (h : w.balances.rows ≠ [] ∨ w.ledgerEntries ≠ []) :
    (checkBalanceSumConstant w r).violations.length = r.violations.length + 1 := by
  unfold checkBalanceSumConstant
  split
  · next hb hl =>
    rcases h with h | h
    · exact absurd (balanceSums_ok.1 hb).1 h
    · exact absurd (ledgerSums_ok.1 hl).1 h
  · exact queryError_violations _ _ _
  · exact queryError_violations _ _ _

theorem checkLedgerDebitsEqualCredits_le (r : InvariantReport) :
    r.violations.length ≤ (checkLedgerDebitsEqualCredits w r).violations.length := by
  unfold checkLedgerDebitsEqualCredits
  split
  · exact record_violations_le _ _ _ _
  · rw [queryError_violations]
    exact Nat.le_succ _

/-- On empty tables there is nothing to find. -/
theorem checkFunds_of_empty (hb : w.balances.rows = []) (hl : w.ledgerEntries = []) :
    checkFunds w = ⟨[], 2, 2⟩ := by
  have hbs : w.balanceSums = .ok [] := balanceSums_ok.2 ⟨hb, rfl⟩
  have hls : w.ledgerSums = .ok [] := ledgerSums_ok.2 ⟨hl, rfl⟩
  have hm : w.ledgerMismatches = .ok [] := by
    simp [World.ledgerMismatches, hb, hl, fetchNumeric]
  unfold checkFunds checkLedgerDebitsEqualCredits checkBalanceSumConstant
  rw [hbs, hls, hm]
  rfl

/-- **When the two checks are silent**: while there is nothing to sum. -/
theorem checkFunds_passed_iff :
    (checkFunds w).passed = true ↔ w.balances.rows = [] ∧ w.ledgerEntries = [] := by
  constructor
  · intro hpass
    by_contra hne
    have halarm : w.balances.rows ≠ [] ∨ w.ledgerEntries ≠ [] := by
      by_cases hb : w.balances.rows = []
      · exact .inr fun hl => hne ⟨hb, hl⟩
      · exact .inl hb
    have hfirst := checkBalanceSumConstant_alarm (w := w) .new halarm
    have hsecond := checkLedgerDebitsEqualCredits_le (w := w) (checkBalanceSumConstant w .new)
    have hnil : (checkFunds w).violations = [] := List.isEmpty_iff.1 hpass
    unfold checkFunds at hnil
    rw [hfirst, hnil] at hsecond
    simp at hsecond
  · rintro ⟨hb, hl⟩
    rw [checkFunds_of_empty hb hl]
    rfl

/-- The checker's net position is the ledger balance with the sign turned. -/
theorem creditNet_eq (e : LedgerEntry) : e.creditNet = -e.signed := by
  unfold LedgerEntry.creditNet LedgerEntry.signed EntryType.signed
  cases e.entryType <;> simp

theorem accountNet_eq (a : Uuid) (s : Asset) : w.accountNet a s = -w.computeBalance a s := by
  unfold World.accountNet World.computeBalance
  induction w.ledgerEntries.filter fun e => e.accountId == a && e.asset == s with
  | nil => rfl
  | cons e es ih =>
    rw [List.map_cons, List.map_cons, List.sum_cons, List.sum_cons, ih, creditNet_eq]
    ring

/-- On a database whose ledger mirrors its balances the query of the per-account check finds every
row that is worth anything. -/
theorem ledgerMismatches_of_mirror (hm : ∀ χ, w.held χ = w.ledgerSum χ)
    (hok : w.ledgerMismatches = .ok []) : ∀ b ∈ w.balances.rows, b.total = 0 := by
  intro b hb
  have hnet : w.accountNet b.accountId b.asset = -b.total := by
    rw [accountNet_eq, ← World.ledgerSum_only, ← hm]
    unfold World.held Balance.total
    rw [show w.availSum (only (b.accountId, b.asset)) = _ from World.avail_of_mem hb,
      show w.lockedSum (only (b.accountId, b.asset)) = _ from World.locked_of_mem hb]
  unfold World.ledgerMismatches at hok
  split at hok
  · have hmatch := List.filter_eq_nil_iff.1 (List.map_eq_nil_iff.1 (fetchNumeric_ok.1 hok).1) b hb
    simp only [Bool.not_eq_true', beq_eq_false_iff_ne, ne_eq, not_not] at hmatch
    omega
  · cases hok

end Checks

/-! ## Runs of deposits, withdrawals and trades -/

/-- The calls that put funds in, take them out and settle trades. -/
inductive FundsCall where
  | deposit (accountId : Uuid) (asset : Asset) (amount : Int)
  | withdraw (accountId : Uuid) (asset : Asset) (amount : Int)
  | settleTrade (tradeId : Uuid)

def FundsCall.Succeeds (w w' : World) : FundsCall → Prop
  | .deposit a s x => (BalanceReq.deposit a s x).Succeeds w w'
  | .withdraw a s x => (BalanceReq.withdraw a s x).Succeeds w w'
  | .settleTrade id => (SettleCall.trade id).Succeeds w w'

/-- What the call adds to a cell stays within 64 bits. -/
def FundsCall.InRange (w : World) : FundsCall → Prop
  | .deposit a s x => (BalanceReq.deposit a s x).Booked w
  | .withdraw a s x => (BalanceReq.withdraw a s x).Booked w
  | .settleTrade id => (SettleCall.trade id).Booked w

theorem FundsCall.reconciles {w w' : World} {c : FundsCall} (hs : c.Succeeds w w')
    (hr : c.InRange w) (hf : w.Fits) : w'.Fits ∧ Reconciles w w' := by
  cases c with
  | deposit a s x => exact BalanceReq.reconciles hs hr hf
  | withdraw a s x => exact BalanceReq.reconciles hs hr hf
  | settleTrade id =>
    refine ⟨?_, SettleCall.reconciles (c := .trade id) hs hr⟩
    obtain ⟨env, t, h⟩ := hs
    obtain ⟨t, w₁, w₂, -, -, hmv, hbk, rfl⟩ := settleTrade_ok (Call.transaction_ok.1 h)
    have hfits := hmv.fits hf
    rw [hbk.frame]
    exact hfits

/-- After a run of calls none of which overflows, from a database without balances and ledger
entries, the query of the per-account check comes back empty only if no row is worth anything. -/
theorem ledgerMismatches_after_run (w₀ w : World) (hbal : w₀.balances.rows = [])
    (hled : w₀.ledgerEntries = [])
    (run : Relation.ReflTransGen (fun u u' => ∃ c : FundsCall, c.InRange u ∧ c.Succeeds u u') w₀ w)
    (hok : w.ledgerMismatches = .ok []) : ∀ b ∈ w.balances.rows, b.total = 0 := by
  refine ledgerMismatches_of_mirror (fun χ => mirror_of_run (fun u u' hstep hfit => ?_) hbal hled run χ)
    hok
  obtain ⟨c, hr, hs⟩ := hstep
  exact FundsCall.reconciles hs hr hfit

/-- The calls succeed one after the other. -/
inductive FundsRun : List FundsCall → World → World → Prop
  | done (w) : FundsRun [] w w
  | next {c cs w w₁ w'} (call : c.Succeeds w w₁) (rest : FundsRun cs w₁ w') : FundsRun (c :: cs) w w'

theorem Books.length {k : Cell} {x : Int} {w w' : World} (h : Books k x w w') :
    w'.ledgerEntries.length = w.ledgerEntries.length + 1 := by
  obtain ⟨e, -, -, rfl⟩ := h
  simp

theorem TradeBooks.length {ar : Arith} {t : Trade} {w w' : World} (h : TradeBooks ar t w w') :
    w'.ledgerEntries.length = w.ledgerEntries.length + 6 := by
  obtain ⟨w₁, w₂, w₃, w₄, w₅, h₁, h₂, h₃, h₄, h₅, h₆⟩ := h
  rw [h₆.length, h₅.length, h₄.length, h₃.length, h₂.length, h₁.length]

/-- Every call that succeeds leaves an entry in the ledger. -/
theorem FundsCall.books {w w' : World} {c : FundsCall} (hs : c.Succeeds w w') :
    w.ledgerEntries.length < w'.ledgerEntries.length := by
  have hentries : ∀ {u u' : World}, u' = { u with balances := u'.balances } →
      u'.ledgerEntries = u.ledgerEntries := fun h => by rw [h]
  cases c with
  | deposit a s x =>
    obtain ⟨env, r, h⟩ := hs
    obtain ⟨b, _, hcall, hret⟩ := Call.exec_bind_ok.1 h
    cases hret
    obtain ⟨-, w₁, hm, hbk⟩ := deposit_ok hcall
    rw [hbk.length, hentries (Moves.frame hm)]
    exact Nat.lt_succ_self _
  | withdraw a s x =>
    obtain ⟨env, r, h⟩ := hs
    obtain ⟨b, _, hcall, hret⟩ := Call.exec_bind_ok.1 h
    cases hret
    obtain ⟨-, w₁, ⟨-, hm⟩, hbk⟩ := withdraw_ok hcall
    rw [hbk.length, hentries hm.frame]
    exact Nat.lt_succ_self _
  | settleTrade id =>
    obtain ⟨env, t, h⟩ := hs
    obtain ⟨t, w₁, w₂, -, -, hmv, hbk, rfl⟩ := settleTrade_ok (Call.transaction_ok.1 h)
    show _ < w₂.ledgerEntries.length
    rw [hbk.length, hentries hmv.frame]
    omega

theorem FundsRun.books {calls : List FundsCall} {w w' : World} (run : FundsRun calls w w') :
    w.ledgerEntries.length + calls.length ≤ w'.ledgerEntries.length := by
  induction run with
  | done w => exact le_rfl
  | next call _ ih =>
    have hmore := FundsCall.books call
    rw [List.length_cons]
    omega

/-- **When the checker is silent.**  After a run of successful deposits, withdrawals and trades the
two fund checks report no violation if and only if there was no call, and nothing to begin with. -/
theorem checkFunds_passed_iff_no_call (calls : List FundsCall) (w₀ w : World)
    (run : FundsRun calls w₀ w) :
    (checkFunds w).passed = true ↔
      calls = [] ∧ w₀.balances.rows = [] ∧ w₀.ledgerEntries = [] := by
  rw [checkFunds_passed_iff]
  constructor
  · rintro ⟨hb, hl⟩
    have hbooks := run.books
    rw [hl] at hbooks
    have hcalls : calls = [] := List.length_eq_zero_iff.1 (by simp only [List.length_nil] at hbooks; omega)
    subst hcalls
    cases run
    exact ⟨rfl, hb, hl⟩
  · rintro ⟨rfl, hb, hl⟩
    cases run
    exact ⟨hb, hl⟩

/-- After a deposit of 100 and a withdrawal of 100 the checker reports violations; before them it
was silent. -/
theorem checkFunds_after_withdrawal :
    (checkFunds twoAccounts).passed = true ∧
      (checkFunds ((BalanceReq.withdraw 2 .USDC 100).after demoEnv'
        ((BalanceReq.deposit 2 .USDC 100).after demoEnv twoAccounts))).passed = false := by
  have hdep : (FundsCall.deposit 2 .USDC 100).Succeeds twoAccounts
      ((BalanceReq.deposit 2 .USDC 100).after demoEnv twoAccounts) :=
    BalanceReq.succeeds_after (r := [⟨1000, 2, .USDC, 100, 0, 0⟩]) (by decide)
  have hwd : (FundsCall.withdraw 2 .USDC 100).Succeeds
      ((BalanceReq.deposit 2 .USDC 100).after demoEnv twoAccounts)
      ((BalanceReq.withdraw 2 .USDC 100).after demoEnv'
        ((BalanceReq.deposit 2 .USDC 100).after demoEnv twoAccounts)) :=
    BalanceReq.succeeds_after (r := [⟨1000, 2, .USDC, 0, 0, 0⟩]) (by decide)
  constructor
  · exact (checkFunds_passed_iff_no_call [] twoAccounts _ (.done _)).2 ⟨rfl, rfl, rfl⟩
  · rw [Bool.eq_false_iff]
    intro hpass
    have hnone := (checkFunds_passed_iff_no_call _ twoAccounts _ (.next hdep (.next hwd (.done _)))).1
      hpass
    cases hnone.1

/-- One deposit of 100 sets off the checks. -/
theorem checkFunds_alarm_after_deposit :
    ¬ ∀ (calls : List FundsCall) (w₀ w : World), w₀.balances.rows = [] → w₀.ledgerEntries = [] →
      FundsRun calls w₀ w → (checkFunds w).passed = true := by
  intro h
  have hdep : (FundsCall.deposit 2 .USDC 100).Succeeds twoAccounts
      ((BalanceReq.deposit 2 .USDC 100).after demoEnv twoAccounts) :=
    BalanceReq.succeeds_after (r := [⟨1000, 2, .USDC, 100, 0, 0⟩]) (by decide)
  have hpass := h _ twoAccounts _ rfl rfl (.next hdep (.done _))
  rw [checkFunds_passed_iff] at hpass
  revert hpass
  decide

end IntentX
