import IntentX.Settlement

/-!
# What is held, and what a statement moves

A *cell* is an account and an asset.  `World.availSum χ` and `World.lockedSum χ` sum the two
balance columns over all rows, weighted by any function `χ` of the cell; `World.ledgerSum χ` does
the same for the signed ledger.  With `χ` the indicator of an asset they are its total supply,
with `χ` the indicator of a cell they are the contents of that cell (0 where there is no row).

`Moves k da dl w w'` says all a balance argument needs of a statement: every weighted sum moves by
`χ k * da` and `χ k * dl`, no row is lost, and nothing but the balances table changes.  Each balance statement and
each helper of the settlement engine gets one such specification.
-/

namespace IntentX

open Lib

abbrev Cell := Uuid × Asset

def LedgerEntry.cell (e : LedgerEntry) : Cell := (e.accountId, e.asset)

/-- The indicator of one cell. -/
def only (k : Cell) : Cell → Int := fun k' => if k' = k then 1 else 0

/-- The indicator of all the cells of an asset. -/
def ofAsset (s : Asset) : Cell → Int := fun k => if k.2 = s then 1 else 0

@[simp] theorem only_self (k : Cell) : only k k = 1 := if_pos rfl

theorem only_of_ne {k k' : Cell} (h : k' ≠ k) : only k k' = 0 := if_neg h

namespace World

variable (w : World)

def availSum (χ : Cell → Int) : Int := w.balances.sum fun b => χ b.key * b.availableBalance

def lockedSum (χ : Cell → Int) : Int := w.balances.sum fun b => χ b.key * b.lockedBalance

def ledgerSum (χ : Cell → Int) : Int := (w.ledgerEntries.map fun e => χ e.cell * e.signed).sum

/-- `available_balance` of a cell. -/
def avail (k : Cell) : Int := w.availSum (only k)

/-- `locked_balance` of a cell. -/
def locked (k : Cell) : Int := w.lockedSum (only k)

variable {w}

theorem only_mul (k : Cell) (b : Balance) (x : Int) :
    only k b.key * x = if b.key = k then x else 0 := by
  unfold only
  split <;> simp

theorem avail_of_mem {b : Balance} (hb : b ∈ w.balances.rows) :
    w.avail b.key = b.availableBalance := by
  unfold avail availSum
  simp only [only_mul]
  exact Table.sum_ite_uk hb _

theorem locked_of_mem {b : Balance} (hb : b ∈ w.balances.rows) :
    w.locked b.key = b.lockedBalance := by
  unfold locked lockedSum
  simp only [only_mul]
  exact Table.sum_ite_uk hb _

theorem avail_of_none {k : Cell} (h : ∀ b ∈ w.balances.rows, b.key ≠ k) : w.avail k = 0 := by
  unfold avail availSum
  simp only [only_mul]
  exact sum_ite_key_none h _

theorem locked_of_none {k : Cell} (h : ∀ b ∈ w.balances.rows, b.key ≠ k) : w.locked k = 0 := by
  unfold locked lockedSum
  simp only [only_mul]
  exact sum_ite_key_none h _

theorem balance_some_iff {a : Uuid} {s : Asset} {b : Balance} :
    w.balance a s = some b ↔ b ∈ w.balances.rows ∧ b.key = (a, s) :=
  Table.find_uk_iff

theorem balance_none_iff {a : Uuid} {s : Asset} :
    w.balance a s = none ↔ ∀ b ∈ w.balances.rows, b.key ≠ (a, s) :=
  Table.find_uk_none

/-- The ledger sum over one cell is the balance the ledger repository computes. -/
theorem ledgerSum_only (a : Uuid) (s : Asset) :
    w.ledgerSum (only (a, s)) = w.computeBalance a s := by
  unfold ledgerSum computeBalance
  induction w.ledgerEntries with
  | nil => rfl
  | cons e es ih =>
    rw [List.map_cons, List.sum_cons, ih, List.filter_cons]
    by_cases h : e.accountId = a ∧ e.asset = s
    · have hc : e.cell = (a, s) := Prod.ext h.1 h.2
      simp [h, hc]
    · have hc : e.cell ≠ (a, s) := fun he => h ⟨congrArg Prod.fst he, congrArg Prod.snd he⟩
      rw [only_of_ne hc, if_neg (by simpa using h)]
      omega

end World

/-! ## Moves -/

structure Moves (k : Cell) (da dl : Int) (w w' : World) : Prop where
  avail : ∀ χ, w'.availSum χ = w.availSum χ + χ k * da
  locked : ∀ χ, w'.lockedSum χ = w.lockedSum χ + χ k * dl
  /-- no row is lost -/
  rows : ∀ a s, (w.balance a s).isSome → (w'.balance a s).isSome
  frame : w' = { w with balances := w'.balances }

namespace Moves

variable {k : Cell} {da dl da' dl' : Int} {w w₁ w' : World}

theorem refl (k : Cell) (w : World) : Moves k 0 0 w w :=
  ⟨fun χ => by ring, fun χ => by ring, fun _ _ h => h, rfl⟩

theorem trans (h : Moves k da dl w w₁) (h' : Moves k da' dl' w₁ w') :
    Moves k (da + da') (dl + dl') w w' where
  avail χ := by rw [h'.avail, h.avail]; ring
  locked χ := by rw [h'.locked, h.locked]; ring
  rows a s hrow := h'.rows a s (h.rows a s hrow)
  frame := by rw [h'.frame, h.frame]

theorem avail_self (h : Moves k da dl w w') : w'.avail k = w.avail k + da := by
  unfold World.avail
  rw [h.avail, only_self, one_mul]

theorem avail_ne (h : Moves k da dl w w') {k' : Cell} (hk : k ≠ k') :
    w'.avail k' = w.avail k' := by
  unfold World.avail
  rw [h.avail, only_of_ne hk, zero_mul, add_zero]

theorem locked_self (h : Moves k da dl w w') : w'.locked k = w.locked k + dl := by
  unfold World.locked
  rw [h.locked, only_self, one_mul]

theorem locked_ne (h : Moves k da dl w w') {k' : Cell} (hk : k ≠ k') :
    w'.locked k' = w.locked k' := by
  unfold World.locked
  rw [h.locked, only_of_ne hk, zero_mul, add_zero]

theorem ledgerEntries (h : Moves k da dl w w') : w'.ledgerEntries = w.ledgerEntries := by
  rw [h.frame]

theorem ledgerSum (h : Moves k da dl w w') (χ : Cell → Int) : w'.ledgerSum χ = w.ledgerSum χ := by
  unfold World.ledgerSum
  rw [h.ledgerEntries]

/-- An update of the row `b` moves its cell by the change of the row. -/
theorem of_update_pk {b : Balance} (hb : b ∈ w.balances.rows) (f : Balance → Balance)
    (hf : ∀ r, (f r).id = r.id ∧ (f r).key = r.key) :
    Moves b.key ((f b).availableBalance - b.availableBalance)
      ((f b).lockedBalance - b.lockedBalance) w
      { w with balances := w.balances.update (fun r => r.id = b.id) f hf } where
  avail χ := by
    unfold World.availSum
    rw [Table.sum_update_pk hb, (hf b).2]
    ring
  locked χ := by
    unfold World.lockedSum
    rw [Table.sum_update_pk hb, (hf b).2]
    ring
  rows a s hrow := by
    unfold World.balance at hrow ⊢
    rw [Table.find_update_uk]
    simpa using hrow
  frame := rfl

theorem of_update_uk {b : Balance} (hb : b ∈ w.balances.rows) (f : Balance → Balance)
    (hf : ∀ r, (f r).id = r.id ∧ (f r).key = r.key) :
    Moves b.key ((f b).availableBalance - b.availableBalance)
      ((f b).lockedBalance - b.lockedBalance) w
      { w with balances := w.balances.update (fun r => r.key = b.key) f hf } := by
  rw [← Table.update_pk_eq_update_uk hb]
  exact of_update_pk hb f hf

/-- A new row with nothing in it moves nothing. -/
theorem of_insert {b : Balance} {t} (h : w.balances.insert b = some t)
    (ha : b.availableBalance = 0) (hl : b.lockedBalance = 0) (k : Cell) :
    Moves k 0 0 w { w with balances := t } where
  avail χ := by
    unfold World.availSum
    rw [Table.sum_insert h, ha]
    ring
  locked χ := by
    unfold World.lockedSum
    rw [Table.sum_insert h, hl]
    ring
  rows a s hrow := by
    unfold World.balance at hrow ⊢
    rw [Table.find_insert_uk h]
    split
    · rfl
    · exact hrow
  frame := rfl

end Moves

/-! ## Balance statements -/

section Statements

variable {ar : Arith} {w w' : World} {a : Uuid} {s : Asset} {x now : Int}

theorem insertBalance_ok {b : Balance} (h : execStmt ar (.insertBalance b) w = (.ok (), w')) :
    ∃ t, w.balances.insert b = some t ∧ w' = { w with balances := t } := by
  simp only [execStmt] at h
  split at h
  · rcases hi : w.balances.insert b with _ | t
    · simp [inserted, hi] at h
    · simp only [inserted, hi, Prod.mk.injEq, true_and] at h
      exact ⟨t, rfl, h.symm⟩
  · simp at h

/-- An `UPDATE balances … WHERE account_id AND asset AND q` either meets the one row of the cell
and moves it, or meets no row and does nothing. -/
theorem updateBalances_ok {p q : Balance → Bool} {f : Balance → Balance} {hf} {n : Nat}
    (hp : ∀ b, p b = (decide (b.key = (a, s)) && q b))
    (h : w.updateBalances ar p f hf = (.ok n, w')) :
    (∃ b, w.balance a s = some b ∧ q b = true ∧ 0 < n ∧
      ar.fits (f b).availableBalance = true ∧ ar.fits (f b).lockedBalance = true ∧
      Moves (a, s) ((f b).availableBalance - b.availableBalance)
        ((f b).lockedBalance - b.lockedBalance) w w') ∨
    ((∀ b, w.balance a s = some b → q b = false) ∧ n = 0 ∧ w' = w) := by
  have hpq : p = fun b => decide (b.key = (a, s)) && q b := funext hp
  subst hpq
  unfold World.updateBalances at h
  split at h
  case isFalse => simp at h
  rename_i hfits
  simp only [Prod.mk.injEq, Except.ok.injEq] at h
  obtain ⟨rfl, rfl⟩ := h
  by_cases hq : ∃ b, w.balance a s = some b ∧ q b = true
  · left
    obtain ⟨b, hb, hqb⟩ := hq
    obtain ⟨hmem, hkey⟩ := World.balance_some_iff.1 hb
    have hfit := List.all_eq_true.1 hfits b hmem
    simp only [hkey, hqb, decide_true, Bool.and_self, Bool.not_true, Bool.false_or,
      Bool.and_eq_true] at hfit
    refine ⟨b, hb, hqb, (Table.affected_uk_pos q).2 ⟨b, hb, hqb⟩, hfit.1, hfit.2, ?_⟩
    -- on this table the guard `q` holds at the one row of the cell, so it selects by key alone
    have hupd : w.balances.update (fun b => decide (b.key = (a, s)) && q b) f hf =
        w.balances.update (fun r => r.key = b.key) f hf := by
      apply Table.ext
      refine List.map_congr_left fun r hr => ?_
      by_cases hrk : r.key = (a, s)
      · have hrb : r = b := eq_of_key_eq w.balances.uk_nodup hr hmem (hrk.trans hkey.symm)
        simp [hrb, hkey, hqb]
      · simp [hrk, hkey]
    rw [hupd, ← hkey]
    exact Moves.of_update_uk hmem f hf
  · right
    have hnone : ∀ b, w.balance a s = some b → q b = false := fun b hb => by
      simpa using fun hqb => hq ⟨b, hb, hqb⟩
    refine ⟨hnone, ?_, ?_⟩
    · have hpos := (Table.affected_uk_pos (t := w.balances) (k := (a, s)) q).1.mt hq
      exact Nat.eq_zero_of_not_pos hpos
    · rw [Table.update_none]
      intro r hr
      by_cases hrk : r.key = (a, s)
      · simp [hrk, hnone r (World.balance_some_iff.2 ⟨hr, hrk⟩)]
      · simp [hrk]

/-- The amount that moves when the cell has a row, and 0 when it has none. -/
def World.ifRow (w : World) (a : Uuid) (s : Asset) (x : Int) : Int :=
  if (w.balance a s).isSome then x else 0

/-- The amount that moves when the cell has a row with `x` locked. -/
def World.ifLocked (w : World) (a : Uuid) (s : Asset) (x : Int) : Int :=
  if (w.balance a s).any fun b => decide (x ≤ b.lockedBalance) then x else 0

/-- The row count is thrown away; the statement succeeded all the same. -/
theorem map_unit_ok {r : Except SqlError Nat × World}
    (h : (r.1.map fun _ => (), r.2) = (.ok (), w')) : ∃ n, r = (.ok n, w') := by
  rcases r with ⟨r, w₁⟩
  cases r with
  | error e => simp [Except.map] at h
  | ok n =>
    simp only [Except.map, Prod.mk.injEq, true_and] at h
    exact ⟨n, by rw [h]⟩

/-- An `UPDATE balances … WHERE account_id AND asset` that adds `dx` and `dy` to a row. -/
theorem updateCell_ok {f : Balance → Balance} {hf} {n : Nat} {dx dy : Int}
    (hx : ∀ b, (f b).availableBalance - b.availableBalance = dx)
    (hy : ∀ b, (f b).lockedBalance - b.lockedBalance = dy)
    (h : w.updateBalances ar (fun b => decide (b.key = (a, s))) f hf = (.ok n, w')) :
    Moves (a, s) (w.ifRow a s dx) (w.ifRow a s dy) w w' := by
  rcases updateBalances_ok (a := a) (s := s) (q := fun _ => true) (fun b => by simp) h with
    ⟨b, hb, -, -, -, -, hm⟩ | ⟨hnone, -, rfl⟩
  · rw [hx, hy] at hm
    simpa [World.ifRow, hb] using hm
  · have hrow : w'.balance a s = none :=
      Option.eq_none_iff_forall_ne_some.2 fun b hb => by simpa using hnone b hb
    simpa [World.ifRow, hrow] using Moves.refl (a, s) w'

theorem World.ifRow_neg (w : World) (a : Uuid) (s : Asset) (x : Int) : w.ifRow a s (-x) = -w.ifRow a s x := by
  unfold World.ifRow
  split <;> simp

theorem lockFunds_ok (h : execStmt ar (.lockFunds a s x now) w = (.ok (), w')) :
    Moves (a, s) (-w.ifRow a s x) (w.ifRow a s x) w w' := by
  obtain ⟨n, hn⟩ := map_unit_ok h
  rw [← World.ifRow_neg]
  apply updateCell_ok _ _ hn
  · intro b
    show b.availableBalance - x - b.availableBalance = -x
    omega
  · intro b
    show b.lockedBalance + x - b.lockedBalance = x
    omega

theorem unlockFunds_ok (h : execStmt ar (.unlockFunds a s x now) w = (.ok (), w')) :
    Moves (a, s) (w.ifRow a s x) (-w.ifRow a s x) w w' := by
  obtain ⟨n, hn⟩ := map_unit_ok h
  rw [← World.ifRow_neg]
  apply updateCell_ok _ _ hn
  · intro b
    show b.availableBalance + x - b.availableBalance = x
    omega
  · intro b
    show b.lockedBalance - x - b.lockedBalance = -x
    omega

theorem unlockFundsIfLocked_ok (h : execStmt ar (.unlockFundsIfLocked a s x now) w = (.ok (), w')) :
    Moves (a, s) (w.ifLocked a s x) (-w.ifLocked a s x) w w' := by
  obtain ⟨n, hn⟩ := map_unit_ok h
  rcases updateBalances_ok (a := a) (s := s) (fun b => rfl) hn with
    ⟨b, hb, hq, -, -, -, hm⟩ | ⟨hnone, -, rfl⟩
  · simpa [World.ifLocked, hb, of_decide_eq_true hq] using hm
  · have hrow : (w'.balance a s).any (fun b => decide (x ≤ b.lockedBalance)) = false := by
      rcases hb : w'.balance a s with _ | b
      · rfl
      · exact hnone b hb
    simpa only [World.ifLocked, hrow, Bool.false_eq_true, if_false, neg_zero] using
      Moves.refl (a, s) w'

end Statements

/-! ## The helpers of the settlement engine -/

section Helpers

variable {ar : Arith} {w w' : World} {id a : Uuid} {s : Asset} {x now : Int}

theorem exec_sql_ok {E : Type} {o : Stmt} {f : SqlError → E} {r : o.Reply} :
    Call.exec (execStmt ar) (query o f) w = (.ok r, w') ↔ execStmt ar o w = (.ok r, w') :=
  Call.exec_op_ok

/-- A statement whose outcome is known. -/
theorem query_eq {E : Type} {o : Stmt} {f : SqlError → E} {r v : o.Reply} {w₁ : World}
    (h : Call.exec (execStmt ar) (query o f) w = (.ok r, w')) (hv : execStmt ar o w = (.ok v, w₁)) :
    v = r ∧ w₁ = w' := by
  rw [exec_sql_ok, hv] at h
  simpa only [Prod.mk.injEq, Except.ok.injEq] using h

theorem findOrCreateBalance_ok {b : Balance}
    (h : Call.exec (execStmt ar) (findOrCreateBalance id a s now) w = (.ok b, w')) :
    b ∈ w'.balances.rows ∧ b.key = (a, s) ∧ b.availableBalance = w.avail (a, s) ∧
      b.lockedBalance = w.locked (a, s) ∧ Moves (a, s) 0 0 w w' := by
  obtain ⟨row, w₁, hsel, h⟩ := Call.exec_bind_ok.1 h
  obtain ⟨rfl, rfl⟩ := query_eq hsel rfl
  rcases hb : w.balance a s with _ | b₀
  · rw [hb] at h
    obtain ⟨u, w₂, hins, h⟩ := Call.exec_bind_ok.1 h
    simp only [Call.exec_pure, Prod.mk.injEq, Except.ok.injEq] at h
    obtain ⟨rfl, rfl⟩ := h
    obtain ⟨t, ht, rfl⟩ := insertBalance_ok (exec_sql_ok.1 hins)
    have hnone := World.balance_none_iff.1 hb
    exact ⟨(Table.mem_insert ht).2 (.inr rfl), rfl, (World.avail_of_none hnone).symm,
      (World.locked_of_none hnone).symm, Moves.of_insert ht rfl rfl _⟩
  · rw [hb] at h
    simp only [Call.exec_pure, Prod.mk.injEq, Except.ok.injEq] at h
    obtain ⟨rfl, rfl⟩ := h
    obtain ⟨hm, hk⟩ := World.balance_some_iff.1 hb
    exact ⟨hm, hk, by rw [← hk, World.avail_of_mem hm], by rw [← hk, World.locked_of_mem hm],
      Moves.refl _ _⟩

/-- `x` is added to the available balance of a cell, as `i64` addition has it. -/
def Credit (ar : Arith) (k : Cell) (x : Int) (w w' : World) : Prop :=
  Moves k (ar.rust (w.avail k + x) - w.avail k) 0 w w'

/-- `x` is covered by the available balance of a cell and taken from it. -/
def Debit (ar : Arith) (k : Cell) (x : Int) (w w' : World) : Prop :=
  x ≤ w.avail k ∧ Moves k (ar.rust (w.avail k - x) - w.avail k) 0 w w'

/-- `x` is covered by the locked balance of a cell and taken from it. -/
def DebitLocked (k : Cell) (x : Int) (w w' : World) : Prop :=
  x ≤ w.locked k ∧ Moves k 0 (-x) w w'

theorem creditBalance_ok
    (h : Call.exec (execStmt ar) (creditBalance ar id a s x now) w = (.ok (), w')) :
    Credit ar (a, s) x w w' := by
  obtain ⟨b, w₁, hfind, hset⟩ := Call.exec_bind_ok.1 h
  obtain ⟨hmem, hkey, hav, -, hm⟩ := findOrCreateBalance_ok hfind
  obtain ⟨-, rfl⟩ := query_eq hset rfl
  have hupd := Moves.of_update_pk hmem (fun r => { r with
    availableBalance := ar.rust (b.availableBalance + x), updatedAt := now }) (fun _ => ⟨rfl, rfl⟩)
  rw [hkey, hav] at hupd
  simpa [Credit, hav] using hm.trans hupd

theorem debitBalance_ok
    (h : Call.exec (execStmt ar) (debitBalance ar id a s x now) w = (.ok (), w')) :
    Debit ar (a, s) x w w' := by
  obtain ⟨b, w₁, hfind, hrest⟩ := Call.exec_bind_ok.1 h
  obtain ⟨_, w₂, hguard, hset⟩ := Call.exec_bind_ok.1 hrest
  obtain ⟨hge, rfl⟩ := Call.exec_failIf_ok.1 hguard
  obtain ⟨hmem, hkey, hav, -, hm⟩ := findOrCreateBalance_ok hfind
  obtain ⟨-, rfl⟩ := query_eq hset rfl
  have hupd := Moves.of_update_pk hmem (fun r => { r with
    availableBalance := ar.rust (b.availableBalance - x), updatedAt := now }) (fun _ => ⟨rfl, rfl⟩)
  rw [hkey, hav] at hupd
  refine ⟨by omega, ?_⟩
  simpa [hav] using hm.trans hupd

theorem unlockAndDebit_ok
    (h : Call.exec (execStmt ar) (unlockAndDebit a s x now) w = (.ok (), w')) :
    DebitLocked (a, s) x w w' := by
  obtain ⟨n, w₁, hupd, hguard⟩ := Call.exec_bind_ok.1 h
  obtain ⟨hn, rfl⟩ := Call.exec_failIf_ok.1 hguard
  rw [exec_sql_ok] at hupd
  rcases updateBalances_ok (a := a) (s := s) (fun b => rfl) hupd with ⟨b, hb, hq, -, -, -, hm⟩ | ⟨-, h0, -⟩
  · obtain ⟨hmem, hkey⟩ := World.balance_some_iff.1 hb
    refine ⟨?_, by simpa using hm⟩
    rw [← hkey, World.locked_of_mem hmem]
    exact of_decide_eq_true hq
  · exact absurd h0 hn

/-- A fee is credited only when it is positive. -/
def CreditFee (ar : Arith) (k : Cell) (x : Int) (w w' : World) : Prop :=
  if 0 < x then Credit ar k x w w' else w' = w

/-- One ledger entry worth `x` is booked on a cell, and nothing else happens. -/
def Books (k : Cell) (x : Int) (w w' : World) : Prop :=
  ∃ e : LedgerEntry, e.cell = k ∧ e.signed = x ∧
    w' = { w with ledgerEntries := w.ledgerEntries ++ [e] }

/-- A fee is booked only when it is positive. -/
def BooksFee (k : Cell) (x : Int) (w w' : World) : Prop :=
  if 0 < x then Books k x w w' else w' = w

namespace Books

variable {k : Cell}

theorem ledgerSum (h : Books k x w w') (χ : Cell → Int) :
    w'.ledgerSum χ = w.ledgerSum χ + χ k * x := by
  obtain ⟨e, rfl, rfl, rfl⟩ := h
  simp [World.ledgerSum]

theorem frame (h : Books k x w w') : w' = { w with ledgerEntries := w'.ledgerEntries } := by
  obtain ⟨e, -, -, rfl⟩ := h
  rfl

end Books

theorem BooksFee.frame {k : Cell} (h : BooksFee k x w w') :
    w' = { w with ledgerEntries := w'.ledgerEntries } := by
  unfold BooksFee at h
  split at h
  · exact Books.frame h
  · rw [h]

theorem CreditFee.frame {k : Cell} (h : CreditFee ar k x w w') :
    w' = { w with balances := w'.balances } := by
  unfold CreditFee at h
  split at h
  · exact Moves.frame h
  · rw [h]

theorem insertLedger_ok {t : EntryType} {r : ReferenceType} {ref : Uuid}
    (h : Call.exec (execStmt ar) (insertLedger id a s x t r ref now) w = (.ok (), w')) :
    Books (a, s) (t.signed x) w w' := by
  exact ⟨_, rfl, rfl, (query_eq h rfl).2.symm⟩

theorem creditFee_ok {f : SqlError → SettlementError}
    (h : Call.exec (execStmt ar)
      (Call.doIf (0 < x) (Call.mapErr f (creditBalance ar id a s x now))) w = (.ok (), w')) :
    CreditFee ar (a, s) x w w' := by
  unfold CreditFee
  rw [Call.exec_doIf] at h
  split at h
  · rw [if_pos ‹_›]
    exact creditBalance_ok (Call.exec_mapErr_ok.1 h)
  · rw [if_neg ‹_›]
    exact (Prod.mk.inj h).2.symm

theorem booksFee_ok {f : SqlError → SettlementError} {r : ReferenceType} {ref : Uuid}
    (h : Call.exec (execStmt ar)
      (Call.doIf (0 < x) (Call.mapErr f (insertLedger id a s x .DEBIT r ref now))) w = (.ok (), w')) :
    BooksFee (a, s) x w w' := by
  unfold BooksFee
  rw [Call.exec_doIf] at h
  split at h
  · rw [if_pos ‹_›]
    exact insertLedger_ok (Call.exec_mapErr_ok.1 h)
  · rw [if_neg ‹_›]
    exact (Prod.mk.inj h).2.symm

end Helpers

/-! ## The calls of the balance service -/

section Service

variable {ar : Arith} {env : Env} {w w' : World} {a : Uuid} {s : Asset} {x : Int}

theorem findOrCreate_ok {b : Balance}
    (h : Call.exec (execStmt ar) (findOrCreate env a s) w = (.ok b, w')) :
    b ∈ w'.balances.rows ∧ b.key = (a, s) ∧ b.availableBalance = w.avail (a, s) ∧
      b.lockedBalance = w.locked (a, s) ∧ Moves (a, s) 0 0 w w' := by
  change Call.exec (execStmt ar) (findOrCreateBalance (env.uuid 0) a s (env.now 0)) w = _ at h
  exact findOrCreateBalance_ok h

/-- Writing back the row that was found, with new contents. -/
theorem updateRow_ok {b b' : Balance} (hb : b ∈ w.balances.rows)
    (h : Call.exec (execStmt ar) (updateRow b') w = (.ok (), w')) (hid : b'.id = b.id) :
    Moves b.key (b'.availableBalance - b.availableBalance) (b'.lockedBalance - b.lockedBalance)
      w w' := by
  have hset := exec_sql_ok.1 h
  simp only [execStmt, hid, Prod.mk.injEq, true_and] at hset
  rw [← hset]
  exact Moves.of_update_pk hb (fun r => { r with
    availableBalance := b'.availableBalance, lockedBalance := b'.lockedBalance,
    updatedAt := b'.updatedAt }) (fun _ => ⟨rfl, rfl⟩)

theorem createEntry_ok {t : EntryType} {r : ReferenceType} {ref : Uuid} {e : LedgerEntry}
    (h : Call.exec (execStmt ar) (createEntry env a s x t r ref) w = (.ok e, w')) :
    Books (a, s) (t.signed x) w w' := by
  obtain ⟨_, w₁, hins, hret⟩ := Call.exec_bind_ok.1 h
  simp only [Call.exec_pure, Prod.mk.injEq] at hret
  obtain ⟨-, rfl⟩ := hret
  exact ⟨_, rfl, rfl, (query_eq hins rfl).2.symm⟩

/-- A cell's row found, or made, and written back with new contents. -/
theorem rewriteFound_ok {b b' : Balance} {w₁ w₂ : World}
    (hfind : Call.exec (execStmt ar) (findOrCreate env a s) w = (.ok b, w₁))
    (hupd : Call.exec (execStmt ar) (updateRow b') w₁ = (.ok (), w₂)) (hid : b'.id = b.id) :
    b.availableBalance = w.avail (a, s) ∧ b.lockedBalance = w.locked (a, s) ∧
      Moves (a, s) (b'.availableBalance - w.avail (a, s)) (b'.lockedBalance - w.locked (a, s)) w w₂ := by
  obtain ⟨hmem, hkey, hav, hlk, hm⟩ := findOrCreate_ok hfind
  have hup := updateRow_ok hmem hupd hid
  rw [hkey, hav, hlk] at hup
  have hmoves := hm.trans hup
  rw [zero_add, zero_add] at hmoves
  exact ⟨hav, hlk, hmoves⟩

theorem deposit_ok {b : Balance}
    (h : Call.exec (execStmt ar) (deposit ar env a s x) w = (.ok b, w')) :
    0 < x ∧ ∃ w₁, Credit ar (a, s) x w w₁ ∧ Books (a, s) x w₁ w' := by
  simp only [deposit, Call.exec_bind_ok, Call.exec_failIf_ok, Call.exec_mapErr_ok] at h
  obtain ⟨_, _, ⟨hx, rfl⟩, b₀, w₁, hfind, _, w₂, hupd, e, w₃, hent, hret⟩ := h
  obtain ⟨hav, hlk, hm⟩ := rewriteFound_ok hfind hupd rfl
  simp only [Call.exec_pure, Prod.mk.injEq] at hret
  obtain ⟨-, rfl⟩ := hret
  refine ⟨by omega, w₂, ?_, createEntry_ok hent⟩
  simpa [Credit, hav, hlk] using hm

theorem withdraw_ok {b : Balance}
    (h : Call.exec (execStmt ar) (withdraw ar env a s x) w = (.ok b, w')) :
    0 < x ∧ ∃ w₁, Debit ar (a, s) x w w₁ ∧ Books (a, s) (-x) w₁ w' := by
  simp only [withdraw, Call.exec_bind_ok, Call.exec_failIf_ok, Call.exec_mapErr_ok] at h
  obtain ⟨_, _, ⟨hx, rfl⟩, b₀, w₁, hfind, _, _, ⟨hcov, rfl⟩, _, w₂, hupd, e, w₃, hent, hret⟩ := h
  obtain ⟨hav, hlk, hm⟩ := rewriteFound_ok hfind hupd rfl
  simp only [Call.exec_pure, Prod.mk.injEq] at hret
  obtain ⟨-, rfl⟩ := hret
  refine ⟨by omega, w₂, ⟨by omega, ?_⟩, createEntry_ok hent⟩
  simpa [hav, hlk] using hm

theorem lockBalance_ok {b : Balance}
    (h : Call.exec (execStmt ar) (lockBalance ar env a s x) w = (.ok b, w')) :
    0 < x ∧ x ≤ w.avail (a, s) ∧
      Moves (a, s) (ar.rust (w.avail (a, s) - x) - w.avail (a, s))
        (ar.rust (w.locked (a, s) + x) - w.locked (a, s)) w w' := by
  simp only [lockBalance, Call.exec_bind_ok, Call.exec_failIf_ok, Call.exec_mapErr_ok] at h
  obtain ⟨_, _, ⟨hx, rfl⟩, b₀, w₁, hfind, _, _, ⟨hcov, rfl⟩, _, w₂, hupd, hret⟩ := h
  obtain ⟨hav, hlk, hm⟩ := rewriteFound_ok hfind hupd rfl
  simp only [Call.exec_pure, Prod.mk.injEq] at hret
  obtain ⟨-, rfl⟩ := hret
  refine ⟨by omega, by omega, ?_⟩
  simpa [hav, hlk] using hm

theorem unlockBalance_ok {b : Balance}
    (h : Call.exec (execStmt ar) (unlockBalance ar env a s x) w = (.ok b, w')) :
    0 < x ∧ x ≤ w.locked (a, s) ∧
      Moves (a, s) (ar.rust (w.avail (a, s) + x) - w.avail (a, s))
        (ar.rust (w.locked (a, s) - x) - w.locked (a, s)) w w' := by
  simp only [unlockBalance, Call.exec_bind_ok, Call.exec_failIf_ok, Call.exec_mapErr_ok] at h
  obtain ⟨_, _, ⟨hx, rfl⟩, b₀, w₁, hfind, _, _, ⟨hcov, rfl⟩, _, w₂, hupd, hret⟩ := h
  obtain ⟨hav, hlk, hm⟩ := rewriteFound_ok hfind hupd rfl
  simp only [Call.exec_pure, Prod.mk.injEq] at hret
  obtain ⟨-, rfl⟩ := hret
  refine ⟨by omega, by omega, ?_⟩
  simpa [hav, hlk] using hm

/-- The row a `find_or_create` found is still there, by id, after any write to a row. -/
theorem updateRow_row {b b' : Balance} (hb : b ∈ w.balances.rows)
    (h : Call.exec (execStmt ar) (updateRow b') w = (.ok (), w')) :
    ∃ r ∈ w'.balances.rows, r.id = b.id ∧ r.key = b.key := by
  obtain ⟨-, rfl⟩ := query_eq h rfl
  refine Table.exists_mem_update ?_ hb
  exact fun _ => ⟨rfl, rfl⟩

theorem findOrCreate_keeps {b b₀ : Balance} (hb : b₀ ∈ w.balances.rows)
    (h : Call.exec (execStmt ar) (findOrCreate env a s) w = (.ok b, w')) :
    b₀ ∈ w'.balances.rows := by
  obtain ⟨row, w₁, hsel, hrest⟩ := Call.exec_bind_ok.1 h
  obtain ⟨rfl, rfl⟩ := query_eq hsel rfl
  rcases hbal : w.balance a s with _ | b₁ <;> rw [hbal] at hrest
  · obtain ⟨_, w₂, hins, hret⟩ := Call.exec_bind_ok.1 hrest
    obtain ⟨t, ht, rfl⟩ := insertBalance_ok (exec_sql_ok.1 hins)
    simp only [Call.exec_pure, Prod.mk.injEq] at hret
    rw [← hret.2]
    exact (Table.mem_insert ht).2 (.inl hb)
  · simp only [Call.exec_pure, Prod.mk.injEq] at hrest
    rwa [← hrest.2]

/-- A transfer writes to each of its two rows what it computed from the state before both
writes, and books a debit on the sender and a credit on the receiver. -/
theorem transfer_ok {dst : Uuid} {r : Balance × Balance}
    (h : Call.exec (execStmt ar) (transfer ar env a dst s x) w = (.ok r, w')) :
    0 < x ∧ x ≤ w.avail (a, s) ∧ ∃ w₁ w₂ w₃,
      Moves (a, s) (ar.rust (w.avail (a, s) - x) - w.avail (a, s)) 0 w w₁ ∧
      Moves (dst, s) (ar.rust (w.avail (dst, s) + x) - w₁.avail (dst, s)) 0 w₁ w₂ ∧
      Books (a, s) x w₂ w₃ ∧ Books (dst, s) (-x) w₃ w' := by
  simp only [transfer, createDoubleEntry, Call.exec_bind_ok, Call.exec_failIf_ok,
    Call.exec_mapErr_ok] at h
  obtain ⟨_, _, ⟨hx, rfl⟩, b₁, w₁, hfrom, _, _, ⟨hcov, rfl⟩, b₂, w₂, hto, _, w₃, hup₁, _, w₄, hup₂,
    _, w₅, ⟨e₁, v₁, hent₁, e₂, v₂, hent₂, hret₁⟩, hret⟩ := h
  obtain ⟨hmem₁, hkey₁, hav₁, hlk₁, hm₁⟩ := findOrCreate_ok hfrom
  obtain ⟨hmem₂, hkey₂, hav₂, hlk₂, hm₂⟩ := findOrCreate_ok hto
  have hu₁ := updateRow_ok (findOrCreate_keeps hmem₁ hto) hup₁ rfl
  obtain ⟨b₃, hmem₃, hid₃, hkey₃⟩ := updateRow_row hmem₂ hup₁
  have hu₂ := updateRow_ok hmem₃ hup₂ hid₃.symm
  simp only [Call.exec_pure, Prod.mk.injEq] at hret hret₁
  obtain ⟨-, rfl⟩ := hret₁
  obtain ⟨-, rfl⟩ := hret
  -- neither of the reads moved anything, so both rows hold what the cells held at the start
  have hav₂' : b₂.availableBalance = w.avail (dst, s) := by
    rw [hav₂]
    unfold World.avail
    rw [hm₁.avail, mul_zero, add_zero]
  have hm₁₂ : Moves (a, s) 0 0 w w₂ := by
    have hz : Moves (a, s) 0 0 w₁ w₂ :=
      ⟨fun χ => by rw [hm₂.avail, mul_zero, mul_zero], fun χ => by rw [hm₂.locked, mul_zero, mul_zero],
        hm₂.rows, hm₂.frame⟩
    simpa using hm₁.trans hz
  have hfirst : Moves (a, s) (ar.rust (w.avail (a, s) - x) - w.avail (a, s)) 0 w w₃ := by
    rw [hkey₁] at hu₁
    simpa [hav₁] using hm₁₂.trans hu₁
  refine ⟨by omega, by omega, w₃, w₄, v₁, hfirst, ?_, createEntry_ok hent₁, createEntry_ok hent₂⟩
  have hk : b₃.key = (dst, s) := hkey₃.trans hkey₂
  have hlock : b₃.lockedBalance = b₂.lockedBalance := by
    rw [← World.locked_of_mem hmem₃, hk, hlk₂]
    unfold World.locked
    rw [hfirst.locked, hm₁.locked]
  have hav₃ : b₃.availableBalance = w₃.avail (dst, s) := by rw [← World.avail_of_mem hmem₃, hk]
  rw [hk, hlock, hav₂', hav₃] at hu₂
  simpa using hu₂

end Service

end IntentX
