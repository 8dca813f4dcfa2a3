import IntentX.Holdings

/-!
# Settlement conserves funds

A successful `settle_fill` is a chain of balance moves (`FillMoves`), a chain of ledger entries
(`FillBooks`) and the mark on the fill; a successful `settle_trade` is the same with its own moves
and entries.  With exact integers the moves of either chain cancel in every asset, whichever of
the accounts and assets coincide, because each link moves a weighted sum by its own cell only.
-/

namespace IntentX

open Lib

/-! ## Settling a fill -/

section Settlements

variable {ar : Arith} {env : Env} {w w' : World}

/-- The account that receives the solver's fee of a fill. -/
def World.solverAccount (w : World) (solverId : String) : Uuid :=
  (w.accountByUserId solverId).getD platformAccountId

/-- What the seller receives of a fill, the platform's fee and the solver's. -/
def fillShares (ar : Arith) (p : SettleFillArgs) (fill : Fill) : Int × Int × Int :=
  (ar.rust (fill.filledQty - (p.fees fill.filledQty).1),
    ar.rust ((p.fees fill.filledQty).1 - (p.fees fill.filledQty).2), (p.fees fill.filledQty).2)

/-- The balance moves of a successful `settle_fill`, in order. -/
inductive FillMoves (ar : Arith) (p : SettleFillArgs) (fill : Fill) (w w' : World) : Prop
  | intro (w₁ w₂ w₃ w₄ w₅ : World)
    (debit : DebitLocked (p.buyerAccountId, p.assetIn) fill.filledQty w w₁)
    (receive : Credit ar (p.sellerAccountId, p.assetIn) (fillShares ar p fill).1 w₁ w₂)
    (deliver : Credit ar (p.buyerAccountId, p.assetOut) fill.qty w₂ w₃)
    (give : Debit ar (p.sellerAccountId, p.assetOut) fill.qty w₃ w₄)
    (platform : CreditFee ar (platformAccountId, p.assetIn) (fillShares ar p fill).2.1 w₄ w₅)
    (solver : CreditFee ar (w.solverAccount fill.solverId, p.assetIn) (fillShares ar p fill).2.2 w₅ w')

/-- The ledger entries of a successful `settle_fill`, in order. -/
inductive FillBooks (ar : Arith) (p : SettleFillArgs) (fill : Fill) (w w' : World) : Prop
  | intro (w₁ w₂ w₃ w₄ w₅ : World)
    (debit : Books (p.buyerAccountId, p.assetIn) (-fill.filledQty) w w₁)
    (deliver : Books (p.buyerAccountId, p.assetOut) fill.qty w₁ w₂)
    (receive : Books (p.sellerAccountId, p.assetIn) (fillShares ar p fill).1 w₂ w₃)
    (give : Books (p.sellerAccountId, p.assetOut) (-fill.qty) w₃ w₄)
    (platform : BooksFee (platformAccountId, p.assetIn) (fillShares ar p fill).2.1 w₄ w₅)
    (solver : BooksFee (platformAccountId, p.assetIn) (fillShares ar p fill).2.2 w₅ w')

/-- The solver's fee goes to the account that the lookup finds. -/
theorem creditSolver_ok {id : Uuid} {solverId : String} {s : Asset} {x now : Int}
    (h : Call.exec (execStmt ar) (Call.doIf (0 < x) (do
      let solverAcc ← query (.accountByUserId solverId) SettlementError.DbError
      Call.mapErr .DbError
        (creditBalance ar id (solverAcc.getD platformAccountId) s x now))) w = (.ok (), w')) :
    CreditFee ar (w.solverAccount solverId, s) x w w' := by
  unfold CreditFee
  rw [Call.exec_doIf] at h
  split at h
  · rw [if_pos ‹_›]
    obtain ⟨r, w₁, hsel, hcred⟩ := Call.exec_bind_ok.1 h
    obtain ⟨rfl, rfl⟩ := query_eq hsel rfl
    exact creditBalance_ok (Call.exec_mapErr_ok.1 hcred)
  · rw [if_neg ‹_›]
    exact (Prod.mk.inj h).2.symm

theorem settleLocked_ok {p : SettleFillArgs} {fill : Fill}
    (h : Call.exec (execStmt ar) (settleLocked ar env p fill) w = (.ok (), w')) :
    ∃ w₁ w₂, FillMoves ar p fill w w₁ ∧ FillBooks ar p fill w₁ w₂ ∧
      w' = w₂.markFill p.fillId (env.now 0) := by
  simp only [settleLocked, Call.exec_bind_ok] at h
  obtain ⟨_, w₁, h₁, _, w₂, h₂, _, w₃, h₃, _, w₄, h₄, _, w₅, h₅, _, w₆, h₆, _, v₁, g₁, _, v₂, g₂,
    _, v₃, g₃, _, v₄, g₄, _, v₅, g₅, _, v₆, g₆, hmark⟩ := h
  have hsolver : CreditFee ar (w.solverAccount fill.solverId, p.assetIn)
      (p.fees fill.filledQty).2 w₅ w₆ := by
    -- the lookup reads tables that no balance statement has touched
    have hacc : w₅.solverAccount fill.solverId = w.solverAccount fill.solverId := by
      rw [(creditFee_ok h₅).frame, (debitBalance_ok (Call.exec_mapErr_ok.1 h₄)).2.frame,
        (creditBalance_ok (Call.exec_mapErr_ok.1 h₃)).frame,
        (creditBalance_ok (Call.exec_mapErr_ok.1 h₂)).frame, (unlockAndDebit_ok h₁).2.frame]
      rfl
    rw [← hacc]
    exact creditSolver_ok h₆
  refine ⟨w₆, v₆, ?_, ?_, ?_⟩
  · exact ⟨w₁, w₂, w₃, w₄, w₅, unlockAndDebit_ok h₁, creditBalance_ok (Call.exec_mapErr_ok.1 h₂),
      creditBalance_ok (Call.exec_mapErr_ok.1 h₃), debitBalance_ok (Call.exec_mapErr_ok.1 h₄),
      creditFee_ok h₅, hsolver⟩
  · exact ⟨v₁, v₂, v₃, v₄, v₅, insertLedger_ok (Call.exec_mapErr_ok.1 g₁),
      insertLedger_ok (Call.exec_mapErr_ok.1 g₂), insertLedger_ok (Call.exec_mapErr_ok.1 g₃),
      insertLedger_ok (Call.exec_mapErr_ok.1 g₄), booksFee_ok g₅, booksFee_ok g₆⟩
  · exact (query_eq hmark rfl).2.symm

/-- **What a successful `settle_fill` does**: the fill was there and unsettled, the funds move,
the entries are booked, the fill is marked. -/
theorem settleFill_ok {p : SettleFillArgs}
    (h : Call.exec (execStmt ar) (settleFill ar env p) w = (.ok (), w')) :
    ∃ fill w₁ w₂, w.fill p.fillId = some fill ∧ fill.settled = false ∧
      FillMoves ar p fill w w₁ ∧ FillBooks ar p fill w₁ w₂ ∧
      w' = w₂.markFill p.fillId (env.now 0) := by
  simp only [settleFill, Call.exec_bind_ok, Call.exec_orThrow_ok, Call.exec_failIf_ok] at h
  obtain ⟨row, w₀, hsel, fill, w₀', ⟨hrow, rfl⟩, _, w₀'', ⟨hns, rfl⟩, hbody⟩ := h
  obtain ⟨rfl, rfl⟩ := query_eq hsel rfl
  obtain ⟨w₁, w₂, hmv, hbk, hw'⟩ := settleLocked_ok hbody
  exact ⟨fill, w₁, w₂, hrow, by simpa using hns, hmv, hbk, hw'⟩

theorem FillBooks.frame {p : SettleFillArgs} {fill : Fill} (h : FillBooks ar p fill w w') :
    w' = { w with ledgerEntries := w'.ledgerEntries } := by
  obtain ⟨w₁, w₂, w₃, w₄, w₅, h₁, h₂, h₃, h₄, h₅, h₆⟩ := h
  rw [h₆.frame, h₅.frame, h₄.frame, h₃.frame, h₂.frame, h₁.frame]

theorem FillMoves.frame {p : SettleFillArgs} {fill : Fill} (h : FillMoves ar p fill w w') :
    w' = { w with balances := w'.balances } := by
  obtain ⟨w₁, w₂, w₃, w₄, w₅, h₁, h₂, h₃, h₄, h₅, h₆⟩ := h
  rw [h₆.frame, h₅.frame, h₄.2.frame, Moves.frame h₃, Moves.frame h₂, h₁.2.frame]

/-! ## Settling a trade -/

/-- What the seller receives of a trade. -/
def tradeShare (ar : Arith) (t : Trade) : Int :=
  ar.rust (ar.rust (t.amountIn - t.platformFee) - t.solverFee)

/-- The balance moves of a successful `settle_trade`, in order. -/
inductive TradeMoves (ar : Arith) (t : Trade) (w w' : World) : Prop
  | intro (w₁ w₂ w₃ w₄ w₅ : World)
    (debit : Debit ar (t.buyerAccountId, t.assetIn) t.amountIn w w₁)
    (receive : Credit ar (t.sellerAccountId, t.assetIn) (tradeShare ar t) w₁ w₂)
    (deliver : Credit ar (t.buyerAccountId, t.assetOut) t.amountOut w₂ w₃)
    (give : Debit ar (t.sellerAccountId, t.assetOut) t.amountOut w₃ w₄)
    (platform : Credit ar (platformAccountId, t.assetIn) t.platformFee w₄ w₅)
    (solver : Credit ar (t.solverAccountId, t.assetIn) t.solverFee w₅ w')

/-- The ledger entries of a successful `settle_trade`, in order. -/
inductive TradeBooks (ar : Arith) (t : Trade) (w w' : World) : Prop
  | intro (w₁ w₂ w₃ w₄ w₅ : World)
    (debit : Books (t.buyerAccountId, t.assetIn) (-t.amountIn) w w₁)
    (deliver : Books (t.buyerAccountId, t.assetOut) t.amountOut w₁ w₂)
    (receive : Books (t.sellerAccountId, t.assetIn) (tradeShare ar t) w₂ w₃)
    (give : Books (t.sellerAccountId, t.assetOut) (-t.amountOut) w₃ w₄)
    (platform : Books (platformAccountId, t.assetIn) t.platformFee w₄ w₅)
    (solver : Books (t.solverAccountId, t.assetIn) t.solverFee w₅ w')

/-- **What a successful `settle_trade` does.** -/
theorem settleTrade_ok {tradeId : Uuid} {r : Trade}
    (h : Call.exec (execStmt ar) (settleTrade ar env tradeId) w = (.ok r, w')) :
    ∃ t w₁ w₂, w.trade tradeId = some t ∧ t.status ≠ .Settled ∧
      TradeMoves ar t w w₁ ∧ TradeBooks ar t w₁ w₂ ∧ w' = w₂.markTrade t.id (env.now 0) := by
  simp only [settleTrade, Call.exec_bind_ok, Call.exec_orThrow_ok, Call.exec_failIf_ok] at h
  obtain ⟨row, w₀, hsel, t, w₀', ⟨hrow, rfl⟩, _, w₀'', ⟨hns, rfl⟩, hbody⟩ := h
  obtain ⟨_, w₁, h₁, _, w₂, h₂, _, w₃, h₃, _, w₄, h₄, _, w₅, h₅, _, w₆, h₆, _, v₁, g₁, _, v₂, g₂,
    _, v₃, g₃, _, v₄, g₄, _, v₅, g₅, _, v₆, g₆, _, v₇, hmark, hret⟩ := hbody
  obtain ⟨rfl, rfl⟩ := query_eq hsel rfl
  refine ⟨t, w₆, v₆, hrow, hns, ?_, ?_, ?_⟩
  · exact ⟨w₁, w₂, w₃, w₄, w₅, debitBalance_ok (Call.exec_mapErr_ok.1 h₁),
      creditBalance_ok (Call.exec_mapErr_ok.1 h₂), creditBalance_ok (Call.exec_mapErr_ok.1 h₃),
      debitBalance_ok (Call.exec_mapErr_ok.1 h₄), creditBalance_ok (Call.exec_mapErr_ok.1 h₅),
      creditBalance_ok (Call.exec_mapErr_ok.1 h₆)⟩
  · exact ⟨v₁, v₂, v₃, v₄, v₅, insertLedger_ok (Call.exec_mapErr_ok.1 g₁),
      insertLedger_ok (Call.exec_mapErr_ok.1 g₂), insertLedger_ok (Call.exec_mapErr_ok.1 g₃),
      insertLedger_ok (Call.exec_mapErr_ok.1 g₄), insertLedger_ok (Call.exec_mapErr_ok.1 g₅),
      insertLedger_ok (Call.exec_mapErr_ok.1 g₆)⟩
  · simp only [Call.exec_pure, Prod.mk.injEq] at hret
    rw [← hret.2, (query_eq hmark rfl).2]

theorem TradeBooks.frame {t : Trade} (h : TradeBooks ar t w w') :
    w' = { w with ledgerEntries := w'.ledgerEntries } := by
  obtain ⟨w₁, w₂, w₃, w₄, w₅, h₁, h₂, h₃, h₄, h₅, h₆⟩ := h
  rw [h₆.frame, h₅.frame, h₄.frame, h₃.frame, h₂.frame, h₁.frame]

theorem TradeMoves.frame {t : Trade} (h : TradeMoves ar t w w') :
    w' = { w with balances := w'.balances } := by
  obtain ⟨w₁, w₂, w₃, w₄, w₅, h₁, h₂, h₃, h₄, h₅, h₆⟩ := h
  rw [Moves.frame h₆, Moves.frame h₅, h₄.2.frame, Moves.frame h₃, Moves.frame h₂, h₁.2.frame]

end Settlements

/-! ## Room for the moves of a chain -/

/-- There is room in a cell for additions of at most `hi`, and for subtractions that stay within
`lo` of where the cell is or of 0: they come out as integer arithmetic has them. -/
def Room (ar : Arith) (lo hi : Int) (k : Cell) (w : World) : Prop :=
  ∀ x ≤ hi, -lo ≤ x ∨ -lo ≤ w.avail k + x → ar.rust (w.avail k + x) = w.avail k + x

/-- Room in all of the cells of `K`. -/
def Rooms (ar : Arith) (lo hi : Int) (K : List Cell) (w : World) : Prop :=
  ∀ k ∈ K, Room ar lo hi k w

section Room

variable {ar : Arith} {w w' : World} {k : Cell} {K : List Cell} {x lo hi lo' hi' : Int}

theorem rooms_exact : Rooms .exact lo hi K w := fun _ _ _ _ _ => rfl

/-- The same for 64-bit cells, as bounds on what is in them. -/
def I64Room (lo hi : Int) (K : List Cell) (w : World) : Prop :=
  lo ≤ 2 ^ 63 ∧ ∀ k ∈ K, -2 ^ 63 + lo ≤ w.avail k ∧ w.avail k + hi < 2 ^ 63

instance (lo hi : Int) (K : List Cell) (w : World) : Decidable (I64Room lo hi K w) :=
  inferInstanceAs (Decidable (_ ∧ _))

theorem I64Room.rooms (h : I64Room lo hi K w) : Rooms .release lo hi K w := by
  intro k hk x hx hor
  have hlo := h.1
  have hcell := h.2 k hk
  apply Arith.release_rust
  omega

theorem Rooms.mono (h : Rooms ar lo hi K w) (hl : lo' ≤ lo) (hh : hi' ≤ hi) :
    Rooms ar lo' hi' K w := by
  intro k hk x hx hor
  exact h k hk x (by omega) (by omega)

/-- What is left of the room after a cell has moved by `d`. -/
theorem Rooms.moves {k₀ : Cell} {d dl : Int} (h : Rooms ar lo hi K w) (hm : Moves k₀ d dl w w') :
    Rooms ar (lo - max 0 (-d)) (hi - max 0 d) K w' := by
  intro k hk x hx hor
  by_cases hkk : k₀ = k
  · subst hkk
    have hexact := h k₀ hk (d + x) (by omega) (by rw [hm.avail_self] at hor; omega)
    rw [hm.avail_self, add_assoc]
    exact hexact
  · rw [hm.avail_ne hkk] at hor ⊢
    exact h k hk x (by omega) (by omega)

theorem Rooms.credit (h : Rooms ar lo hi K w) (hk : k ∈ K) (hc : Credit ar k x w w')
    (hlo : -lo ≤ x) (hhi : x ≤ hi) :
    Moves k x 0 w w' ∧ Rooms ar (lo - max 0 (-x)) (hi - max 0 x) K w' := by
  have hm : Moves k x 0 w w' := by
    unfold Credit at hc
    rwa [h k hk x hhi (.inl hlo), add_sub_cancel_left] at hc
  exact ⟨hm, h.moves hm⟩

theorem Rooms.creditFee (h : Rooms ar lo hi K w) (hk : k ∈ K) (hc : CreditFee ar k x w w')
    (hlo : 0 ≤ lo) (hhi : x ≤ hi) :
    Moves k (max 0 x) 0 w w' ∧ Rooms ar lo (hi - max 0 x) K w' := by
  unfold CreditFee at hc
  split at hc
  · obtain ⟨hm, hr⟩ := h.credit hk hc (by omega) hhi
    have hmax : max 0 x = x := by omega
    exact ⟨by rwa [hmax], hr.mono (by omega) (by omega)⟩
  · have hmax : max 0 x = 0 := by omega
    rw [hc, hmax]
    exact ⟨Moves.refl k w, h.mono (by omega) (by omega)⟩

/-- A covered debit leaves the cell at 0 or above, so the room below stays as it was. -/
theorem Rooms.debit (h : Rooms ar lo hi K w) (hk : k ∈ K) (hd : Debit ar k x w w') (hlo : 0 ≤ lo)
    (hhi : -x ≤ hi) : Moves k (-x) 0 w w' ∧ Rooms ar lo (hi - max 0 (-x)) K w' := by
  obtain ⟨hcov, hm⟩ := hd
  have hexact := h k hk (-x) hhi (by omega)
  rw [← sub_eq_add_neg] at hexact
  rw [hexact, sub_sub_cancel_left] at hm
  refine ⟨hm, fun k' hk' y hy hor => ?_⟩
  by_cases hkk : k = k'
  · subst hkk
    have hy' := h k hk (-x + y) (by omega) (by rw [hm.avail_self] at hor; omega)
    rw [hm.avail_self, add_assoc]
    exact hy'
  · rw [hm.avail_ne hkk] at hor ⊢
    exact h k' hk' y (by omega) (by omega)

end Room

/-! ## Sums that are stored -/

/-- A move of the available balance of a cell. -/
abbrev Step := Cell × Int

/-- None of the sums wraps around when `ds` are added to `x` one after the other. -/
def Arith.NoWrap (ar : Arith) : Int → List Int → Prop
  | _, [] => True
  | x, d :: ds => ar.rust (x + d) = x + d ∧ ar.NoWrap (x + d) ds

/-- What the steps add to a cell, in order. -/
def onCell (k : Cell) (ms : List Step) : List Int := (ms.filter fun m => m.1 = k).map (·.2)

/-- No sum that the steps store wraps around, in any cell. -/
def NoWraps (ar : Arith) (ms : List Step) (w : World) : Prop :=
  ∀ k, ar.NoWrap (w.avail k) (onCell k ms)

/-- A fee is a step when it is positive. -/
def feeStep (k : Cell) (x : Int) : List Step := if 0 < x then [(k, x)] else []

instance Arith.NoWrap.decidable (ar : Arith) : (x : Int) → (ds : List Int) → Decidable (ar.NoWrap x ds)
  | _, [] => isTrue trivial
  | x, d :: ds =>
    have := Arith.NoWrap.decidable ar (x + d) ds
    inferInstanceAs (Decidable (_ ∧ _))

section Steps

variable {ar : Arith} {w w₁ : World} {k k' : Cell} {ms : List Step} {d x : Int}

theorem onCell_self (k : Cell) (d : Int) (ms : List Step) : onCell k ((k, d) :: ms) = d :: onCell k ms := by
  simp [onCell]

theorem onCell_ne (h : k ≠ k') (d : Int) (ms : List Step) : onCell k' ((k, d) :: ms) = onCell k' ms := by
  simp [onCell, h]

/-- The step is made, and the sums after it are still in order, in cell `k'`. -/
theorem Arith.NoWrap.step (h : ar.NoWrap (w.avail k') (onCell k' ((k, d) :: ms)))
    (hm : Moves k (ar.rust (w.avail k + d) - w.avail k) 0 w w₁) :
    w₁.avail k' + (onCell k' ms).sum = w.avail k' + (onCell k' ((k, d) :: ms)).sum ∧
      ar.NoWrap (w₁.avail k') (onCell k' ms) := by
  by_cases hk : k = k'
  · subst hk
    rw [onCell_self] at h ⊢
    obtain ⟨hsum, hrest⟩ := h
    have hav : w₁.avail k = w.avail k + d := by
      rw [hm.avail_self, hsum]
      ring
    rw [hav, List.sum_cons]
    exact ⟨by ring, hrest⟩
  · rw [onCell_ne hk] at h ⊢
    rw [hm.avail_ne hk]
    exact ⟨rfl, h⟩

theorem Arith.NoWrap.fee (h : ar.NoWrap (w.avail k') (onCell k' (feeStep k x ++ ms)))
    (hc : CreditFee ar k x w w₁) :
    w₁.avail k' + (onCell k' ms).sum = w.avail k' + (onCell k' (feeStep k x ++ ms)).sum ∧
      ar.NoWrap (w₁.avail k') (onCell k' ms) := by
  unfold CreditFee at hc
  unfold feeStep at h ⊢
  split at hc
  · rw [if_pos ‹_›] at h ⊢
    exact h.step hc
  · rw [if_neg ‹_›] at h ⊢
    rw [hc]
    exact ⟨rfl, h⟩

theorem NoWraps.step (h : NoWraps ar ((k, d) :: ms) w)
    (hm : Moves k (ar.rust (w.avail k + d) - w.avail k) 0 w w₁) :
    Moves k d 0 w w₁ ∧ NoWraps ar ms w₁ := by
  refine ⟨?_, fun k' => ((h k').step hm).2⟩
  have hk := h k
  rw [onCell_self] at hk
  rwa [hk.1, add_sub_cancel_left] at hm

theorem NoWraps.fee (h : NoWraps ar (feeStep k x ++ ms) w) (hc : CreditFee ar k x w w₁) :
    Moves k (max 0 x) 0 w w₁ ∧ NoWraps ar ms w₁ := by
  refine ⟨?_, fun k' => ((h k').fee hc).2⟩
  unfold CreditFee at hc
  unfold feeStep at h
  split at hc
  · rw [if_pos ‹_›] at h
    rw [max_eq_right (by omega)]
    exact (h.step hc).1
  · rw [hc, max_eq_left (by omega)]
    exact Moves.refl k w

/-- What is taken from the locked balance leaves every available one. -/
theorem DebitLocked.avail (h : DebitLocked k x w w₁) (k' : Cell) : w₁.avail k' = w.avail k' := by
  unfold World.avail
  rw [h.2.avail, mul_zero, add_zero]

/-- A debit is a step downwards. -/
theorem Debit.step (h : Debit ar k x w w₁) : Moves k (ar.rust (w.avail k + -x) - w.avail k) 0 w w₁ := by
  rw [← sub_eq_add_neg]
  exact h.2

end Steps

/-! ## Sums after a settlement -/

section Sums

variable {ar : Arith} {w w' : World}

/-- The cells whose available balance `settle_fill` moves. -/
def fillCells (p : SettleFillArgs) (fill : Fill) (w : World) : List Cell :=
  [(p.sellerAccountId, p.assetIn), (p.buyerAccountId, p.assetOut), (p.sellerAccountId, p.assetOut),
    (platformAccountId, p.assetIn), (w.solverAccount fill.solverId, p.assetIn)]

/-- The most that `settle_fill` takes out of a cell unguarded, and the most that it puts in. -/
def fillBudget (ar : Arith) (p : SettleFillArgs) (fill : Fill) : Int × Int :=
  (max 0 (-(fillShares ar p fill).1) + max 0 (-fill.qty),
    max 0 (fillShares ar p fill).1 + max fill.qty (-fill.qty) + max 0 (fillShares ar p fill).2.1 +
      max 0 (fillShares ar p fill).2.2)

/-- What both settlements do after the buyer's debit, in integers: the seller is paid, the other asset is handed
over, and the two fees are paid out. -/
inductive PayOut (kr kd kg kp ks : Cell) (share out pf sf : Int) (w w' : World) : Prop
  | intro (w₁ w₂ w₃ w₄ : World)
    (receive : Moves kr share 0 w w₁)
    (deliver : Moves kd out 0 w₁ w₂)
    (covered : out ≤ w₂.avail kg)
    (give : Moves kg (-out) 0 w₂ w₃)
    (platform : Moves kp pf 0 w₃ w₄)
    (solver : Moves ks sf 0 w₄ w')

theorem PayOut.availSum {kr kd kg kp ks : Cell} {share out pf sf : Int}
    (h : PayOut kr kd kg kp ks share out pf sf w w') (χ : Cell → Int) :
    w'.availSum χ = w.availSum χ + χ kr * share + χ kd * out - χ kg * out + χ kp * pf + χ ks * sf := by
  obtain ⟨w₁, w₂, w₃, w₄, receive, deliver, -, give, platform, solver⟩ := h
  rw [solver.avail, platform.avail, give.avail, deliver.avail, receive.avail]
  ring

/-- With room for its moves a settlement of a fill moves what it means to. -/
theorem FillMoves.payOut {p : SettleFillArgs} {fill : Fill} (h : FillMoves ar p fill w w')
    (hroom : Rooms ar (fillBudget ar p fill).1 (fillBudget ar p fill).2 (fillCells p fill w) w) :
    ∃ w₁, DebitLocked (p.buyerAccountId, p.assetIn) fill.filledQty w w₁ ∧
      PayOut (p.sellerAccountId, p.assetIn) (p.buyerAccountId, p.assetOut) (p.sellerAccountId, p.assetOut)
        (platformAccountId, p.assetIn) (w.solverAccount fill.solverId, p.assetIn) (fillShares ar p fill).1
        fill.qty (max 0 (fillShares ar p fill).2.1) (max 0 (fillShares ar p fill).2.2) w₁ w' := by
  obtain ⟨w₁, w₂, w₃, w₄, w₅, h₁, h₂, h₃, h₄, h₅, h₆⟩ := h
  simp only [fillBudget] at hroom
  -- the budget shrinks by each credit in turn and is used up by the last
  have r₁ := hroom.moves h₁.2
  obtain ⟨m₂, r₂⟩ := r₁.credit (by simp [fillCells]) h₂ (by omega) (by omega)
  obtain ⟨m₃, r₃⟩ := r₂.credit (by simp [fillCells]) h₃ (by omega) (by omega)
  obtain ⟨m₄, r₄⟩ := r₃.debit (by simp [fillCells]) h₄ (by omega) (by omega)
  obtain ⟨m₅, r₅⟩ := r₄.creditFee (by simp [fillCells]) h₅ (by omega) (by omega)
  obtain ⟨m₆, -⟩ := r₅.creditFee (by simp [fillCells]) h₆ (by omega) (by omega)
  exact ⟨w₁, h₁, w₂, w₃, w₄, w₅, m₂, m₃, h₄.1, m₄, m₅, m₆⟩

theorem FillMoves.availSum {p : SettleFillArgs} {fill : Fill} (h : FillMoves ar p fill w w')
    (hroom : Rooms ar (fillBudget ar p fill).1 (fillBudget ar p fill).2 (fillCells p fill w) w)
    (χ : Cell → Int) :
    w'.availSum χ = w.availSum χ
      + χ (p.sellerAccountId, p.assetIn) * (fillShares ar p fill).1
      + χ (p.buyerAccountId, p.assetOut) * fill.qty
      - χ (p.sellerAccountId, p.assetOut) * fill.qty
      + χ (platformAccountId, p.assetIn) * max 0 (fillShares ar p fill).2.1
      + χ (w.solverAccount fill.solverId, p.assetIn) * max 0 (fillShares ar p fill).2.2 := by
  obtain ⟨w₁, hdebit, hpay⟩ := h.payOut hroom
  rw [hpay.availSum, hdebit.2.avail, mul_zero, add_zero]

/-- The steps of `settle_fill` after the buyer's debit. -/
def fillSteps (ar : Arith) (p : SettleFillArgs) (fill : Fill) (w : World) : List Step :=
  ((p.sellerAccountId, p.assetIn), (fillShares ar p fill).1) ::
    ((p.buyerAccountId, p.assetOut), fill.qty) ::
    ((p.sellerAccountId, p.assetOut), -fill.qty) ::
    (feeStep (platformAccountId, p.assetIn) (fillShares ar p fill).2.1 ++
      (feeStep (w.solverAccount fill.solverId, p.assetIn) (fillShares ar p fill).2.2 ++ []))

/-- A cell in which no sum wraps around ends with what the steps add to it. -/
theorem FillMoves.avail_of_noWrap {p : SettleFillArgs} {fill : Fill} {k : Cell}
    (h : FillMoves ar p fill w w') (hk : ar.NoWrap (w.avail k) (onCell k (fillSteps ar p fill w))) :
    w'.avail k = w.avail k + (onCell k (fillSteps ar p fill w)).sum := by
  obtain ⟨w₁, w₂, w₃, w₄, w₅, h₁, h₂, h₃, h₄, h₅, h₆⟩ := h
  rw [← h₁.avail k] at hk ⊢
  obtain ⟨e₂, n₂⟩ := hk.step h₂
  obtain ⟨e₃, n₃⟩ := n₂.step h₃
  obtain ⟨e₄, n₄⟩ := n₃.step h₄.step
  obtain ⟨e₅, n₅⟩ := n₄.fee h₅
  obtain ⟨e₆, -⟩ := n₅.fee h₆
  have hnil : (onCell k []).sum = 0 := rfl
  unfold fillSteps
  rw [← e₂, ← e₃, ← e₄, ← e₅, ← e₆, hnil, add_zero]

/-- When no sum wraps around a settlement of a fill moves what it means to. -/
theorem FillMoves.payOut_of_noWraps {p : SettleFillArgs} {fill : Fill} (h : FillMoves ar p fill w w')
    (hn : NoWraps ar (fillSteps ar p fill w) w) :
    ∃ w₁, DebitLocked (p.buyerAccountId, p.assetIn) fill.filledQty w w₁ ∧
      PayOut (p.sellerAccountId, p.assetIn) (p.buyerAccountId, p.assetOut) (p.sellerAccountId, p.assetOut)
        (platformAccountId, p.assetIn) (w.solverAccount fill.solverId, p.assetIn) (fillShares ar p fill).1
        fill.qty (max 0 (fillShares ar p fill).2.1) (max 0 (fillShares ar p fill).2.2) w₁ w' := by
  obtain ⟨w₁, w₂, w₃, w₄, w₅, h₁, h₂, h₃, h₄, h₅, h₆⟩ := h
  have n₁ : NoWraps ar (fillSteps ar p fill w) w₁ := by
    intro k
    rw [h₁.avail k]
    exact hn k
  obtain ⟨m₂, n₂⟩ := n₁.step h₂
  obtain ⟨m₃, n₃⟩ := n₂.step h₃
  obtain ⟨m₄, n₄⟩ := n₃.step h₄.step
  obtain ⟨m₅, n₅⟩ := n₄.fee h₅
  obtain ⟨m₆, -⟩ := n₅.fee h₆
  exact ⟨w₁, h₁, w₂, w₃, w₄, w₅, m₂, m₃, h₄.1, m₄, m₅, m₆⟩

theorem CreditFee.lockedSum {k : Cell} {x : Int} (h : CreditFee ar k x w w') (χ : Cell → Int) :
    w'.lockedSum χ = w.lockedSum χ := by
  unfold CreditFee at h
  split at h
  · rw [Moves.locked h, mul_zero, add_zero]
  · rw [h]

theorem FillMoves.lockedSum {p : SettleFillArgs} {fill : Fill} (h : FillMoves ar p fill w w')
    (χ : Cell → Int) :
    w'.lockedSum χ = w.lockedSum χ - χ (p.buyerAccountId, p.assetIn) * fill.filledQty := by
  obtain ⟨w₁, w₂, w₃, w₄, w₅, h₁, h₂, h₃, h₄, h₅, h₆⟩ := h
  rw [h₆.lockedSum, h₅.lockedSum, h₄.2.locked, Moves.locked h₃, Moves.locked h₂, h₁.2.locked]
  ring

/-- The cells whose available balance `settle_trade` moves. -/
def tradeCells (t : Trade) : List Cell :=
  [(t.buyerAccountId, t.assetIn), (t.sellerAccountId, t.assetIn), (t.buyerAccountId, t.assetOut),
    (t.sellerAccountId, t.assetOut), (platformAccountId, t.assetIn), (t.solverAccountId, t.assetIn)]

/-- The most that `settle_trade` takes out of a cell unguarded, and the most that it puts in. -/
def tradeBudget (ar : Arith) (t : Trade) : Int × Int :=
  (max 0 (-tradeShare ar t) + max 0 (-t.amountOut) + max 0 (-t.platformFee) + max 0 (-t.solverFee),
    max 0 (-t.amountIn) + max 0 (tradeShare ar t) + max t.amountOut (-t.amountOut) +
      max 0 t.platformFee + max 0 t.solverFee)

theorem TradeMoves.payOut {t : Trade} (h : TradeMoves ar t w w')
    (hroom : Rooms ar (tradeBudget ar t).1 (tradeBudget ar t).2 (tradeCells t) w) :
    ∃ w₁, t.amountIn ≤ w.avail (t.buyerAccountId, t.assetIn) ∧
      Moves (t.buyerAccountId, t.assetIn) (-t.amountIn) 0 w w₁ ∧
      PayOut (t.sellerAccountId, t.assetIn) (t.buyerAccountId, t.assetOut) (t.sellerAccountId, t.assetOut)
        (platformAccountId, t.assetIn) (t.solverAccountId, t.assetIn) (tradeShare ar t) t.amountOut
        t.platformFee t.solverFee w₁ w' := by
  obtain ⟨w₁, w₂, w₃, w₄, w₅, h₁, h₂, h₃, h₄, h₅, h₆⟩ := h
  simp only [tradeBudget] at hroom
  obtain ⟨m₁, r₁⟩ := hroom.debit (by simp [tradeCells]) h₁ (by omega) (by omega)
  obtain ⟨m₂, r₂⟩ := r₁.credit (by simp [tradeCells]) h₂ (by omega) (by omega)
  obtain ⟨m₃, r₃⟩ := r₂.credit (by simp [tradeCells]) h₃ (by omega) (by omega)
  obtain ⟨m₄, r₄⟩ := r₃.debit (by simp [tradeCells]) h₄ (by omega) (by omega)
  obtain ⟨m₅, r₅⟩ := r₄.credit (by simp [tradeCells]) h₅ (by omega) (by omega)
  obtain ⟨m₆, -⟩ := r₅.credit (by simp [tradeCells]) h₆ (by omega) (by omega)
  exact ⟨w₁, h₁.1, m₁, w₂, w₃, w₄, w₅, m₂, m₃, h₄.1, m₄, m₅, m₆⟩

/-- The steps of `settle_trade`. -/
def tradeSteps (ar : Arith) (t : Trade) : List Step :=
  [((t.buyerAccountId, t.assetIn), -t.amountIn), ((t.sellerAccountId, t.assetIn), tradeShare ar t),
    ((t.buyerAccountId, t.assetOut), t.amountOut), ((t.sellerAccountId, t.assetOut), -t.amountOut),
    ((platformAccountId, t.assetIn), t.platformFee), ((t.solverAccountId, t.assetIn), t.solverFee)]

theorem TradeMoves.payOut_of_noWraps {t : Trade} (h : TradeMoves ar t w w')
    (hn : NoWraps ar (tradeSteps ar t) w) :
    ∃ w₁, t.amountIn ≤ w.avail (t.buyerAccountId, t.assetIn) ∧
      Moves (t.buyerAccountId, t.assetIn) (-t.amountIn) 0 w w₁ ∧
      PayOut (t.sellerAccountId, t.assetIn) (t.buyerAccountId, t.assetOut) (t.sellerAccountId, t.assetOut)
        (platformAccountId, t.assetIn) (t.solverAccountId, t.assetIn) (tradeShare ar t) t.amountOut
        t.platformFee t.solverFee w₁ w' := by
  obtain ⟨w₁, w₂, w₃, w₄, w₅, h₁, h₂, h₃, h₄, h₅, h₆⟩ := h
  obtain ⟨m₁, n₁⟩ := hn.step h₁.step
  obtain ⟨m₂, n₂⟩ := n₁.step h₂
  obtain ⟨m₃, n₃⟩ := n₂.step h₃
  obtain ⟨m₄, n₄⟩ := n₃.step h₄.step
  obtain ⟨m₅, n₅⟩ := n₄.step h₅
  obtain ⟨m₆, -⟩ := n₅.step h₆
  exact ⟨w₁, h₁.1, m₁, w₂, w₃, w₄, w₅, m₂, m₃, h₄.1, m₄, m₅, m₆⟩

theorem TradeMoves.availSum {t : Trade} (h : TradeMoves ar t w w')
    (hroom : Rooms ar (tradeBudget ar t).1 (tradeBudget ar t).2 (tradeCells t) w) (χ : Cell → Int) :
    w'.availSum χ = w.availSum χ
      - χ (t.buyerAccountId, t.assetIn) * t.amountIn
      + χ (t.sellerAccountId, t.assetIn) * tradeShare ar t
      + χ (t.buyerAccountId, t.assetOut) * t.amountOut
      - χ (t.sellerAccountId, t.assetOut) * t.amountOut
      + χ (platformAccountId, t.assetIn) * t.platformFee
      + χ (t.solverAccountId, t.assetIn) * t.solverFee := by
  obtain ⟨w₁, -, hdebit, hpay⟩ := h.payOut hroom
  rw [hpay.availSum, hdebit.avail]
  ring

theorem TradeMoves.lockedSum {t : Trade} (h : TradeMoves ar t w w') (χ : Cell → Int) :
    w'.lockedSum χ = w.lockedSum χ := by
  obtain ⟨w₁, w₂, w₃, w₄, w₅, h₁, h₂, h₃, h₄, h₅, h₆⟩ := h
  rw [Moves.locked h₆, Moves.locked h₅, h₄.2.locked, Moves.locked h₃, Moves.locked h₂, h₁.2.locked]
  ring

end Sums

/-! ## Conservation -/

/-- All of an asset: available plus locked, over all accounts. -/
def World.supply (w : World) (s : Asset) : Int :=
  w.balances.sum fun b => if b.asset = s then b.availableBalance + b.lockedBalance else 0

theorem World.supply_eq (w : World) (s : Asset) :
    w.supply s = w.availSum (ofAsset s) + w.lockedSum (ofAsset s) := by
  unfold World.supply World.availSum World.lockedSum Table.sum
  rw [← sum_map_add_sub]
  congr 1
  refine List.map_congr_left fun b _ => ?_
  by_cases h : b.asset = s <;> simp [ofAsset, Balance.key, h]

/-- The platform, a buyer with 100 USDC locked, a seller with 5 ETH, and an open fill and a
pending trade between the two. -/
def settlementDemo : World :=
  { World.empty with
    users := [⟨20, "solver"⟩]
    accounts := [⟨1, 0⟩, ⟨2, 10⟩, ⟨3, 20⟩]
    balances := ⟨[⟨100, 2, .USDC, 40, 100, 0⟩, ⟨101, 3, .ETH, 5, 0, 0⟩], by decide, by decide⟩
    fills := ⟨[Fill.new 7 70 (uuidText 20) 1 2 100 0], by decide, by decide⟩
    trades := ⟨[⟨8, 2, 3, 3, .USDC, .ETH, 40, 2, 3, 1, .Pending, 0, none⟩], by decide, by decide⟩ }

/-- Ids from 1000 on, at time 0. -/
def demoEnv : Env := ⟨fun i => 1000 + i, fun _ => 0⟩

/-- The fees of a fill: `0 ≤ solver_fee ≤ total_fee ≤ filled_qty`. -/
def FeesOk (fees : Int × Int) (amount : Int) : Prop :=
  0 ≤ fees.2 ∧ fees.2 ≤ fees.1 ∧ fees.1 ≤ amount

def demoFill : SettleFillArgs := ⟨7, 2, 3, .USDC, .ETH, fun _ => (10, 3)⟩

/-- **Settlement conserves funds.**  A successful `settle_fill` or `settle_trade` leaves the total
of every asset as it was, for all accounts and assets, distinct or not. -/
theorem settlement_conserves_supply (w : World) (env : Env) (s : Asset) :
    (∀ p : SettleFillArgs,
      (∀ fill, w.fill p.fillId = some fill → FeesOk (p.fees fill.filledQty) fill.filledQty) →
      ∀ w', settleFillTx .exact env p w = (.ok (), w') → w'.supply s = w.supply s) ∧
    (∀ tradeId t w', settleTradeTx .exact env tradeId w = (.ok t, w') →
      w'.supply s = w.supply s) := by
  constructor
  · intro p hfee w' h
    obtain ⟨fill, w₁, w₂, hfill, -, hmv, hbk, rfl⟩ := settleFill_ok (Call.transaction_ok.1 h)
    have hsup : (w₂.markFill p.fillId (env.now 0)).supply s = w₁.supply s := by
      rw [hbk.frame]
      rfl
    obtain ⟨hs, hst, -⟩ := hfee fill hfill
    have hpf : max 0 (fillShares .exact p fill).2.1 = (fillShares .exact p fill).2.1 :=
      max_eq_right (by simpa [fillShares] using hst)
    have hsf : max 0 (fillShares .exact p fill).2.2 = (fillShares .exact p fill).2.2 :=
      max_eq_right hs
    rw [hsup, World.supply_eq, World.supply_eq, hmv.availSum rooms_exact, hmv.lockedSum, hpf, hsf]
    simp only [ofAsset, fillShares, Arith.exact_rust]
    split <;> split <;> ring
  · intro tradeId t w' h
    obtain ⟨t, w₁, w₂, -, -, hmv, hbk, rfl⟩ := settleTrade_ok (Call.transaction_ok.1 h)
    have hsup : (w₂.markTrade t.id (env.now 0)).supply s = w₁.supply s := by
      rw [hbk.frame]
      rfl
    rw [hsup, World.supply_eq, World.supply_eq, hmv.availSum rooms_exact, hmv.lockedSum]
    simp only [ofAsset, tradeShare, Arith.exact_rust]
    split <;> split <;> ring

theorem settlementDemo_conserves :
    (settleFillTx .exact demoEnv demoFill settlementDemo).1 = .ok () ∧
    (settleFillTx .exact demoEnv demoFill settlementDemo).2.supply .USDC =
      settlementDemo.supply .USDC ∧
    (settleTradeTx .exact demoEnv 8 settlementDemo).2.supply .ETH = settlementDemo.supply .ETH := by
  have hfill : (settleFillTx .exact demoEnv demoFill settlementDemo).1 = .ok () := by
    decide +kernel
  have htrade : (settleTradeTx .exact demoEnv 8 settlementDemo).1 =
      .ok ⟨8, 2, 3, 3, .USDC, .ETH, 40, 2, 3, 1, .Settled, 0, some 0⟩ := by
    decide +kernel
  refine ⟨hfill, ?_, ?_⟩
  · refine (settlement_conserves_supply settlementDemo demoEnv .USDC).1 demoFill ?_ _
      (Prod.ext hfill rfl)
    intro fill hf
    have hq : fill = Fill.new 7 70 (uuidText 20) 1 2 100 0 := by
      simpa [World.fill, Table.find, settlementDemo, demoFill, Fill.new] using hf.symm
    subst hq
    simp [FeesOk, demoFill, Fill.new]
  · exact (settlement_conserves_supply settlementDemo demoEnv .ETH).2 8 _ _ (Prod.ext htrade rfl)

end IntentX
