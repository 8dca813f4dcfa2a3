import IntentX.Conservation
import IntentX.LockAccounting

/-!
# What the buyer receives

An auction pays no attention to `min_amount_out`: it takes the best bids until their net values
cover `amount_in`, and each settled fill pays out the net value of its bid.  What the buyer
is credited is therefore the net value of the winning bids (`closeAuction_out`, `SettleAll.out`), and
the minimum is honoured if and only if they reach it (`minimum_honoured_iff`).

What the buyer is credited is read off its available balance.
-/

namespace IntentX

open Lib

/-! ## The buyer's cell in a settlement -/

/-- The cell that a settlement pays the buyer into. -/
def SettleFillArgs.outCell (p : SettleFillArgs) : Cell := (p.buyerAccountId, p.assetOut)

/-- What a settlement credits to the buyer's cell besides the fill: the proceeds where the buyer is
the seller, and the fees where it is the one who gets them, if both assets are the same. -/
def SettleFillArgs.ownCredits (ar : Arith) (p : SettleFillArgs) (fill : Fill) (w : World) : Int :=
  (if (p.sellerAccountId, p.assetIn) = p.outCell then (fillShares ar p fill).1 else 0) +
    (if (platformAccountId, p.assetIn) = p.outCell then max 0 (fillShares ar p fill).2.1 else 0) +
    (if (w.solverAccount fill.solverId, p.assetIn) = p.outCell then max 0 (fillShares ar p fill).2.2
      else 0)

/-- What a settlement takes out of the buyer's cell, where the buyer is the seller. -/
def SettleFillArgs.handedOver (p : SettleFillArgs) (fill : Fill) : Int :=
  if p.sellerAccountId = p.buyerAccountId then fill.qty else 0

section OutCell

variable {ar : Arith} {w : World} {p : SettleFillArgs} {fill : Fill}

theorem sum_onCell_cons (k k' : Cell) (d : Int) (ms : List Step) :
    (onCell k ((k', d) :: ms)).sum = (if k' = k then d else 0) + (onCell k ms).sum := by
  by_cases hk : k' = k
  · subst hk
    rw [onCell_self, List.sum_cons, if_pos rfl]
  · rw [onCell_ne hk, if_neg hk, zero_add]

theorem sum_onCell_fee (k k' : Cell) (x : Int) (ms : List Step) :
    (onCell k (feeStep k' x ++ ms)).sum = (if k' = k then max 0 x else 0) + (onCell k ms).sum := by
  unfold feeStep
  split
  · rw [max_eq_right (by omega)]
    exact sum_onCell_cons k k' x ms
  · rw [max_eq_left (by omega), ite_self, zero_add]
    rfl

/-- What a settlement adds to the buyer's cell. -/
theorem sum_onCell_fillSteps :
    (onCell p.outCell (fillSteps ar p fill w)).sum + p.handedOver fill =
      fill.qty + p.ownCredits ar fill w := by
  have hgive : (p.sellerAccountId, p.assetOut) = p.outCell ↔ p.sellerAccountId = p.buyerAccountId := by
    simp [SettleFillArgs.outCell]
  have hnil : (onCell p.outCell []).sum = 0 := rfl
  unfold fillSteps SettleFillArgs.ownCredits SettleFillArgs.handedOver
  rw [sum_onCell_cons, sum_onCell_cons, sum_onCell_cons, sum_onCell_fee, sum_onCell_fee, hnil]
  simp only [hgive, show (p.buyerAccountId, p.assetOut) = p.outCell from rfl, if_true]
  -- a buyer that is the seller hands over what it is credited
  by_cases hs : p.sellerAccountId = p.buyerAccountId
  · rw [if_pos hs, if_pos hs]
    ring
  · rw [if_neg hs, if_neg hs]
    ring

end OutCell

/-! ## Winning bids -/

/-- The net values of the winning bids: the bids are taken in order, those without a positive net
value left out, until they cover what remains. -/
def winningNet (remaining : Int) : List Int → Int
  | [] => 0
  | net :: nets =>
    if remaining ≤ 0 then 0
    else if net ≤ 0 then winningNet remaining nets
    else net + winningNet (remaining - net) nets

theorem winningNet_nonpos {remaining : Int} (h : remaining ≤ 0) (nets : List Int) :
    winningNet remaining nets = 0 := by
  cases nets with
  | nil => rfl
  | cons net nets => rw [winningNet, if_pos h]

/-- The fills of an auction carry the net values of the winning bids. -/
theorem qty_fillLoop (env : Env) (id : Uuid) (remaining : Int) (bids : List SolverBid) :
    ((fillLoop env id remaining bids).map (·.qty)).sum = winningNet remaining (bids.map (·.net)) := by
  induction bids generalizing env remaining with
  | nil => rfl
  | cons bid bids ih =>
    rw [List.map_cons, fillLoop, winningNet]
    split
    · rfl
    · next hrem =>
      by_cases hnet : bid.net ≤ 0
      · rw [if_pos hnet, if_pos (by omega)]
        exact ih env remaining
      · rw [if_neg hnet, if_neg (by omega), List.map_cons, List.sum_cons, ih]
        congr 1
        by_cases hle : bid.net ≤ remaining
        · rw [min_eq_right hle]
        · rw [min_eq_left (by omega), sub_self, winningNet_nonpos (le_refl 0),
            winningNet_nonpos (by omega)]

theorem fillLoop_intentId {env : Env} {id : Uuid} {remaining : Int} {bids : List SolverBid} {f : Fill}
    (hf : f ∈ fillLoop env id remaining bids) : f.intentId = id := by
  obtain ⟨_, _, _, _, _, _, rfl⟩ := mem_fillLoop hf
  rfl

/-- The ids of the fills are those drawn, in order. -/
theorem fillLoop_ids (env : Env) (id : Uuid) (remaining : Int) (bids : List SolverBid) :
    (fillLoop env id remaining bids).map (·.id) =
      (List.range (fillLoop env id remaining bids).length).map env.uuid := by
  induction bids generalizing env remaining with
  | nil => rfl
  | cons bid bids ih =>
    rw [fillLoop]
    split
    · rfl
    · simp only
      split
      · exact ih env remaining
      · rw [List.map_cons, List.length_cons, List.range_succ_eq_map, List.map_cons, List.map_map, ih]
        rfl

/-! ## Closing the auction -/

/-- What the unsettled fills of an intent will pay out. -/
def World.unsettledOut (w : World) (id : Uuid) : Int :=
  w.fills.sum fun f => if f.intentId = id ∧ f.settled = false then f.qty else 0

/-- The ids drawn are new: `Uuid::new_v4()`. -/
structure Env.FreshFills (env : Env) (w : World) : Prop where
  distinct : Function.Injective env.uuid
  unused : ∀ n, w.fill (env.uuid n) = none

section Close

variable {ar : Arith} {bus : Bus} {env : Env} {w w' : World} {id : Uuid}

/-- The fills that are generated take ids that no fill has. -/
theorem generated_fresh {i : Intent} (hfresh : env.FreshFills w) (bids : List SolverBid) :
    (∀ fl ∈ generatePartialFills env i bids, w.fill fl.id = none) ∧
      ((generatePartialFills env i bids).map (·.id)).Nodup := by
  set fills := generatePartialFills env i bids
  have hids : fills.map (·.id) = (List.range fills.length).map env.uuid := fillLoop_ids _ _ _ _
  constructor
  · intro fl hfl
    have hmem : fl.id ∈ fills.map (·.id) := List.mem_map_of_mem hfl
    rw [hids] at hmem
    obtain ⟨n, -, hn⟩ := List.mem_map.1 hmem
    rw [← hn]
    exact hfresh.unused n
  · rw [hids]
    exact List.nodup_range.map hfresh.distinct

theorem insertFill_fresh (ar : Arith) (bus : Bus) {f : Fill} (h : w.fill f.id = none) :
    ∃ t, w.fills.insert f = some t ∧
      execAct ar bus (.sql (.insertFill f)) w = (.ok (), { w with fills := t }) := by
  have hsome : (w.fills.insert f).isSome = true :=
    Table.insert_isSome_iff.2 fun r hr => ⟨Table.find_pk_none.1 h r hr, Table.find_pk_none.1 h r hr⟩
  obtain ⟨t, ht⟩ := Option.isSome_iff_exists.1 hsome
  refine ⟨t, ht, ?_⟩
  simp only [execAct, execStmt, ht, inserted]
  rfl

theorem unsettledOut_insert {f : Fill} {t} (ht : w.fills.insert f = some t) (hid : f.intentId = id)
    (hset : f.settled = false) :
    World.unsettledOut { w with fills := t } id = w.unsettledOut id + f.qty := by
  unfold World.unsettledOut
  rw [Table.sum_insert ht, if_pos ⟨hid, hset⟩]

theorem insertFills_out {E : Type} {fills : List Fill} (hnew : ∀ f ∈ fills, w.fill f.id = none)
    (hnodup : (fills.map (·.id)).Nodup) (hf : ∀ f ∈ fills, f.intentId = id ∧ f.settled = false) :
    Call.Ends (execAct ar bus) (fun w' => w'.unsettledOut id = w.unsettledOut id +
      (fills.map (·.qty)).sum) (insertFills fills : Task E Unit) w := by
  induction fills generalizing w with
  | nil => exact Call.ends_pure (by simp)
  | cons f fs ih =>
    rw [List.map_cons, List.nodup_cons] at hnodup
    obtain ⟨t, ht, hexec⟩ := insertFill_fresh ar bus (hnew f List.mem_cons_self)
    have hattempt : Call.exec (execAct ar bus) (trySql (.insertFill f) : Task E _) w =
        (.ok (some ()), { w with fills := t }) := by
      show ((.ok (execAct ar bus (.sql (.insertFill f)) w).1.toOption : Except E _), _) = _
      rw [hexec]
      rfl
    obtain ⟨hid, hset⟩ := hf f List.mem_cons_self
    refine Call.ends_bind_of_exec hattempt ?_
    rw [List.map_cons, List.sum_cons, ← add_assoc, ← unsettledOut_insert ht hid hset]
    refine ih (fun g hg => ?_) hnodup.2 fun g hg => hf g (List.mem_cons_of_mem f hg)
    have hne : g.id ≠ f.id := fun he => hnodup.1 (he ▸ List.mem_map_of_mem hg)
    have hfind : World.fill { w with fills := t } g.id =
        if g.id = f.id then some f else w.fill g.id := Table.find_insert_pk ht g.id
    rw [hfind, if_neg hne]
    exact hnew g (List.mem_cons_of_mem f hg)

/-- **Closing an auction adds the net values of the winning bids.** -/
theorem closeAuction_out {i : Intent} (hi : w.intent id = some i) (hfresh : env.FreshFills w) :
    Call.Ends (execAct ar bus) (fun w' => w'.unsettledOut id =
      w.unsettledOut id + winningNet i.amountIn ((w.qualifying i).map (·.net)))
      (closeAuction env id) w := by
  have hid := (World.intent_some_iff.1 hi).2
  have hbids : Call.exec (execAct ar bus) (getBids id : Task String _) w = (.ok (w.bidsOf id), w) := rfl
  refine Call.ends_bind_of_exec (exec_getIntent id) ?_
  rw [hi]
  refine Call.ends_bind_of_exec hbids ?_
  rw [← hid]
  show Call.Ends _ _ (closeWith env i (w.qualifying i)) w
  set bids := w.qualifying i with hq
  set fills := generatePartialFills env i bids with hgen
  have hsum : (fills.map (·.qty)).sum = winningNet i.amountIn (bids.map (·.net)) :=
    qty_fillLoop env i.id i.amountIn bids
  obtain ⟨hunused, hdistinct⟩ := generated_fresh (i := i) hfresh bids
  have hinsert : Call.Ends (execAct ar bus) (fun w' => w'.unsettledOut i.id = w.unsettledOut i.id +
      (fills.map (·.qty)).sum) (insertFills fills : Task String Unit) w := by
    exact insertFills_out hunused hdistinct fun f hf => ⟨fillLoop_intentId hf, fillLoop_unsettled hf⟩
  rw [hsum] at hinsert
  unfold closeWith
  split
  · next hempty =>
    have hnil : bids = [] := List.isEmpty_iff.1 hempty
    refine Call.ends_bind_of_exec (exec_tryStatus _ _) (Call.ends_op ?_)
    obtain ⟨l, hl⟩ := execAct_publish ar bus (w.setStatus i.id .Failed)
      (.IntentFailed { i with status := .Failed })
    show ((execAct ar bus _ _).2).unsettledOut i.id = _
    rw [hl, hnil]
    simp [World.unsettledOut, World.setStatus, winningNet]
  · refine Call.ends_bind hinsert fun _ w₁ _ hw₁ => Call.ends_bind_of_exec (exec_tryStatus _ _) ?_
    split
    · next e _ =>
      obtain ⟨l, hl⟩ := execAct_publish ar bus (w₁.setStatus i.id
        (if i.amountIn ≤ totalFilled fills then .Matched else .PartiallyFilled)) e
      show ((execAct ar bus _ _).2).unsettledOut i.id = _
      rw [hl]
      exact hw₁
    · exact Call.ends_pure hw₁

end Close

/-! ## Settling the fills -/

/-- Successful calls of `settle_fill` for fills of the intent, all for the same buyer, each with the
fill it settles.  No sum that is stored in the buyer's cell wraps around. -/
inductive SettleAll (ar : Arith) (id buyer : Uuid) (assetOut : Asset) :
    List (SettleFillArgs × Fill) → World → World → Prop
  | done (w) : SettleAll ar id buyer assetOut [] w w
  | next {p f calls w w₁ w'} (env : Env) (hfill : w.fill p.fillId = some f) (hid : f.intentId = id)
      (hbuyer : p.buyerAccountId = buyer) (hasset : p.assetOut = assetOut)
      (hsums : ar.NoWrap (w.avail p.outCell) (onCell p.outCell (fillSteps ar p f w)))
      (hcall : settleFillTx ar env p w = (.ok (), w₁))
      (rest : SettleAll ar id buyer assetOut calls w₁ w') :
      SettleAll ar id buyer assetOut ((p, f) :: calls) w w'

/-- What the settlements credit to the buyer's cell besides the fills. -/
def ownCredits (ar : Arith) (w : World) (calls : List (SettleFillArgs × Fill)) : Int :=
  (calls.map fun c => c.1.ownCredits ar c.2 w).sum

/-- What the settlements take out of the buyer's cell. -/
def handedOver (calls : List (SettleFillArgs × Fill)) : Int :=
  (calls.map fun c => c.1.handedOver c.2).sum

section Settle

variable {ar : Arith} {id buyer : Uuid} {assetOut : Asset} {w w' : World}

theorem World.unsettledOut_markFill {f : Fill} (hf : w.fill id = some f) (hset : f.settled = false)
    (now : Int) :
    (w.markFill id now).unsettledOut f.intentId = w.unsettledOut f.intentId - f.qty := by
  obtain ⟨hmem, rfl⟩ : f ∈ w.fills.rows ∧ f.id = id := Table.find_pk_iff.1 hf
  unfold World.unsettledOut World.markFill
  rw [Table.sum_update_pk hmem]
  simp [hset]
  ring

/-- A settled fill has paid out its quantity, and the solvers' accounts are where they were. -/
theorem settleFill_out {env : Env} {p : SettleFillArgs} {f : Fill} (hfill : w.fill p.fillId = some f)
    (hsums : ar.NoWrap (w.avail p.outCell) (onCell p.outCell (fillSteps ar p f w)))
    (h : settleFillTx ar env p w = (.ok (), w')) :
    w'.avail p.outCell + p.handedOver f = w.avail p.outCell + (f.qty + p.ownCredits ar f w) ∧
      w'.unsettledOut f.intentId = w.unsettledOut f.intentId - f.qty ∧
      w'.solverAccount = w.solverAccount := by
  obtain ⟨f', w₁, w₂, hf', hset, hmv, hbk, rfl⟩ := settleFill_ok (Call.transaction_ok.1 h)
  rw [hfill] at hf'
  cases hf'
  have hfills : w₂.fills = w.fills := by rw [hbk.frame, hmv.frame]
  have hfill₂ : w₂.fill p.fillId = some f := by
    unfold World.fill at hfill ⊢
    rwa [hfills]
  refine ⟨?_, ?_, ?_⟩
  · have hpaid : (w₂.markFill p.fillId (env.now 0)).avail p.outCell = w₁.avail p.outCell := by
      rw [hbk.frame]
      rfl
    rw [hpaid, hmv.avail_of_noWrap hsums, add_assoc, sum_onCell_fillSteps]
  · rw [World.unsettledOut_markFill hfill₂ hset]
    unfold World.unsettledOut
    rw [hfills]
  · show w₂.solverAccount = w.solverAccount
    rw [hbk.frame, hmv.frame]
    rfl

theorem SettleAll.out {calls : List (SettleFillArgs × Fill)}
    (h : SettleAll ar id buyer assetOut calls w w') :
    w'.avail (buyer, assetOut) + handedOver calls + w'.unsettledOut id =
      w.avail (buyer, assetOut) + w.unsettledOut id + ownCredits ar w calls := by
  induction h with
  | done w => simp [ownCredits, handedOver]
  | @next p f calls w w₁ w' env hfill hid hbuyer hasset hsums hcall rest ih =>
    subst hid hbuyer hasset
    obtain ⟨hpaid, hout, hacc⟩ := settleFill_out hfill hsums hcall
    have hown : ownCredits ar w₁ calls = ownCredits ar w calls := by
      unfold ownCredits SettleFillArgs.ownCredits
      rw [hacc]
    rw [hown, hout] at ih
    change w₁.avail (p.buyerAccountId, p.assetOut) + p.handedOver f = _ at hpaid
    change _ = w.avail (p.buyerAccountId, p.assetOut) + _ + _
    simp only [ownCredits, handedOver, List.map_cons, List.sum_cons] at ih ⊢
    change _ = w.avail (p.buyerAccountId, p.assetOut) + _ at hpaid
    omega

theorem World.unsettledOut_settled (h : ∀ f ∈ w.fills.rows, f.intentId = id → f.settled = true) :
    w.unsettledOut id = 0 := by
  unfold World.unsettledOut
  refine Table.sum_eq_zero fun f hf => ?_
  rw [if_neg]
  rintro ⟨hid, hset⟩
  rw [h f hf hid] at hset
  cases hset

end Settle

/-- **The minimum is honoured if and only if the winning bids reach it.**  What the buyer is credited,
which is what its available balance has gained and what was taken out of it meanwhile, is the net
value of the winning bids, with the fills that were open before. -/
theorem minimum_honoured_iff (ar : Arith) (bus : Bus) (env : Env) (w w₁ w₂ : World) (id buyer : Uuid)
    (i : Intent) (assetOut : Asset) (calls : List (SettleFillArgs × Fill)) (r : Except String Unit)
    (hi : w.intent id = some i) (hfresh : env.FreshFills w)
    (hclose : Call.exec (execAct ar bus) (closeAuction env id) w = (r, w₁))
    (hsettle : SettleAll ar id buyer assetOut calls w₁ w₂)
    (hall : ∀ f ∈ w₂.fills.rows, f.intentId = id → f.settled = true) :
    i.minAmountOut ≤ w₂.avail (buyer, assetOut) - w₁.avail (buyer, assetOut) + handedOver calls ↔
      i.minAmountOut ≤ winningNet i.amountIn ((w.qualifying i).map (·.net)) + w.unsettledOut id +
        ownCredits ar w₁ calls := by
  have hout : w₁.unsettledOut id = _ := (closeAuction_out hi hfresh).holds hclose
  have hrun := hsettle.out
  rw [World.unsettledOut_settled hall] at hrun
  constructor <;> intro h <;> omega

/-- The intent is completed: by the settlement worker, or because its cross-chain legs, as they are
by then, are confirmed. -/
def World.Completes (ar : Arith) (bus : Bus) (w : World) (id : Uuid) (legs : List CrossChainLeg) : Prop :=
  ((Call.exec (execAct ar bus) (updateIntentStatus id) w).2.intent id).map (·.status) =
      some .Completed ∨
    ((Call.exec (execAct ar bus) finalizeCompleted { w with crossChainLegs := legs }).2.intent id).map
      (·.status) = some .Completed

/-- A buyer with 100 USDC locked for intent 70, which asks for `minAmountOut` of ETH, and a solver
with 200 ETH, whose bid is worth 150. -/
def minOutputDemo (minAmountOut : UInt64) : World :=
  { World.empty with
    users := [⟨10, "alice"⟩, ⟨20, "solver"⟩]
    accounts := [⟨1, 0⟩, ⟨2, 10⟩, ⟨3, 20⟩]
    balances := ⟨[⟨100, 2, .USDC, 0, 100, 0⟩, ⟨101, 3, .ETH, 200, 0, 0⟩], by decide, by decide⟩
    intents := ⟨[Intent.new 70 (uuidText 10) "USDC" "ETH" 100 minAmountOut 0 0], by simp, by simp⟩
    bids := [⟨80, 70, uuidText 20, 160, 10, 0⟩] }

/-- The settlement of its fill, which gets id 1000. -/
def minOutputSettle : SettleFillArgs := ⟨1000, 2, 3, .USDC, .ETH, fun _ => (10, 0)⟩

def minOutputClosed (minAmountOut : UInt64) : World :=
  (Call.exec (execAct .release upBus) (closeAuction demoEnv 70) (minOutputDemo minAmountOut)).2

def minOutputSettled (minAmountOut : UInt64) : World :=
  (settleFillTx .release demoEnv' minOutputSettle (minOutputClosed minAmountOut)).2

theorem minOutputDemo_closes (minAmountOut : UInt64) :
    Call.exec (execAct .release upBus) (closeAuction demoEnv 70) (minOutputDemo minAmountOut) =
      ((Call.exec (execAct .release upBus) (closeAuction demoEnv 70) (minOutputDemo minAmountOut)).1,
        minOutputClosed minAmountOut) := Prod.mk.eta.symm

theorem minOutputDemo_fresh (minAmountOut : UInt64) : demoEnv.FreshFills (minOutputDemo minAmountOut) :=
  ⟨fun _ _ h => Nat.add_left_cancel h, fun _ => rfl⟩

/-- The fill of the bid. -/
def minOutputFill : Fill := Fill.new 1000 70 (uuidText 20) 160 150 100 0

theorem minOutputDemo_settles {w : World} (hfill : w.fill 1000 = some minOutputFill)
    (hsums : Arith.release.NoWrap (w.avail minOutputSettle.outCell)
      (onCell minOutputSettle.outCell (fillSteps .release minOutputSettle minOutputFill w)))
    (hok : (settleFillTx .release demoEnv' minOutputSettle w).1 = .ok ()) :
    SettleAll .release 70 2 .ETH [(minOutputSettle, minOutputFill)] w
      (settleFillTx .release demoEnv' minOutputSettle w).2 := by
  have hcall : settleFillTx .release demoEnv' minOutputSettle w =
      (.ok (), (settleFillTx .release demoEnv' minOutputSettle w).2) := by
    rw [← hok]
  exact .next demoEnv' hfill rfl rfl rfl hsums hcall (.done _)

/-- 120 ETH are asked for, and 150 credited. -/
theorem demo_minimum_honoured :
    120 ≤ (minOutputSettled 120).avail (2, .ETH) - (minOutputClosed 120).avail (2, .ETH) := by
  have hiff := minimum_honoured_iff .release upBus demoEnv (minOutputDemo 120) (minOutputClosed 120)
    (minOutputSettled 120) 70 2 (Intent.new 70 (uuidText 10) "USDC" "ETH" 100 120 0 0) .ETH
    [(minOutputSettle, minOutputFill)] _ (by decide +kernel) (minOutputDemo_fresh 120)
    (minOutputDemo_closes 120)
    (minOutputDemo_settles (by decide +kernel) (by decide +kernel) (by decide +kernel))
    (by decide +kernel)
  have hmin : (Intent.new 70 (uuidText 10) "USDC" "ETH" 100 120 0 0).minAmountOut = 120 := by
    decide +kernel
  have hown : handedOver [(minOutputSettle, minOutputFill)] = 0 := rfl
  rw [hmin, hown, add_zero] at hiff
  exact hiff.2 (by decide +kernel)

/-- The two legs of the fill, both confirmed. -/
def minOutputLegs : List CrossChainLeg := [⟨90, 70, 1000, 0, .Confirmed⟩, ⟨91, 70, 1000, 1, .Confirmed⟩]

/-- 500 ETH are asked for; the intent is matched, settled and, with both legs of its fill confirmed,
completed, and the buyer has 150. -/
theorem minimum_not_honoured :
    ¬ ∀ (env : Env) (w w₁ w₂ : World) (id buyer : Uuid) (i : Intent) (assetOut : Asset)
      (calls : List (SettleFillArgs × Fill)) (r : Except String Unit) (legs : List CrossChainLeg),
      w.intent id = some i → env.FreshFills w →
      Call.exec (execAct .release upBus) (closeAuction env id) w = (r, w₁) →
      (w₁.intent id).map (·.status) = some .Matched →
      SettleAll .release id buyer assetOut calls w₁ w₂ →
      (∀ f ∈ w₂.fills.rows, f.intentId = id → f.settled = true) →
      w₂.Completes .release upBus id legs →
      i.minAmountOut ≤ w₂.avail (buyer, assetOut) - w₁.avail (buyer, assetOut) + handedOver calls := by
  intro h
  have hbad := h demoEnv (minOutputDemo 500) (minOutputClosed 500) (minOutputSettled 500) 70 2
    (Intent.new 70 (uuidText 10) "USDC" "ETH" 100 500 0 0) .ETH [(minOutputSettle, minOutputFill)] _
    minOutputLegs (by decide +kernel) (minOutputDemo_fresh 500) (minOutputDemo_closes 500)
    (by decide +kernel)
    (minOutputDemo_settles (by decide +kernel) (by decide +kernel) (by decide +kernel))
    (by decide +kernel) (.inr (by decide +kernel))
  revert hbad
  decide +kernel

end IntentX
