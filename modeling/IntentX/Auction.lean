import IntentX.Intents

/-!
# Auction engine and the workers that set an intent's status

`src/engine/auction_engine.rs`, `src/engine/execution_engine.rs`, `update_intent_status` of
`src/settlement/worker.rs`, `check_stop_orders` of `src/workers/stop_order_monitor.rs` and
`finalize_completed` of `src/cross_chain/worker.rs`.  The sleeps are not modelled: between any two
acts of a task another task can run, however long that takes.  Metrics and log lines are left out.
-/

namespace IntentX

open Lib

/-! ## Matching -/

/-- `i64::saturating_sub`. -/
def saturatingSub (x y : Int) : Int := max (-2 ^ 63) (min (2 ^ 63 - 1) (x - y))

/-- `amount_out.saturating_sub(fee)`. -/
def SolverBid.net (b : SolverBid) : Int := saturatingSub b.amountOut b.fee

/-- The order of `sort_bids_by_price`: best net value first, then the earliest. -/
def SolverBid.before (a b : SolverBid) : Prop := b.net < a.net ∨ (a.net = b.net ∧ a.timestamp ≤ b.timestamp)

instance : DecidableRel SolverBid.before := fun a b =>
  inferInstanceAs (Decidable (b.net < a.net ∨ (a.net = b.net ∧ a.timestamp ≤ b.timestamp)))

/-- `sort_by` is stable, as insertion sort is. -/
def sortBidsByPrice (bids : List SolverBid) : List SolverBid := bids.insertionSort SolverBid.before

/-- `filter_bids_for_order_type`. -/
def filterBidsForOrderType (intent : Intent) (bids : List SolverBid) : List SolverBid :=
  match intent.orderType with
  | .Limit => bids.filter fun b => decide (intent.limitPrice.getD 0 ≤ b.net)
  | .Market | .Stop => bids

/-- The loop of `generate_partial_fills`, with `remaining` of the intent still open. -/
def fillLoop (env : Env) (intentId : Uuid) (remaining : Int) : List SolverBid → List Fill
  | [] => []
  | bid :: bids =>
    if remaining ≤ 0 then []
    else
      let fillQty := min remaining bid.net
      if fillQty ≤ 0 then fillLoop env intentId remaining bids
      else
        Fill.new (env.uuid 0) intentId bid.solverId bid.amountOut bid.net fillQty (env.now 0) ::
          fillLoop (env.drop 1) intentId (remaining - fillQty) bids

def generatePartialFills (env : Env) (intent : Intent) (sortedBids : List SolverBid) : List Fill :=
  fillLoop env intent.id intent.amountIn sortedBids

def totalFilled (fills : List Fill) : Int := (fills.map (·.filledQty)).sum

/-- The fills are positive and do not exceed what was open, so no sum of them overflows. -/
theorem totalFilled_fillLoop (env : Env) (intentId : Uuid) (remaining : Int)
    (bids : List SolverBid) :
    (∀ f ∈ fillLoop env intentId remaining bids, 0 < f.filledQty ∧ f.filledQty ≤ f.qty) ∧
      totalFilled (fillLoop env intentId remaining bids) ≤ max 0 remaining := by
  induction bids generalizing env remaining with
  | nil => simp [fillLoop, totalFilled]
  | cons bid bids ih =>
    unfold fillLoop
    split
    · simp [totalFilled]
    · simp only
      split
      · exact ih env remaining
      · next hrem hqty =>
        obtain ⟨hpos, htot⟩ := ih (env.drop 1) (remaining - min remaining bid.net)
        constructor
        · intro f hf
          rcases List.mem_cons.1 hf with rfl | hf
          · exact ⟨by simpa [Fill.new] using hqty, min_le_right _ _⟩
          · exact hpos f hf
        · simp only [totalFilled, List.map_cons, List.sum_cons, Fill.new] at htot ⊢
          omega

/-- Every fill is a new one of the intent. -/
theorem mem_fillLoop {env : Env} {intentId : Uuid} {remaining : Int} {bids : List SolverBid}
    {f : Fill} (hf : f ∈ fillLoop env intentId remaining bids) :
    ∃ id solverId price qty filledQty timestamp,
      f = Fill.new id intentId solverId price qty filledQty timestamp := by
  induction bids generalizing env remaining with
  | nil => cases hf
  | cons bid bids ih =>
    unfold fillLoop at hf
    split at hf
    · cases hf
    · simp only at hf
      split at hf
      · exact ih hf
      · rcases List.mem_cons.1 hf with rfl | hf
        · exact ⟨_, _, _, _, _, _, rfl⟩
        · exact ih hf

theorem fillLoop_unsettled {env : Env} {intentId : Uuid} {remaining : Int} {bids : List SolverBid}
    {f : Fill} (hf : f ∈ fillLoop env intentId remaining bids) : f.settled = false := by
  obtain ⟨_, _, _, _, _, _, rfl⟩ := mem_fillLoop hf
  rfl

/-- The bids an auction is decided on. -/
def World.qualifying (w : World) (intent : Intent) : List SolverBid :=
  filterBidsForOrderType intent (sortBidsByPrice (w.bidsOf intent.id))

/-! ## The auction engine -/

/-- How an error of an act reaches a task that returns `redis::RedisError`. -/
def ActError.text : ActError → String
  | .db e => e.text
  | .intent e => e.text
  | .redis msg => msg

abbrev say (e : Event) : Task String Unit := Call.op (Act.publish e) ActError.text

/-- `Storage::get_bids`. -/
def getBids {E : Type} (intentId : Uuid) : Task E (List SolverBid) := do
  let rows ← trySql (.selectBids intentId)
  return rows.getD []

/-- `let _ = storage.update_intent(&intent)`. -/
def tryStatus {E : Type} (id : Uuid) (status : IntentStatus) : Task E Unit := do
  let _ ← trySql (.setIntentStatus id status)

def insertFills {E : Type} : List Fill → Task E Unit
  | [] => pure ()
  | fill :: fills => do
    let _ ← trySql (.insertFill fill)
    insertFills fills

/-- The event of a match: the best fill's bid. -/
def matchEvent (intent : Intent) (bids : List SolverBid) (fills : List Fill) : Option Event :=
  fills.head?.bind fun best =>
    (bids.find? fun b => b.solverId == best.solverId).map (.IntentMatched intent)

/-- `close_auction` once the qualifying bids are known. -/
def closeWith (env : Env) (intent : Intent) (bids : List SolverBid) : Task String Unit :=
  if bids.isEmpty then do
    -- no unlock goes with this status
    tryStatus intent.id .Failed
    say (.IntentFailed { intent with status := .Failed })
  else do
    let fills := generatePartialFills env intent bids
    let status : IntentStatus :=
      if intent.amountIn ≤ totalFilled fills then .Matched else .PartiallyFilled
    insertFills fills
    tryStatus intent.id status
    match matchEvent { intent with status } bids fills with
    | some e => say e
    | none => pure ()

def closeAuction (env : Env) (intentId : Uuid) : Task String Unit := do
  match ← getIntent intentId with
  | none => pure ()
  | some intent => do
    let allBids ← getBids intentId
    closeWith env intent (filterBidsForOrderType intent (sortBidsByPrice allBids))

def runAuction (env : Env) (intentId : Uuid) : Task String Unit := do
  match ← getIntent intentId with
  | none => pure ()
  | some intent => do
    tryStatus intent.id .Bidding
    say (.IntentBidding { intent with status := .Bidding })
  -- the bids are counted for a gauge
  let _ ← getBids (E := String) intentId
  closeAuction env intentId

/-! ## The execution engine -/

/-- `resolve_account`. -/
def resolveAccount {E : Type} (userId : String) : Task E (Option Uuid) := do
  let row ← trySql (.accountByUserId userId)
  return row.join

/-- One turn of the loop of `execute_fills`. -/
def executeFill (env : Env) (intent : Intent) (buyerAccountId : Uuid) (fill : Fill) :
    Task String Unit := do
  let execution : Execution :=
    { id := env.uuid 1, intentId := intent.id, solverId := fill.solverId,
      txHash := "0x" ++ String.ofList ((uuidText (env.uuid 0)).toList.filter (· ≠ '-')),
      status := .Executing, createdAt := env.now 0 }
  let _ ← trySql (.insertExecution execution)
  say (.ExecutionStarted execution)
  let execution := { execution with status := .Completed }
  let _ ← trySql (.updateExecution execution)
  say (.ExecutionCompleted execution)
  let _ ← trySend (.stream (.executionCompleted
    { executionId := execution.id, fillId := fill.id, intentId := intent.id,
      solverId := fill.solverId, buyerAccountId, sellerAccountId := nilUuid,
      tokenIn := intent.tokenIn, tokenOut := intent.tokenOut }))

def executeLoop (env : Env) (intent : Intent) (buyerAccountId : Uuid) : List Fill → Task String Unit
  | [] => pure ()
  | fill :: fills => do
    executeFill env intent buyerAccountId fill
    executeLoop (env.drop 2) intent buyerAccountId fills

def executeFills (env : Env) (intentId : Uuid) : Task String Unit := do
  let rows ← trySql (.selectFills intentId)
  let fills := rows.getD []
  if fills.isEmpty then pure ()
  else
    match ← getIntent intentId with
    | none => pure ()
    | some intent => do
      let buyer ← resolveAccount intent.userId
      match ← getIntent intentId with
      | none => pure ()
      | some i => tryStatus i.id .Executing
      executeLoop env intent (buyer.getD nilUuid) fills

/-! ## The settlement worker -/

/-- The status `update_intent_status` derives from the settled quantity. -/
def settledStatus (settledQty amountIn : Int) : Option IntentStatus :=
  if amountIn ≤ settledQty then some .Completed
  else if 0 < settledQty then some .PartiallyFilled
  else none

def updateIntentStatus (intentId : Uuid) : Task Empty Unit := do
  let amount ← trySql (.selectIntentAmount intentId)
  match amount.join with
  | none => pure ()
  | some amountIn => do
    -- `unwrap_or(0)`: the sum is `NUMERIC` and never decodes
    let row ← trySql (.settledQty intentId)
    let settledQty := row.getD 0
    match settledStatus settledQty amountIn with
    | none => pure ()
    | some status => do
      tryStatus intentId status
      let _ ← trySend (.stream (.intentSettled ⟨intentId, settledQty, status⟩))

/-! ## Stop orders -/

/-- The trigger condition of a stop order. -/
def Intent.stopHit (i : Intent) (currentPrice : Int) : Bool :=
  if i.stopSide.getD "sell" = "buy" then decide (i.stopPrice.getD 0 ≤ currentPrice)
  else decide (currentPrice ≤ i.stopPrice.getD 0)

/-- What a stop order becomes: a limit order if it has a limit price. -/
def Intent.triggeredType (i : Intent) : OrderType := if i.limitPrice.isSome then .Limit else .Market

/-- A statement on the pool whose error is passed on with `?`. -/
abbrev poolSql (o : Stmt) : Task ActError o.Reply := Call.op (Act.sql o) id

def checkStopLoop (env : Env) : List Intent → Task ActError Unit
  | [] => pure ()
  | intent :: stops => do
    let price ← poolSql (.selectPrice intent.tokenIn intent.tokenOut)
    match price with
    | none => pure ()
    | some currentPrice =>
      Call.doIf (intent.stopHit currentPrice = true) (do
        let rows ← poolSql (.triggerStop intent.id intent.triggeredType (env.now 0))
        Call.doIf (rows ≠ 0) (do
          let triggered := { intent with
            status := .Open, orderType := intent.triggeredType, triggeredAt := some (env.now 1) }
          let _ ← trySend (.publish (.StopTriggered triggered))
          let _ ← trySend (.publish (.IntentCreated triggered))))
    checkStopLoop (env.drop 2) stops

def checkStopOrders (env : Env) : Task ActError Unit := do
  let stops ← poolSql .selectStops
  checkStopLoop env stops

/-! ## Cross-chain completion -/

/-- The loop of `finalize_completed`; answers how many intents were completed. -/
def finalizeLoop : List (Uuid × Uuid) → Task Empty Nat
  | [] => pure 0
  | (_, intentId) :: rows => do
    let r ← trySql (.completeIntent intentId)
    let n ← finalizeLoop rows
    return if 0 < r.getD 0 then n + 1 else n

def finalizeCompleted : Task Empty Nat := do
  let rows ← trySql .selectFinalizable
  finalizeLoop (rows.getD [])

end IntentX
