import IntentX.Balances

/-!
# Settlement engine

`src/settlement/engine.rs`.  The bodies of `settle_fill` and `settle_trade` between `begin` and
`commit` are programs of statements; run alone, a body that returns an error is rolled back
(`Call.transaction`).

The fees of a fill come out of `f64` arithmetic on its `filled_qty`; here they are a function
`fees` from the filled quantity to the pair `(total_fee, solver_fee)`.  The solver statistics
updated after the commit are another table and are left out.
-/

namespace IntentX

open Lib

inductive SettlementError where
  | TradeNotFound
  | FillNotFound
  | AlreadySettled
  | InsufficientBalance
  | FeeError (msg : String)
  | ChainError (msg : String)
  | UnsupportedChain (chain : String)
  | DbError (e : SqlError)
  deriving DecidableEq, Repr

def SettlementError.text : SettlementError → String
  | .TradeNotFound => "Trade not found"
  | .FillNotFound => "Fill not found"
  | .AlreadySettled => "Already settled"
  | .InsufficientBalance => "Insufficient balance"
  | .FeeError e => "Fee error: " ++ e
  | .ChainError e => "Chain error: " ++ e
  | .UnsupportedChain c => "Unsupported chain: " ++ c
  | .DbError e => "Database error: " ++ e.text

/-! ## Transaction helpers -/

def unlockAndDebit (accountId : Uuid) (asset : Asset) (amount now : Int) :
    Sql SettlementError Unit := do
  let rowsAffected ← query (.unlockAndDebit accountId asset amount now) .DbError
  Call.failIf (rowsAffected = 0) .InsufficientBalance

/-- `find_or_create_balance`; `id` is the id of a new row. -/
def findOrCreateBalance (id accountId : Uuid) (asset : Asset) (now : Int) : Sql SqlError Balance := do
  let existing ← sql (.selectBalance accountId asset)
  match existing with
  | some b => return b
  | none =>
    let b : Balance :=
      { id, accountId, asset, availableBalance := 0, lockedBalance := 0, updatedAt := now }
    sql (.insertBalance b)
    return b

def debitBalance (ar : Arith) (id accountId : Uuid) (asset : Asset) (amount now : Int) :
    Sql SqlError Unit := do
  let b ← findOrCreateBalance id accountId asset now
  Call.failIf (b.availableBalance < amount) (.Protocol "Insufficient balance")
  sql (.updateAvailable { b with
    availableBalance := ar.rust (b.availableBalance - amount), updatedAt := now })

def creditBalance (ar : Arith) (id accountId : Uuid) (asset : Asset) (amount now : Int) :
    Sql SqlError Unit := do
  let b ← findOrCreateBalance id accountId asset now
  sql (.updateAvailable { b with
    availableBalance := ar.rust (b.availableBalance + amount), updatedAt := now })

def insertLedger (id accountId : Uuid) (asset : Asset) (amount : Int) (entryType : EntryType)
    (referenceType : ReferenceType) (referenceId : Uuid) (now : Int) : Sql SqlError Unit :=
  sql (.insertLedger
    { id, accountId, asset, amount, entryType, referenceType, referenceId, createdAt := now })

/-! ## Settling a fill -/

/-- The arguments of `settle_fill`, with the fee computation in place of `fee_rate`. -/
structure SettleFillArgs where
  fillId : Uuid
  buyerAccountId : Uuid
  sellerAccountId : Uuid
  assetIn : Asset
  assetOut : Asset
  /-- `(total_fee, solver_fee)` of a filled quantity -/
  fees : Int → Int × Int

section Bodies

variable (ar : Arith) (env : Env)

/-- The transaction body once the fill row is locked and found unsettled. -/
def settleLocked (p : SettleFillArgs) (fill : Fill) : Sql SettlementError Unit := do
  let now := env.now 0
  let amount := fill.filledQty
  let totalFee := (p.fees amount).1
  let solverFee := (p.fees amount).2
  let platformFee := ar.rust (totalFee - solverFee)
  let sellerReceives := ar.rust (amount - totalFee)
  -- 1. Unlock the buyer's locked funds and consume them
  unlockAndDebit p.buyerAccountId p.assetIn amount now
  -- 2. Credit the seller, minus fees
  Call.mapErr .DbError
    (creditBalance ar (env.uuid 0) p.sellerAccountId p.assetIn sellerReceives now)
  -- 3. Credit the buyer with the received asset
  Call.mapErr .DbError
    (creditBalance ar (env.uuid 1) p.buyerAccountId p.assetOut fill.qty now)
  -- 4. Debit the seller's outgoing asset
  Call.mapErr (fun _ => .InsufficientBalance)
    (debitBalance ar (env.uuid 2) p.sellerAccountId p.assetOut fill.qty now)
  -- 5. Platform fee
  Call.doIf (0 < platformFee) (Call.mapErr .DbError
    (creditBalance ar (env.uuid 3) platformAccountId p.assetIn platformFee now))
  -- 6. Solver fee, to the solver's account or else to the platform
  Call.doIf (0 < solverFee) (do
    let solverAcc ← query (.accountByUserId fill.solverId) .DbError
    Call.mapErr .DbError
      (creditBalance ar (env.uuid 4) (solverAcc.getD platformAccountId) p.assetIn solverFee now))
  Call.mapErr .DbError (insertLedger (env.uuid 5) p.buyerAccountId p.assetIn amount
    .CREDIT .TRADE fill.id now)
  Call.mapErr .DbError (insertLedger (env.uuid 6) p.buyerAccountId p.assetOut fill.qty
    .DEBIT .TRADE fill.id now)
  Call.mapErr .DbError (insertLedger (env.uuid 7) p.sellerAccountId p.assetIn sellerReceives
    .DEBIT .TRADE fill.id now)
  Call.mapErr .DbError (insertLedger (env.uuid 8) p.sellerAccountId p.assetOut fill.qty
    .CREDIT .TRADE fill.id now)
  Call.doIf (0 < platformFee) (Call.mapErr .DbError
    (insertLedger (env.uuid 9) platformAccountId p.assetIn platformFee .DEBIT .FEE fill.id now))
  -- the solver's fee is booked on the platform account
  Call.doIf (0 < solverFee) (Call.mapErr .DbError
    (insertLedger (env.uuid 10) platformAccountId p.assetIn solverFee .DEBIT .FEE fill.id now))
  query (.markFillSettled p.fillId now) .DbError

/-- `settle_fill` between `begin` and `commit`. -/
def settleFill (p : SettleFillArgs) : Sql SettlementError Unit := do
  let row ← query (.selectFill p.fillId) .DbError
  let fill ← Call.orThrow row .FillNotFound
  Call.failIf (fill.settled = true) .AlreadySettled
  settleLocked ar env p fill

/-! ## Settling a trade -/

/-- `settle_trade` between `begin` and `commit`. -/
def settleTrade (tradeId : Uuid) : Sql SettlementError Trade := do
  let row ← query (.selectTrade tradeId) .DbError
  let trade ← Call.orThrow row .TradeNotFound
  Call.failIf (trade.status = .Settled) .AlreadySettled
  let now := env.now 0
  Call.mapErr (fun _ => .InsufficientBalance)
    (debitBalance ar (env.uuid 0) trade.buyerAccountId trade.assetIn trade.amountIn now)
  let sellerReceives := ar.rust (ar.rust (trade.amountIn - trade.platformFee) - trade.solverFee)
  Call.mapErr .DbError
    (creditBalance ar (env.uuid 1) trade.sellerAccountId trade.assetIn sellerReceives now)
  Call.mapErr .DbError
    (creditBalance ar (env.uuid 2) trade.buyerAccountId trade.assetOut trade.amountOut now)
  Call.mapErr (fun _ => .InsufficientBalance)
    (debitBalance ar (env.uuid 3) trade.sellerAccountId trade.assetOut trade.amountOut now)
  Call.mapErr .DbError
    (creditBalance ar (env.uuid 4) platformAccountId trade.assetIn trade.platformFee now)
  Call.mapErr .DbError
    (creditBalance ar (env.uuid 5) trade.solverAccountId trade.assetIn trade.solverFee now)
  Call.mapErr .DbError (insertLedger (env.uuid 6) trade.buyerAccountId trade.assetIn trade.amountIn
    .CREDIT .TRADE trade.id now)
  Call.mapErr .DbError (insertLedger (env.uuid 7) trade.buyerAccountId trade.assetOut trade.amountOut
    .DEBIT .TRADE trade.id now)
  Call.mapErr .DbError (insertLedger (env.uuid 8) trade.sellerAccountId trade.assetIn sellerReceives
    .DEBIT .TRADE trade.id now)
  Call.mapErr .DbError (insertLedger (env.uuid 9) trade.sellerAccountId trade.assetOut trade.amountOut
    .CREDIT .TRADE trade.id now)
  Call.mapErr .DbError (insertLedger (env.uuid 10) platformAccountId trade.assetIn trade.platformFee
    .DEBIT .FEE trade.id now)
  Call.mapErr .DbError (insertLedger (env.uuid 11) trade.solverAccountId trade.assetIn trade.solverFee
    .DEBIT .FEE trade.id now)
  query (.markTradeSettled trade.id now) .DbError
  return { trade with status := .Settled, settledAt := some now }

end Bodies

/-- `settle_fill` run alone. -/
def settleFillTx (ar : Arith) (env : Env) (p : SettleFillArgs) (w : World) :
    Except SettlementError Unit × World :=
  Call.transaction (execStmt ar) (settleFill ar env p) w

/-- `settle_trade` run alone. -/
def settleTradeTx (ar : Arith) (env : Env) (tradeId : Uuid) (w : World) :
    Except SettlementError Trade × World :=
  Call.transaction (execStmt ar) (settleTrade ar env tradeId) w

end IntentX
