import IntentX.Basic

/-!
# The store and its statements

`World` is the database, one field a table, with the events published on Redis.  `Stmt` lists
the SQL statements the modelled functions issue, one constructor a statement text, and
`execStmt` says what each does: what it answers (`Stmt.Reply`), which errors Postgres raises
(`SqlError`) and the tables after it.  A statement is atomic; it either happens or raises.

`SUM` over a `BIGINT` column is `NUMERIC`: it does not overflow, and a query that reads it as an
`i64` fails when its row is decoded (`SqlError.ColumnDecode`).  Where a query has `LIMIT 1` and no
`ORDER BY` the first row in table order is taken; the order of the rows is not constrained.
-/

namespace IntentX

open Lib

/-- The tables, and what has been published on the event bus and on the streams. -/
structure World where
  users : List User
  accounts : List Account
  markets : List Market
  marketPrices : List (Uuid × Int)
  balances : Table Balance Balance.id Balance.key
  ledgerEntries : List LedgerEntry
  trades : Table Trade Trade.id Trade.id
  intents : Table Intent Intent.id Intent.id
  intentAmendments : List IntentAmendment
  bids : List SolverBid
  fills : Table Fill Fill.id Fill.id
  executions : Table Execution Execution.id Execution.id
  crossChainLegs : List CrossChainLeg
  events : List Event
  streams : List StreamEvent

/-- A database with no rows. -/
def World.empty : World where
  users := []
  accounts := []
  markets := []
  marketPrices := []
  balances := .empty
  ledgerEntries := []
  trades := .empty
  intents := .empty
  intentAmendments := []
  bids := []
  fills := .empty
  executions := .empty
  crossChainLegs := []
  events := []
  streams := []

/-- `sqlx::Error`, as far as the code can meet it. -/
inductive SqlError where
  | uniqueViolation
  | foreignKeyViolation
  | outOfRange
  /-- a `NUMERIC` column is read as an `i64` -/
  | ColumnDecode (index : Nat)
  | Protocol (msg : String)
  | io
  deriving DecidableEq, Repr

/-- A result inside an answer; a broken connection is an error of the call. -/
def flatten {E α : Type} (f : SqlError → E) : Except SqlError (Except E α) → Except E α
  | .ok r => r
  | .error e => .error (f e)

/-! ## Queries -/

/-- `SELECT a.id FROM accounts a JOIN users u ON u.id = a.user_id WHERE q u LIMIT 1`. -/
def World.accountWhere (w : World) (q : User → Bool) : Option Uuid :=
  (w.accounts.find? fun a => w.users.any fun u => u.id == a.userId && q u).map (·.id)

/-- `u.id::text = $1`. -/
def World.accountByUserId (w : World) (text : String) : Option Uuid :=
  w.accountWhere fun u => uuidText u.id == text

/-- `u.id::text = $1 OR u.email = $1`. -/
def World.accountByUser (w : World) (text : String) : Option Uuid :=
  w.accountWhere fun u => uuidText u.id == text || u.email == text

def World.balance (w : World) (accountId : Uuid) (asset : Asset) : Option Balance :=
  w.balances.find fun b => b.key = (accountId, asset)

def World.intent (w : World) (id : Uuid) : Option Intent :=
  w.intents.find fun i => i.id = id

def World.fill (w : World) (id : Uuid) : Option Fill :=
  w.fills.find fun f => f.id = id

def World.trade (w : World) (id : Uuid) : Option Trade :=
  w.trades.find fun t => t.id = id

/-- `CASE WHEN entry_type = 'DEBIT' THEN amount ELSE -amount END`. -/
def EntryType.signed : EntryType → Int → Int
  | .DEBIT, amount => amount
  | .CREDIT, amount => -amount

def LedgerEntry.signed (e : LedgerEntry) : Int := e.entryType.signed e.amount

/-- `SUM(CASE WHEN entry_type = 'DEBIT' THEN amount ELSE -amount END)`, 0 for no rows: the sum that
`LedgerRepository::compute_balance` asks for. -/
def World.computeBalance (w : World) (accountId : Uuid) (asset : Asset) : Int :=
  ((w.ledgerEntries.filter fun e => e.accountId == accountId && e.asset == asset).map
    LedgerEntry.signed).sum

/-- `COALESCE(SUM(filled_qty), 0)` over the settled fills of an intent. -/
def World.settledQty (w : World) (intentId : Uuid) : Int :=
  w.fills.sum fun f => if f.intentId = intentId ∧ f.settled then f.filledQty else 0

/-- `SELECT * FROM fills WHERE intent_id = $1 ORDER BY price DESC`. -/
def World.fillsOf (w : World) (intentId : Uuid) : List Fill :=
  (w.fills.rows.filter fun f => f.intentId == intentId).insertionSort fun a b => b.price ≤ a.price

/-- `SELECT * FROM bids WHERE intent_id = $1 ORDER BY timestamp ASC`. -/
def World.bidsOf (w : World) (intentId : Uuid) : List SolverBid :=
  (w.bids.filter fun b => b.intentId == intentId).insertionSort fun a b => a.timestamp ≤ b.timestamp

/-- The pending stop orders, oldest first, at most 100. -/
def World.pendingStops (w : World) : List Intent :=
  ((w.intents.rows.filter fun i => i.orderType == .Stop && i.status == .Open && i.stopPrice.isSome &&
    i.triggeredAt.isNone).insertionSort fun a b => a.createdAt ≤ b.createdAt).take 100

/-- The oracle price of the market `token_in/token_out`. -/
def World.marketPrice (w : World) (tokenIn tokenOut : String) : Option Int :=
  (w.marketPrices.find? fun mp => w.markets.any fun m =>
    m.id == mp.1 && parseAsset tokenIn == some m.baseAsset && parseAsset tokenOut == some m.quoteAsset).map
      (·.2)

/-- The fills both of whose legs are confirmed and whose intent is not completed, at most 50. -/
def World.finalizable (w : World) : List (Uuid × Uuid) :=
  ((w.crossChainLegs.filter fun l =>
    l.legIndex == 0 && l.status == .Confirmed &&
    (w.crossChainLegs.any fun l2 => l2.fillId == l.fillId && l2.legIndex == 1 && l2.status == .Confirmed) &&
    (w.intents.rows.any fun i => i.id == l.intentId && !(i.status == .Completed))).map
      fun l => (l.fillId, l.intentId)).dedup.take 50

/-! ## Statements -/

inductive Stmt where
  /-- `SELECT * FROM balances WHERE account_id = $1 AND asset = $2 [FOR UPDATE]` -/
  | selectBalance (accountId : Uuid) (asset : Asset)
  /-- `INSERT INTO balances …` -/
  | insertBalance (b : Balance)
  /-- `UPDATE balances SET available_balance, locked_balance, updated_at WHERE id` -/
  | updateBalance (b : Balance)
  /-- `UPDATE balances SET available_balance, updated_at WHERE id` -/
  | updateAvailable (b : Balance)
  /-- `SET locked_balance = locked_balance - $1 … AND locked_balance >= $1` -/
  | unlockAndDebit (accountId : Uuid) (asset : Asset) (amount now : Int)
  /-- `SET available_balance = available_balance - $1, locked_balance = locked_balance + $1` -/
  | lockFunds (accountId : Uuid) (asset : Asset) (amount now : Int)
  /-- `SET available_balance = available_balance + $1, locked_balance = locked_balance - $1` -/
  | unlockFunds (accountId : Uuid) (asset : Asset) (amount now : Int)
  /-- `unlockFunds` with `AND locked_balance >= $1` -/
  | unlockFundsIfLocked (accountId : Uuid) (asset : Asset) (amount now : Int)
  | insertLedger (e : LedgerEntry)
  /-- `SELECT COALESCE(SUM(CASE …), 0) FROM ledger_entries WHERE account_id = $1 AND asset = $2` -/
  | computeBalance (accountId : Uuid) (asset : Asset)
  /-- `SELECT * FROM fills WHERE id = $1 FOR UPDATE` -/
  | selectFill (id : Uuid)
  /-- `UPDATE fills SET settled = TRUE, settled_at = $1 WHERE id = $2` -/
  | markFillSettled (id : Uuid) (now : Int)
  | insertFill (f : Fill)
  | selectFills (intentId : Uuid)
  /-- `SELECT COALESCE(SUM(filled_qty), 0) FROM fills WHERE intent_id = $1 AND settled = TRUE` -/
  | settledQty (intentId : Uuid)
  /-- `SELECT * FROM trades WHERE id = $1 FOR UPDATE` -/
  | selectTrade (id : Uuid)
  | markTradeSettled (id : Uuid) (now : Int)
  | accountByUserId (text : String)
  | accountByUser (text : String)
  /-- `SELECT * FROM intents WHERE id = $1 [FOR UPDATE]` -/
  | selectIntent (id : Uuid)
  /-- `SELECT amount_in FROM intents WHERE id = $1` -/
  | selectIntentAmount (id : Uuid)
  | insertIntent (i : Intent)
  /-- `UPDATE intents SET status = $1 WHERE id = $2` -/
  | setIntentStatus (id : Uuid) (status : IntentStatus)
  /-- `UPDATE intents SET amount_in, min_amount_out, limit_price, status = 'open' WHERE id` -/
  | amendIntentRow (id : Uuid) (amountIn minAmountOut : Int) (limitPrice : Option Int)
  | countAmendments (intentId : Uuid)
  | insertAmendment (a : IntentAmendment)
  | selectStops
  | selectPrice (tokenIn tokenOut : String)
  /-- `SET status = 'open', order_type, triggered_at … AND order_type = 'stop' AND triggered_at IS NULL` -/
  | triggerStop (id : Uuid) (orderType : OrderType) (now : Int)
  | selectFinalizable
  /-- `SET status = 'completed' WHERE id = $2 AND status != 'completed'` -/
  | completeIntent (id : Uuid)
  | selectBids (intentId : Uuid)
  | insertExecution (e : Execution)
  | updateExecution (e : Execution)

abbrev Stmt.Reply : Stmt → Type
  | .selectBalance .. => Option Balance
  | .computeBalance .. | .settledQty .. => Int
  | .selectFill .. => Option Fill
  | .selectFills .. => List Fill
  | .selectTrade .. => Option Trade
  | .accountByUserId .. | .accountByUser .. => Option Uuid
  | .selectIntent .. => Option Intent
  | .selectIntentAmount .. => Option Int
  | .selectStops => List Intent
  | .selectPrice .. => Option Int
  | .selectFinalizable => List (Uuid × Uuid)
  | .selectBids .. => List SolverBid
  | .unlockAndDebit .. | .countAmendments .. | .triggerStop .. | .completeIntent .. => Nat
  | _ => Unit

/-- `UPDATE balances SET f WHERE p` with arithmetic in `f`: the statement raises when a new value
does not fit.  Answers `rows_affected`. -/
def World.updateBalances (ar : Arith) (w : World) (p : Balance → Bool) (f : Balance → Balance)
    (hf : ∀ b, (f b).id = b.id ∧ (f b).key = b.key) : Except SqlError Nat × World :=
  if w.balances.rows.all fun b =>
      !p b || (ar.fits (f b).availableBalance && ar.fits (f b).lockedBalance) then
    (.ok (w.balances.affected p), { w with balances := w.balances.update p f hf })
  else (.error .outOfRange, w)

/-- An `INSERT` into a table, with the constraint violation it may raise. -/
def inserted {τ : Type} (w : World) (set : τ → World) : Option τ → Except SqlError Unit × World
  | some t => (.ok (), set t)
  | none => (.error .uniqueViolation, w)

/-- `UPDATE fills SET settled = TRUE, settled_at = $1 WHERE id = $2`. -/
def World.markFill (w : World) (id : Uuid) (now : Int) : World :=
  { w with
    fills := w.fills.update (fun f => f.id = id) (fun f => { f with settled := true, settledAt := some now })
      (fun _ => ⟨rfl, rfl⟩) }

/-- `UPDATE trades SET status = $1, settled_at = $2 WHERE id = $3`. -/
def World.markTrade (w : World) (id : Uuid) (now : Int) : World :=
  { w with
    trades := w.trades.update (fun t => t.id = id)
      (fun t => { t with status := .Settled, settledAt := some now }) (fun _ => ⟨rfl, rfl⟩) }

/-- `UPDATE intents SET status = $1 WHERE id = $2`. -/
def World.setStatus (w : World) (id : Uuid) (st : IntentStatus) : World :=
  { w with
    intents := w.intents.update (fun i => i.id = id) (fun i => { i with status := st })
      (fun _ => ⟨rfl, rfl⟩) }

/-- The row an amendment writes. -/
def Intent.amended (i : Intent) (amountIn minAmountOut : Int) (limitPrice : Option Int) : Intent :=
  { i with amountIn, minAmountOut, limitPrice, status := .Open }

/-- `UPDATE intents SET amount_in, min_amount_out, limit_price, status = 'open' WHERE id`. -/
def World.amendRow (w : World) (id : Uuid) (amountIn minAmountOut : Int) (limitPrice : Option Int) :
    World :=
  { w with
    intents := w.intents.update (fun i => i.id = id) (·.amended amountIn minAmountOut limitPrice)
      (fun _ => ⟨rfl, rfl⟩) }

def execStmt (ar : Arith) : (o : Stmt) → World → Except SqlError o.Reply × World
  | .selectBalance a s, w => (.ok (w.balance a s), w)
  | .insertBalance b, w =>
    -- `account_id UUID NOT NULL REFERENCES accounts(id)`
    if w.accounts.any fun a => a.id == b.accountId then
      inserted w (fun t => { w with balances := t }) (w.balances.insert b)
    else (.error .foreignKeyViolation, w)
  | .updateBalance b, w =>
    (.ok (), { w with
      balances := w.balances.update (fun r => r.id = b.id)
        (fun r => { r with availableBalance := b.availableBalance, lockedBalance := b.lockedBalance,
                           updatedAt := b.updatedAt }) (fun _ => ⟨rfl, rfl⟩) })
  | .updateAvailable b, w =>
    (.ok (), { w with
      balances := w.balances.update (fun r => r.id = b.id)
        (fun r => { r with availableBalance := b.availableBalance, updatedAt := b.updatedAt })
        (fun _ => ⟨rfl, rfl⟩) })
  | .unlockAndDebit a s x now, w =>
    w.updateBalances ar (fun b => decide (b.key = (a, s)) && decide (x ≤ b.lockedBalance))
      (fun b => { b with lockedBalance := b.lockedBalance - x, updatedAt := now })
      (fun _ => ⟨rfl, rfl⟩)
  | .lockFunds a s x now, w =>
    let r := w.updateBalances ar (fun b => decide (b.key = (a, s)))
      (fun b => { b with availableBalance := b.availableBalance - x,
                         lockedBalance := b.lockedBalance + x, updatedAt := now })
      (fun _ => ⟨rfl, rfl⟩)
    (r.1.map fun _ => (), r.2)
  | .unlockFunds a s x now, w =>
    let r := w.updateBalances ar (fun b => decide (b.key = (a, s)))
      (fun b => { b with availableBalance := b.availableBalance + x,
                         lockedBalance := b.lockedBalance - x, updatedAt := now })
      (fun _ => ⟨rfl, rfl⟩)
    (r.1.map fun _ => (), r.2)
  | .unlockFundsIfLocked a s x now, w =>
    let r := w.updateBalances ar (fun b => decide (b.key = (a, s)) && decide (x ≤ b.lockedBalance))
      (fun b => { b with availableBalance := b.availableBalance + x,
                         lockedBalance := b.lockedBalance - x, updatedAt := now })
      (fun _ => ⟨rfl, rfl⟩)
    (r.1.map fun _ => (), r.2)
  | .insertLedger e, w => (.ok (), { w with ledgerEntries := w.ledgerEntries ++ [e] })
  | .computeBalance a s, w =>
    -- `-amount` is still a `BIGINT`, the sum is not
    let entries := w.ledgerEntries.filter fun e => e.accountId == a && e.asset == s
    (.error (if entries.all fun e => ar.fits e.signed then .ColumnDecode 0 else .outOfRange), w)
  | .selectFill id, w => (.ok (w.fill id), w)
  | .markFillSettled id now, w => (.ok (), w.markFill id now)
  | .insertFill f, w => inserted w (fun t => { w with fills := t }) (w.fills.insert f)
  | .selectFills id, w => (.ok (w.fillsOf id), w)
  | .settledQty _, w => (.error (.ColumnDecode 0), w)
  | .selectTrade id, w => (.ok (w.trade id), w)
  | .markTradeSettled id now, w => (.ok (), w.markTrade id now)
  | .accountByUserId u, w => (.ok (w.accountByUserId u), w)
  | .accountByUser u, w => (.ok (w.accountByUser u), w)
  | .selectIntent id, w => (.ok (w.intent id), w)
  | .selectIntentAmount id, w => (.ok ((w.intent id).map (·.amountIn)), w)
  | .insertIntent i, w => inserted w (fun t => { w with intents := t }) (w.intents.insert i)
  | .setIntentStatus id st, w => (.ok (), w.setStatus id st)
  | .amendIntentRow id x y p, w => (.ok (), w.amendRow id x y p)
  | .countAmendments id, w => (.ok (w.intentAmendments.countP fun a => a.intentId == id), w)
  | .insertAmendment a, w => (.ok (), { w with intentAmendments := w.intentAmendments ++ [a] })
  | .selectStops, w => (.ok w.pendingStops, w)
  | .selectPrice x y, w => (.ok (w.marketPrice x y), w)
  | .triggerStop id ty now, w =>
    let p := fun i : Intent => decide (i.id = id) && i.orderType == .Stop && i.triggeredAt.isNone
    (.ok (w.intents.affected p), { w with
      intents := w.intents.update p
        (fun i => { i with status := .Open, orderType := ty, triggeredAt := some now })
        (fun _ => ⟨rfl, rfl⟩) })
  | .selectFinalizable, w => (.ok w.finalizable, w)
  | .completeIntent id, w =>
    let p := fun i : Intent => decide (i.id = id) && !(i.status == .Completed)
    (.ok (w.intents.affected p), { w with
      intents := w.intents.update p (fun i => { i with status := .Completed }) (fun _ => ⟨rfl, rfl⟩) })
  | .selectBids id, w => (.ok (w.bidsOf id), w)
  | .insertExecution e, w => inserted w (fun t => { w with executions := t }) (w.executions.insert e)
  | .updateExecution e, w =>
    (.ok (), { w with
      executions := w.executions.update (fun r => r.id = e.id) (fun r => { r with status := e.status })
        (fun _ => ⟨rfl, rfl⟩) })

/-- A program of SQL statements with an error `E` of its own. -/
abbrev Sql (E α : Type) := Call Stmt Stmt.Reply SqlError E α

/-- A statement whose error is turned into one of the program's own. -/
abbrev query {E : Type} (o : Stmt) (f : SqlError → E) : Sql E o.Reply := Call.op o f

/-- A statement whose error is passed on with `?`. -/
abbrev sql (o : Stmt) : Sql SqlError o.Reply := query o id

end IntentX
