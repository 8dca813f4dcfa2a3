import IntentX.Settlement
import IntentX.Auction

/-!
# Settlement worker and retries

`process_event` of `src/settlement/worker.rs`, all of `src/settlement/retry.rs`, and
`settle_trade_with_retry` of `src/settlement/engine.rs`.

They work on one more table, `failed_settlements`, and call `settle_fill` and `settle_trade`, each
a transaction of its own.  The foreign key of `trade_id` went with the old `trades` table
(`migrations/022_partitioning.sql`), so an entry for a fill can put its own id there.  The columns
that no query reads and the solver statistics are left out.
-/

namespace IntentX

open Lib

/-! ## The table of failed settlements -/

structure FailedSettlement where
  id : Uuid
  tradeId : Uuid
  fillId : Option Uuid
  retryCount : Int
  lastError : String
  nextRetryAt : Int
  permanentlyFailed : Bool
  deriving DecidableEq, Repr

/-- The database with the failed settlements: `id` is the primary key, `trade_id` is unique. -/
structure RetryDb where
  world : World
  failed : Table FailedSettlement FailedSettlement.id FailedSettlement.tradeId

inductive FailedStmt where
  /-- `INSERT … VALUES ($1, $2, NULL, 0, $3, $4) ON CONFLICT (trade_id) DO UPDATE SET last_error,
  next_retry_at` -/
  | upsertTrade (id tradeId : Uuid) (error : String) (nextRetry : Int)
  /-- `INSERT … VALUES ($1, $1, $2, 0, $3, $4) ON CONFLICT DO NOTHING` -/
  | insertFill (id fillId : Uuid) (error : String) (nextRetry : Int)
  /-- `SELECT … WHERE permanently_failed = FALSE AND next_retry_at <= $1 ORDER BY next_retry_at ASC
  LIMIT 50` -/
  | selectDue (now : Int)
  /-- `SELECT f.intent_id, i.token_in, i.token_out FROM fills f JOIN intents i ON i.id = f.intent_id
  WHERE f.id = $1` -/
  | selectContext (fillId : Uuid)
  /-- `SELECT settled FROM fills WHERE id = $1` -/
  | selectSettled (fillId : Uuid)
  /-- `DELETE FROM failed_settlements WHERE id = $1` -/
  | delete (id : Uuid)
  /-- `UPDATE … SET retry_count, last_error, permanently_failed = TRUE WHERE id` -/
  | giveUp (id : Uuid) (retryCount : Int) (error : String)
  /-- `UPDATE … SET retry_count, last_error, next_retry_at WHERE id` -/
  | reschedule (id : Uuid) (retryCount : Int) (error : String) (nextRetry : Int)

abbrev FailedStmt.Reply : FailedStmt → Type
  | .selectDue .. => List FailedSettlement
  | .selectContext .. => Option (Uuid × String × String)
  | .selectSettled .. => Option Bool
  | _ => Unit

namespace RetryDb

variable (db : RetryDb)

/-- The entries a cycle works on. -/
def due (now : Int) : List FailedSettlement :=
  ((db.failed.rows.filter fun e => !e.permanentlyFailed && decide (e.nextRetryAt ≤ now)).insertionSort
    fun a b => a.nextRetryAt ≤ b.nextRetryAt).take 50

/-- The row of the fill joined with the row of its intent. -/
def context (fillId : Uuid) : Option (Uuid × String × String) :=
  (db.world.fill fillId).bind fun f =>
    (db.world.intent f.intentId).map fun i => (f.intentId, i.tokenIn, i.tokenOut)

/-- `INSERT … ON CONFLICT DO NOTHING`. -/
def insertEntry (e : FailedSettlement) : RetryDb :=
  { db with failed := (db.failed.insert e).getD db.failed }

/-- `UPDATE … WHERE id = $1`, of columns other than the keys and the fill. -/
def updateEntry (id : Uuid) (retryCount : Int) (error : String) (nextRetryAt : Option Int)
    (permanentlyFailed : Bool) : RetryDb :=
  { db with
    failed := db.failed.update (fun e => e.id = id)
      (fun e => { e with retryCount, lastError := error, nextRetryAt := nextRetryAt.getD e.nextRetryAt,
                         permanentlyFailed := permanentlyFailed || e.permanentlyFailed })
      (fun _ => ⟨rfl, rfl⟩) }

def deleteEntry (id : Uuid) : RetryDb :=
  { db with failed := db.failed.delete fun e => e.id = id }

/-- `ON CONFLICT (trade_id) DO UPDATE`; a clash of the primary key still raises. -/
def upsertEntry (e : FailedSettlement) : Except SqlError Unit × RetryDb :=
  if db.failed.rows.any fun r => r.tradeId == e.tradeId then
    (.ok (), { db with
      failed := db.failed.update (fun r => r.tradeId = e.tradeId)
        (fun r => { r with lastError := e.lastError, nextRetryAt := e.nextRetryAt })
        (fun _ => ⟨rfl, rfl⟩) })
  else
    match db.failed.insert e with
    | some t => (.ok (), { db with failed := t })
    | none => (.error .uniqueViolation, db)

end RetryDb

def execFailed : (o : FailedStmt) → RetryDb → Except SqlError o.Reply × RetryDb
  | .upsertTrade id tradeId error next, db =>
    db.upsertEntry ⟨id, tradeId, none, 0, error, next, false⟩
  | .insertFill id fillId error next, db =>
    (.ok (), db.insertEntry ⟨id, id, some fillId, 0, error, next, false⟩)
  | .selectDue now, db => (.ok (db.due now), db)
  | .selectContext fillId, db => (.ok (db.context fillId), db)
  | .selectSettled fillId, db => (.ok ((db.world.fill fillId).map (·.settled)), db)
  | .delete id, db => (.ok (), db.deleteEntry id)
  | .giveUp id n error, db => (.ok (), db.updateEntry id n error none true)
  | .reschedule id n error next, db => (.ok (), db.updateEntry id n error (some next) false)

/-! ## What the workers do -/

/-- An act, a statement on the failed settlements, or a settlement. -/
inductive RetryAct where
  | act (o : Act)
  | failed (o : FailedStmt)
  | settleFill (env : Env) (p : SettleFillArgs)
  | settleTrade (env : Env) (tradeId : Uuid)

abbrev RetryAct.Reply : RetryAct → Type
  | .act o => Except ActError o.Reply
  | .failed o => o.Reply
  | .settleFill .. => Except SettlementError Unit
  | .settleTrade .. => Except SettlementError Trade

def execRetry (ar : Arith) (bus : Bus) : (o : RetryAct) → RetryDb → Except SqlError o.Reply × RetryDb
  | .act o, db =>
    let r := execAct ar bus o db.world
    (.ok r.1, { db with world := r.2 })
  | .failed o, db => execFailed o db
  | .settleFill env p, db =>
    let r := settleFillTx ar env p db.world
    (.ok r.1, { db with world := r.2 })
  | .settleTrade env tradeId, db =>
    let r := settleTradeTx ar env tradeId db.world
    (.ok r.1, { db with world := r.2 })

abbrev RetryProg (α : Type) := Prog RetryAct RetryAct.Reply SqlError α

abbrev Retry (E α : Type) := Call RetryAct RetryAct.Reply SqlError E α

/-- A task on the tables of `World`. -/
def liftTask {E α : Type} (p : Task E α) : RetryProg (Except E α) :=
  Prog.embed RetryAct.act (fun _ => flatten .db) p.run

theorem run_liftTask {E α : Type} (ar : Arith) (bus : Bus) (p : Task E α) (db : RetryDb) :
    Prog.run (execRetry ar bus) (liftTask p) db =
      ((Call.exec (execAct ar bus) p db.world).1,
        { db with world := (Call.exec (execAct ar bus) p db.world).2 }) :=
  Prog.run_embed (fun w => { db with world := w }) (fun _ _ => rfl) (fun _ _ => rfl) p.run db.world

/-! ## Recording a failure -/

/-- `MAX_RETRIES`. -/
def maxRetries : Int := 5

def backoffSecs (retryCount : Int) : Int := 10 * 3 ^ retryCount.toNat

example : [0, 1, 2, 3, 4].map backoffSecs = [10, 30, 90, 270, 810] := by decide

def recordFailure (env : Env) (tradeId : Uuid) (error : String) : FailedStmt :=
  .upsertTrade (env.uuid 0) tradeId error (env.now 0 + seconds (backoffSecs 0))

/-- The entry's own id stands in for the trade. -/
def recordFillFailure (env : Env) (fillId : Uuid) (error : String) : FailedStmt :=
  .insertFill (env.uuid 0) fillId error (env.now 0 + seconds (backoffSecs 0))

/-! ## The settlement worker -/

/-- What `process_event` does with the result of `settle_fill`. -/
def onSettled (env : Env) (event : ExecutionCompletedEvent) :
    Except SettlementError Unit → RetryProg Unit
  | .ok () | .error .AlreadySettled => do
    let _ ← liftTask (updateIntentStatus event.intentId)
  | .error e => do
    let _ ← Prog.ask (RetryAct.failed (recordFillFailure env event.fillId e.text))

/-- `process_event`; `fees` stands for the `fee_rate` of the event. -/
def processEvent (env : Env) (fees : Int → Int × Int) (event : ExecutionCompletedEvent) :
    RetryProg Unit :=
  match parseAsset event.tokenIn with
  | none => pure ()
  | some assetIn =>
    match parseAsset event.tokenOut with
    | none => pure ()
    | some assetOut => do
      let answer ← Prog.ask (RetryAct.settleFill env
        { fillId := event.fillId, buyerAccountId := event.buyerAccountId,
          sellerAccountId := event.sellerAccountId, assetIn, assetOut, fees })
      onSettled (env.drop 11) event (flatten .DbError answer)

def settleTradeWithRetry (env : Env) (tradeId : Uuid) : RetryProg (Except SettlementError Trade) := do
  let answer ← Prog.ask (RetryAct.settleTrade env tradeId)
  match flatten .DbError answer with
  | .ok trade => return .ok trade
  | .error .AlreadySettled => return .error .AlreadySettled
  | .error e =>
    let _ ← Prog.ask (RetryAct.failed (recordFailure (env.drop 12) tradeId e.text))
    return .error e

/-! ## The retry worker -/

/-- A statement whose error is passed on with `?`. -/
abbrev failedSql (o : FailedStmt) : Retry SqlError o.Reply := Call.op (RetryAct.failed o) id

def handleRetryFailure (env : Env) (entry : FailedSettlement) (attempt : Int) (errorMsg : String) :
    Retry SqlError Unit :=
  if maxRetries ≤ attempt then failedSql (.giveUp entry.id attempt errorMsg)
  else
    failedSql (.reschedule entry.id attempt errorMsg (env.now 0 + seconds (backoffSecs attempt)))

def retryTrade (env : Env) (entry : FailedSettlement) (attempt : Int) : Retry SqlError Unit := do
  let answer ← ExceptT.lift (Prog.ask (RetryAct.settleTrade env entry.tradeId))
  match flatten .DbError answer with
  | .ok _ | .error .AlreadySettled => failedSql (.delete entry.id)
  | .error e => handleRetryFailure (env.drop 12) entry attempt e.text

/-- The settlement itself is not tried again: the accounts are not known here. -/
def retryFill (env : Env) (entry : FailedSettlement) (fillId : Uuid) (attempt : Int) :
    Retry SqlError Unit := do
  match ← failedSql (.selectContext fillId) with
  | none => failedSql (.delete entry.id)
  | some _ => do
    let row ← failedSql (.selectSettled fillId)
    if row.getD true then failedSql (.delete entry.id)
    else handleRetryFailure env entry attempt "fill retry requires execution context"

/-- One turn of the loop of `process_retries`. -/
def retryEntry (env : Env) (entry : FailedSettlement) : Retry SqlError Unit :=
  match entry.fillId with
  | some fillId => retryFill env entry fillId (entry.retryCount + 1)
  | none => retryTrade env entry (entry.retryCount + 1)

def retryLoop (env : Env) : List FailedSettlement → Retry SqlError Unit
  | [] => pure ()
  | entry :: pending => do
    retryEntry env entry
    retryLoop (env.drop 13) pending

def processRetries (env : Env) : Retry SqlError Unit := do
  let pending ← failedSql (.selectDue (env.now 0))
  retryLoop (env.drop 1) pending

end IntentX
