import IntentX.Auction
import IntentX.Wallet

/-!
# Confirmed payments

The confirmation worker of `src/wallet/confirmation.rs`: what it does with one submitted transaction, down
to the fill and the executions.

An execution is written for a fill, but its row names the intent only.  When the transaction of a fill is
final, every execution of the intent that is not completed yet is completed with its hash, those of the
other fills as well.
-/

namespace IntentX.Confirmation

open Lib OnChain

/-! ## Rows and statements -/

/-- With the columns that are written on confirmation. -/
structure TransactionRow extends TransactionRecord where
  gasUsed : Option Int
  blockNumber : Option Int
  confirmations : Int
  confirmedAt : Option Int
  deriving DecidableEq, Repr

structure Database where
  transactions : Table TransactionRow (·.id) (·.id)
  world : World

inductive Statement
  /-- `… SET status = 'confirmed', block_number = $2, gas_used = $3, confirmations = $4, confirmed_at = $5
  WHERE id = $1` -/
  | updateTxConfirmed (id : Uuid) (blockNumber gasUsed confirmations now : Int)
  /-- `… SET confirmations = $2 WHERE id = $1` -/
  | incrementConfirmations (id : Uuid) (confirmations : Int)
  /-- `… SET status = 'failed', error = $2 WHERE id = $1` -/
  | updateTxFailed (id : Uuid) (error : String)
  /-- `… SET status = 'dropped', error = $2 WHERE id = $1` -/
  | updateTxDropped (id : Uuid) (reason : String)
  /-- `UPDATE fills SET tx_hash = $2 WHERE id = $1 AND tx_hash = ''` -/
  | markFillOnChainSettled (fillId : Uuid) (txHash : String)
  /-- `UPDATE executions SET status = 'completed', tx_hash = $2
  WHERE intent_id = (SELECT intent_id FROM fills WHERE id = $1) AND status != 'completed'` -/
  | updateExecutionStatus (fillId : Uuid) (txHash : String)

def Database.setTransaction (db : Database) (id : Uuid) (f : TransactionRow → TransactionRow)
    (hf : ∀ r, (f r).id = r.id) : Database :=
  { db with transactions := db.transactions.update (fun r => r.id = id) f fun r => ⟨hf r, hf r⟩ }

/-- What is true of the rows of `executions` that the last statement writes; without a fill of the id the
subquery is null. -/
def World.hitBy (w : World) (fillId : Uuid) (e : Execution) : Bool :=
  match w.fill fillId with
  | none => false
  | some fill => e.intentId == fill.intentId && e.status != .Completed

def execStatement : Statement → Database → Database
  | .updateTxConfirmed id blockNumber gasUsed confirmations now, db =>
    db.setTransaction id (fun r =>
      { r with
        status := .Confirmed
        blockNumber := some blockNumber
        gasUsed := some gasUsed
        confirmations
        confirmedAt := some now }) fun _ => rfl
  | .incrementConfirmations id confirmations, db =>
    db.setTransaction id (fun r => { r with confirmations }) fun _ => rfl
  | .updateTxFailed id error, db =>
    db.setTransaction id (fun r => { r with status := .Failed, error := some error }) fun _ => rfl
  | .updateTxDropped id reason, db =>
    db.setTransaction id (fun r => { r with status := .Dropped, error := some reason }) fun _ => rfl
  | .markFillOnChainSettled fillId txHash, db =>
    { db with
      world :=
        { db.world with
          fills := db.world.fills.update (fun f => f.id = fillId ∧ f.txHash = "")
            (fun f => { f with txHash }) fun _ => ⟨rfl, rfl⟩ } }
  | .updateExecutionStatus fillId txHash, db =>
    { db with
      world :=
        { db.world with
          executions := db.world.executions.update (World.hitBy db.world fillId)
            (fun e => { e with status := .Completed, txHash }) fun _ => ⟨rfl, rfl⟩ } }

/-- The database answers the statements it does not fail. -/
def execConfirm (fails : Statement → Option SqlError) : Handler Statement (fun _ => Unit) SqlError Database :=
  fun o db =>
    match fails o with
    | some e => (.error e, db)
    | none => (.ok (), execStatement o db)

/-! ## The worker -/

inductive TxState
  | Confirmed (block : UInt64) (confirmations : UInt32)
  | Failed (reason : String)
  | Pending
  deriving DecidableEq, Repr

inductive TxOutcome
  | Confirmed | Failed | Dropped | Pending | Skipped
  deriving DecidableEq, Repr

/-- What the adapter of a chain says. -/
structure ChainAdapter where
  requiredConfirmations : UInt32
  dropTimeoutSecs : Int
  getTransactionStatus : String → Except ChainError TxState

abbrev Worker (α : Type) := Prog Statement (fun _ => Unit) SqlError α

/-- Its error is logged. -/
def updateExecutionStatus (fillId : Uuid) (txHash : String) : Worker Unit := do
  let _ ← Prog.ask (.updateExecutionStatus fillId txHash)

def postConfirmation (tx : TransactionRow) (txHash : String) : Worker Unit :=
  match tx.fillId with
  | none => return ()
  | some fillId => do
    let _ ← Prog.ask (.markFillOnChainSettled fillId txHash)
    updateExecutionStatus fillId txHash

def handleConfirmed (now : Int) (tx : TransactionRow) (txHash : String) (block : UInt64)
    (confirmations required : UInt32) : Worker TxOutcome :=
  if required ≤ confirmations then do
    let r ← Prog.ask (.updateTxConfirmed tx.id (asI64 block) (tx.gasUsed.getD 0) (asI32 confirmations.toNat) now)
    match r with
    | .error _ => return .Pending
    | .ok _ => do
      postConfirmation tx txHash
      return .Confirmed
  else do
    let _ ← Prog.ask (.incrementConfirmations tx.id (asI32 confirmations.toNat))
    return .Pending

def handleFailed (tx : TransactionRow) (reason : String) : Worker TxOutcome := do
  let _ ← Prog.ask (.updateTxFailed tx.id reason)
  return .Failed

/-- Clock readings are in seconds. -/
def handlePending (now : Int) (tx : TransactionRow) (dropTimeout : Int) : Worker TxOutcome :=
  match tx.submittedAt with
  | none => return .Pending
  | some submitted =>
    let ageSecs := now - submitted
    if ageSecs ≤ dropTimeout then return .Pending
    else do
      let _ ← Prog.ask (.updateTxDropped tx.id
        ("No receipt after " ++ toString ageSecs ++ "s (chain drop timeout: " ++ toString dropTimeout ++ "s)"))
      return .Dropped

def processTx (chains : String → Option ChainAdapter) (now : Int) (tx : TransactionRow) : Worker TxOutcome :=
  if tx.status ≠ .Submitted then return .Skipped
  else
    match tx.txHash, chains tx.chain with
    | none, _ => return .Skipped
    | some _, none => return .Skipped
    | some txHash, some adapter =>
      match adapter.getTransactionStatus txHash with
      | .ok (.Confirmed block confirmations) =>
        handleConfirmed now tx txHash block confirmations adapter.requiredConfirmations
      | .ok (.Failed reason) => handleFailed tx reason
      | .ok .Pending => handlePending now tx adapter.dropTimeoutSecs
      | .error _ => return .Pending

/-! ## What becomes of the executions -/

section Executions

variable {fails : Statement → Option SqlError} {db : Database} {tx : TransactionRow} {txHash : String}
  {fillId : Uuid}

theorem run_ask {α : Type} (o : Statement) (k : Except SqlError Unit → Worker α) :
    Prog.run (execConfirm fails) (Prog.ask o >>= k) db =
      Prog.run (execConfirm fails) (k (execConfirm fails o db).1) (execConfirm fails o db).2 := rfl

theorem execConfirm_ok {o : Statement} (h : fails o = none) :
    execConfirm fails o db = (.ok (), execStatement o db) := by
  unfold execConfirm
  rw [h]

theorem execConfirm_error {o : Statement} {e : SqlError} (h : fails o = some e) :
    execConfirm fails o db = (.error e, db) := by
  unfold execConfirm
  rw [h]

/-- Only the last statement writes executions. -/
theorem executions_execConfirm (o : Statement) (h : ∀ fillId txHash, o ≠ .updateExecutionStatus fillId txHash) :
    (execConfirm fails o db).2.world.executions = db.world.executions := by
  unfold execConfirm
  split
  · rfl
  · cases o with
    | updateExecutionStatus fillId txHash => exact absurd rfl (h fillId txHash)
    | _ => rfl

/-- A statement leaves the intent of a fill as it is. -/
theorem hitBy_execConfirm (o : Statement) (e : Execution) :
    World.hitBy (execConfirm fails o db).2.world fillId e = World.hitBy db.world fillId e := by
  unfold execConfirm
  split
  · rfl
  · cases o with
    | markFillOnChainSettled id txHash =>
      simp only [execStatement, World.hitBy, World.fill, Table.find_update_pk]
      cases db.world.fills.find (fun f => f.id = fillId) with
      | none => rfl
      | some fill =>
        simp only [Option.map_some]
        split <;> rfl
    | _ => rfl

/-- The executions after a payment for a fill is confirmed. -/
def Database.completed (db : Database) (fillId : Uuid) (txHash : String) : Table Execution (·.id) (·.id) :=
  db.world.executions.update (World.hitBy db.world fillId)
    (fun e => { e with status := .Completed, txHash }) fun _ => ⟨rfl, rfl⟩

theorem completed_execConfirm (o : Statement) (h : ∀ fillId txHash, o ≠ .updateExecutionStatus fillId txHash) :
    (execConfirm fails o db).2.completed fillId txHash = db.completed fillId txHash := by
  have hhit : World.hitBy (execConfirm fails o db).2.world fillId = World.hitBy db.world fillId :=
    funext (hitBy_execConfirm o)
  unfold Database.completed
  rw [executions_execConfirm o h, hhit]

theorem executions_updateExecutionStatus :
    (Prog.run (execConfirm fails) (updateExecutionStatus fillId txHash) db).2.world.executions =
      if fails (.updateExecutionStatus fillId txHash) = none then db.completed fillId txHash
      else db.world.executions := by
  show (execConfirm fails (.updateExecutionStatus fillId txHash) db).2.world.executions = _
  cases h : fails (.updateExecutionStatus fillId txHash) with
  | none =>
    rw [execConfirm_ok h, if_pos rfl]
    rfl
  | some e => rw [execConfirm_error h, if_neg (Option.some_ne_none e)]

theorem executions_postConfirmation (hfill : tx.fillId = some fillId) :
    (Prog.run (execConfirm fails) (postConfirmation tx txHash) db).2.world.executions =
      if fails (.updateExecutionStatus fillId txHash) = none then db.completed fillId txHash
      else db.world.executions := by
  have hmark : ∀ id hash, Statement.markFillOnChainSettled fillId txHash ≠ .updateExecutionStatus id hash :=
    nofun
  unfold postConfirmation
  rw [hfill]
  dsimp only
  rw [run_ask, executions_updateExecutionStatus, completed_execConfirm _ hmark, executions_execConfirm _ hmark]

variable {now : Int} {block : UInt64} {confirmations required : UInt32}

theorem executions_handleConfirmed (hfill : tx.fillId = some fillId) (hreq : required ≤ confirmations) :
    (Prog.run (execConfirm fails) (handleConfirmed now tx txHash block confirmations required)
      db).2.world.executions =
      if fails (.updateTxConfirmed tx.id (asI64 block) (tx.gasUsed.getD 0) (asI32 confirmations.toNat) now) = none ∧
        fails (.updateExecutionStatus fillId txHash) = none then db.completed fillId txHash
      else db.world.executions := by
  have hconfirm : ∀ id hash, Statement.updateTxConfirmed tx.id (asI64 block) (tx.gasUsed.getD 0)
      (asI32 confirmations.toNat) now ≠ .updateExecutionStatus id hash := nofun
  unfold handleConfirmed
  rw [if_pos hreq, run_ask]
  cases h : fails (.updateTxConfirmed tx.id (asI64 block) (tx.gasUsed.getD 0) (asI32 confirmations.toNat) now) with
  | some e =>
    rw [execConfirm_error h, if_neg fun hok => Option.some_ne_none e hok.1]
    rfl
  | none =>
    have hok : (execConfirm fails (.updateTxConfirmed tx.id (asI64 block) (tx.gasUsed.getD 0)
        (asI32 confirmations.toNat) now) db).1 = .ok () := by rw [execConfirm_ok h]
    rw [hok]
    show (Prog.run (execConfirm fails) (postConfirmation tx txHash >>= fun _ => pure TxOutcome.Confirmed)
      _).2.world.executions = _
    rw [Prog.run_bind]
    show (Prog.run (execConfirm fails) (postConfirmation tx txHash) _).2.world.executions = _
    rw [executions_postConfirmation hfill, completed_execConfirm _ hconfirm, executions_execConfirm _ hconfirm]
    simp only [true_and]

/-- An execution of another fill is left as it is. -/
def OthersKept (fillOf : Uuid → Uuid) (fillId : Uuid) (db db' : Database) : Prop :=
  ∀ e ∈ db.world.executions.rows, fillOf e.id ≠ fillId → e ∈ db'.world.executions.rows

theorem othersKept_completed_iff (fillOf : Uuid → Uuid) {db' : Database}
    (h : db'.world.executions = db.completed fillId txHash) :
    OthersKept fillOf fillId db db' ↔ ∀ fill, db.world.fill fillId = some fill →
      ∀ e ∈ db.world.executions.rows, e.intentId = fill.intentId → fillOf e.id ≠ fillId →
        e.status = .Completed := by
  have hkept : ∀ e ∈ db.world.executions.rows, (e ∈ db'.world.executions.rows ↔
      World.hitBy db.world fillId e = false) := by
    intro e he
    rw [h, Database.completed, Table.mem_update_self_iff he]
    constructor
    · intro hfix
      by_contra hhit
      rw [Bool.not_eq_false] at hhit
      have hstatus : e.status = .Completed := congrArg Execution.status (hfix hhit).symm
      unfold World.hitBy at hhit
      split at hhit
      · cases hhit
      · simp [hstatus] at hhit
    · intro hhit hhit'
      rw [hhit] at hhit'
      cases hhit'
  constructor
  · intro hothers fill hfill e he hintent hother
    have hhit := (hkept e he).1 (hothers e he hother)
    unfold World.hitBy at hhit
    rw [hfill] at hhit
    simpa [hintent] using hhit
  · intro hcompleted e he hother
    rw [hkept e he]
    unfold World.hitBy
    cases hfill : db.world.fill fillId with
    | none => rfl
    | some fill =>
      by_cases hintent : e.intentId = fill.intentId
      · simp [hcompleted fill hfill e he hintent hother]
      · simp [hintent]

/-- Whatever executions belong to which fills: confirming the payment of a fill leaves the executions of the
other fills alone if and only if those of its intent are completed already, or the database fails. -/
theorem othersKept_iff (fails : Statement → Option SqlError) (fillOf : Uuid → Uuid) (db : Database)
    (tx : TransactionRow) (txHash : String) (fillId : Uuid) (now : Int) (block : UInt64)
    (confirmations required : UInt32) (hfill : tx.fillId = some fillId) (hreq : required ≤ confirmations) :
    OthersKept fillOf fillId db (Prog.run (execConfirm fails)
        (handleConfirmed now tx txHash block confirmations required) db).2 ↔
      fails (.updateTxConfirmed tx.id (asI64 block) (tx.gasUsed.getD 0) (asI32 confirmations.toNat) now) ≠ none ∨
      fails (.updateExecutionStatus fillId txHash) ≠ none ∨
      ∀ fill, db.world.fill fillId = some fill → ∀ e ∈ db.world.executions.rows,
        e.intentId = fill.intentId → fillOf e.id ≠ fillId → e.status = .Completed := by
  have h : (Prog.run (execConfirm fails) (handleConfirmed now tx txHash block confirmations required)
      db).2.world.executions = _ := executions_handleConfirmed hfill hreq
  by_cases hok : fails (.updateTxConfirmed tx.id (asI64 block) (tx.gasUsed.getD 0)
      (asI32 confirmations.toNat) now) = none ∧ fails (.updateExecutionStatus fillId txHash) = none
  · rw [if_pos hok] at h
    rw [othersKept_completed_iff fillOf h, or_iff_right (not_not.2 hok.1), or_iff_right (not_not.2 hok.2)]
  · rw [if_neg hok] at h
    have hfail := not_and_or.1 hok
    constructor
    · intro _
      exact hfail.imp_right .inl
    · intro _ e he _
      rw [h]
      exact he

/-! ### Two fills of one intent -/

/-- The row of a payment of 100 that node and database have as submitted. -/
def demoTransaction : TransactionRow where
  id := 50
  fillId := some 10
  fromAddress := "0x01"
  toAddress := "0x02"
  chain := "ethereum"
  txHash := some "0xaa"
  amount := 100
  asset := "USDC"
  status := .Submitted
  gasPrice := some 1
  error := none
  submittedAt := some 1000
  createdAt := 990
  gasUsed := none
  blockNumber := none
  confirmations := 0
  confirmedAt := none

/-- `execute_fills` has completed the execution of the first fill; the second has come this far. -/
def demoDatabase (second : ExecutionStatus) : Database where
  transactions := ⟨[demoTransaction], by decide, by decide⟩
  world :=
    { World.empty with
      fills := ⟨[Fill.new 10 1 "a" 100 100 100 900, Fill.new 11 1 "b" 200 200 200 900], by decide, by decide⟩
      executions := ⟨[⟨20, 1, "a", "0x20", .Completed, 910⟩, ⟨21, 1, "b", "0x21", second, 912⟩],
        by simp, by simp⟩ }

/-- Execution 20 is of fill 10, and 21 of fill 11. -/
def demoFillOf (execution : Uuid) : Uuid := execution - 10

/-- The second execution is completed by the payment of the first fill. -/
theorem othersKept_executing : ¬ OthersKept demoFillOf 10 (demoDatabase .Executing)
    (Prog.run (execConfirm fun _ => none) (handleConfirmed 2000 demoTransaction "0xaa" 7 12 12)
      (demoDatabase .Executing)).2 := by
  intro h
  exact absurd (h ⟨21, 1, "b", "0x21", .Executing, 912⟩ (by decide) (by decide)) (by decide)

theorem othersKept_completed : OthersKept demoFillOf 10 (demoDatabase .Completed)
    (Prog.run (execConfirm fun _ => none) (handleConfirmed 2000 demoTransaction "0xaa" 7 12 12)
      (demoDatabase .Completed)).2 :=
  (othersKept_iff _ demoFillOf _ demoTransaction "0xaa" 10 2000 7 12 12 rfl (by decide)).2
    (.inr (.inr fun fill _ e he _ hother => by
      simp [demoDatabase] at he
      rcases he with rfl | rfl
      · rfl
      · rfl))

end Executions

end IntentX.Confirmation
