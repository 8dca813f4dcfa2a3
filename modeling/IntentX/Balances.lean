import IntentX.Sql

/-!
# Balance and ledger services

`src/balances/{repository,service}.rs` and `src/ledger/{repository,service}.rs`.  Every call is a
program of single SQL statements on the pool: no transaction encloses them and no row is locked,
so each statement is a point where another request can run or where the call can break off.

`Env` supplies what a call draws from outside: the ids of `Uuid::new_v4()` and the readings of
`Utc::now()`, numbered in the order of the source.  Cache invalidation is not modelled: no
function here reads the cache.
-/

namespace IntentX

open Lib

structure Env where
  uuid : Nat → Uuid
  now : Nat → Int

/-- The ids and clock readings from the `n`-th on. -/
def Env.drop (env : Env) (n : Nat) : Env := ⟨fun i => env.uuid (i + n), fun i => env.now (i + n)⟩

/-- `Display` of `sqlx::Error`. -/
def SqlError.text : SqlError → String
  | .uniqueViolation =>
    "error returned from database: duplicate key value violates unique constraint"
  | .foreignKeyViolation =>
    "error returned from database: insert or update on table violates foreign key constraint"
  | .outOfRange => "error returned from database: bigint out of range"
  | .ColumnDecode index => "error occurred while decoding column " ++ toString index ++
    ": mismatched types; Rust type `i64` (as SQL type `INT8`) is not compatible with SQL type `NUMERIC`"
  | .Protocol msg => "encountered unexpected or invalid data: " ++ msg
  | .io => "error communicating with database"

/-! ## LedgerService -/

inductive LedgerError where
  | DbError (e : SqlError)
  deriving DecidableEq, Repr

def LedgerError.text : LedgerError → String
  | .DbError e => "Database error: " ++ e.text

/-- `LedgerService::create_entry`. -/
def createEntry (env : Env) (accountId : Uuid) (asset : Asset) (amount : Int)
    (entryType : EntryType) (referenceType : ReferenceType) (referenceId : Uuid) :
    Sql LedgerError LedgerEntry := do
  let entry : LedgerEntry :=
    { id := env.uuid 0, accountId, asset, amount, entryType, referenceType, referenceId,
      createdAt := env.now 0 }
  query (.insertLedger entry) .DbError
  return entry

/-- `LedgerService::create_double_entry`. -/
def createDoubleEntry (env : Env) (debitAccountId creditAccountId : Uuid) (asset : Asset)
    (amount : Int) (referenceType : ReferenceType) (referenceId : Uuid) :
    Sql LedgerError (LedgerEntry × LedgerEntry) := do
  let debit ← createEntry env debitAccountId asset amount .DEBIT referenceType referenceId
  let credit ←
    createEntry (env.drop 1) creditAccountId asset amount .CREDIT referenceType referenceId
  return (debit, credit)

/-- `LedgerService::get_balance`. -/
def getBalance (accountId : Uuid) (asset : Asset) : Sql LedgerError Int :=
  query (.computeBalance accountId asset) .DbError

/-! ## BalanceRepository -/

/-- `BalanceRepository::find_or_create`. -/
def findOrCreate (env : Env) (accountId : Uuid) (asset : Asset) : Sql SqlError Balance := do
  let existing ← sql (.selectBalance accountId asset)
  match existing with
  | some balance => return balance
  | none =>
    let balance : Balance :=
      { id := env.uuid 0, accountId, asset, availableBalance := 0, lockedBalance := 0,
        updatedAt := env.now 0 }
    sql (.insertBalance balance)
    return balance

/-- `BalanceRepository::update`. -/
def updateRow (balance : Balance) : Sql SqlError Unit :=
  sql (.updateBalance balance)

/-! ## BalanceService -/

inductive BalanceError where
  | InsufficientBalance
  | InsufficientLockedBalance
  | InvalidAmount
  | DbError (e : SqlError)
  | LedgerError (msg : String)
  deriving DecidableEq, Repr

def BalanceError.text : BalanceError → String
  | .InsufficientBalance => "Insufficient available balance"
  | .InsufficientLockedBalance => "Insufficient locked balance"
  | .InvalidAmount => "Amount must be positive"
  | .DbError e => "Database error: " ++ e.text
  | .LedgerError e => "Ledger error: " ++ e

section Service

variable (ar : Arith) (env : Env)

def deposit (accountId : Uuid) (asset : Asset) (amount : Int) : Sql BalanceError Balance := do
  Call.failIf (amount ≤ 0) .InvalidAmount
  let balance ← Call.mapErr .DbError (findOrCreate env accountId asset)
  let balance := { balance with
    availableBalance := ar.rust (balance.availableBalance + amount), updatedAt := env.now 1 }
  Call.mapErr .DbError (updateRow balance)
  let _ ← Call.mapErr (fun e => .LedgerError e.text)
    (createEntry (env.drop 2) accountId asset amount .DEBIT .DEPOSIT (env.uuid 1))
  return balance

def withdraw (accountId : Uuid) (asset : Asset) (amount : Int) : Sql BalanceError Balance := do
  Call.failIf (amount ≤ 0) .InvalidAmount
  let balance ← Call.mapErr .DbError (findOrCreate env accountId asset)
  Call.failIf (balance.availableBalance < amount) .InsufficientBalance
  let balance := { balance with
    availableBalance := ar.rust (balance.availableBalance - amount), updatedAt := env.now 1 }
  Call.mapErr .DbError (updateRow balance)
  let _ ← Call.mapErr (fun e => .LedgerError e.text)
    (createEntry (env.drop 2) accountId asset amount .CREDIT .WITHDRAWAL (env.uuid 1))
  return balance

def lockBalance (accountId : Uuid) (asset : Asset) (amount : Int) : Sql BalanceError Balance := do
  Call.failIf (amount ≤ 0) .InvalidAmount
  let balance ← Call.mapErr .DbError (findOrCreate env accountId asset)
  Call.failIf (balance.availableBalance < amount) .InsufficientBalance
  let balance := { balance with
    availableBalance := ar.rust (balance.availableBalance - amount),
    lockedBalance := ar.rust (balance.lockedBalance + amount), updatedAt := env.now 1 }
  Call.mapErr .DbError (updateRow balance)
  return balance

def unlockBalance (accountId : Uuid) (asset : Asset) (amount : Int) : Sql BalanceError Balance := do
  Call.failIf (amount ≤ 0) .InvalidAmount
  let balance ← Call.mapErr .DbError (findOrCreate env accountId asset)
  Call.failIf (balance.lockedBalance < amount) .InsufficientLockedBalance
  let balance := { balance with
    lockedBalance := ar.rust (balance.lockedBalance - amount),
    availableBalance := ar.rust (balance.availableBalance + amount), updatedAt := env.now 1 }
  Call.mapErr .DbError (updateRow balance)
  return balance

/-- The two rows are read before either is written, also when they are the same row. -/
def transfer (fromAccountId toAccountId : Uuid) (asset : Asset) (amount : Int) :
    Sql BalanceError (Balance × Balance) := do
  Call.failIf (amount ≤ 0) .InvalidAmount
  let fromB ← Call.mapErr .DbError (findOrCreate env fromAccountId asset)
  Call.failIf (fromB.availableBalance < amount) .InsufficientBalance
  let toB ← Call.mapErr .DbError (findOrCreate (env.drop 1) toAccountId asset)
  let now := env.now 2
  let fromB := { fromB with
    availableBalance := ar.rust (fromB.availableBalance - amount), updatedAt := now }
  let toB := { toB with
    availableBalance := ar.rust (toB.availableBalance + amount), updatedAt := now }
  Call.mapErr .DbError (updateRow fromB)
  Call.mapErr .DbError (updateRow toB)
  let _ ← Call.mapErr (fun e => .LedgerError e.text)
    (createDoubleEntry (env.drop 3) fromAccountId toAccountId asset amount .TRADE (env.uuid 2))
  return (fromB, toB)

end Service

/-- The requests of the balance service. -/
inductive BalanceReq where
  | deposit (accountId : Uuid) (asset : Asset) (amount : Int)
  | withdraw (accountId : Uuid) (asset : Asset) (amount : Int)
  | lockBalance (accountId : Uuid) (asset : Asset) (amount : Int)
  | unlockBalance (accountId : Uuid) (asset : Asset) (amount : Int)
  | transfer (fromAccountId toAccountId : Uuid) (asset : Asset) (amount : Int)
  deriving DecidableEq, Repr

/-- The call a request makes; it answers the balances the source returns. -/
def BalanceReq.call (ar : Arith) (env : Env) : BalanceReq → Sql BalanceError (List Balance)
  | .deposit a s x => do return [← IntentX.deposit ar env a s x]
  | .withdraw a s x => do return [← IntentX.withdraw ar env a s x]
  | .lockBalance a s x => do return [← IntentX.lockBalance ar env a s x]
  | .unlockBalance a s x => do return [← IntentX.unlockBalance ar env a s x]
  | .transfer a b s x => do
    let (fromB, toB) ← IntentX.transfer ar env a b s x
    return [fromB, toB]

end IntentX
