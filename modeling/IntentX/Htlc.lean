import IntentX.Balances

/-!
# HTLC swaps

`src/cross_chain/htlc/{model,crypto,service,worker}.rs` and what they use of
`src/cross_chain/{bridge,bridge_registry}.rs`.

`HtlcDb` is the `htlc_swaps` table, with the clock and the bridge calls that went through.  What
another task can come between is an `HtlcAct`: a statement, a reading of the clock or a call of a
bridge.  A `Turn` is what the surroundings decide at an act: how much time passes after it, whether
the database serves the statement, and what a bridge answers.  SHA-256 is an arbitrary function.

A bridge call carries the id of the swap it is made for; the bridge does not see it.  Metrics and
log lines are left out, and so is the adapter's name, which only they use.
-/

namespace IntentX

open Lib

abbrev Bytes := List UInt8

/-! ## Secrets -/

/-- `[u8; 32]`. -/
abbrev Secret := { b : Bytes // b.length = 32 }

abbrev SecretHash := { b : Bytes // b.length = 32 }

/-- `Vec<u8>::try_into::<[u8; 32]>()`. -/
def toSecret (b : Bytes) : Option Secret := if h : b.length = 32 then some ⟨b, h⟩ else none

theorem toSecret_some {b : Bytes} {s : Secret} (h : toSecret b = some s) : s.1 = b := by
  unfold toSecret at h
  split at h
  · cases h
    rfl
  · cases h

@[simp] theorem toSecret_val (s : Secret) : toSecret s.1 = some s := by
  unfold toSecret
  rw [dif_pos s.2]

def toHex (b : Bytes) : String :=
  String.ofList (b.flatMap fun x => [hexDigit (x.toNat / 16), hexDigit (x.toNat % 16)])

def verifySecret (sha256 : Secret → SecretHash) (secret : Secret) (expectedHash : SecretHash) : Bool :=
  sha256 secret == expectedHash

/-! ## Rows -/

inductive HtlcStatus where
  | Created | SourceLocked | DestClaimed | SourceUnlocked | Refunded | Expired | Failed
  deriving DecidableEq, Repr

def HtlcStatus.isTerminal : HtlcStatus → Bool
  | .SourceUnlocked | .Refunded | .Expired | .Failed => true
  | _ => false

structure HtlcSwap where
  id : Uuid
  fillId : Uuid
  intentId : Uuid
  secretHash : Bytes
  secret : Option Bytes
  sourceChain : String
  sourceSender : String
  sourceReceiver : String
  sourceToken : Option String
  sourceAmount : Int
  sourceLockTx : Option String
  sourceUnlockTx : Option String
  sourceTimelock : Int
  destChain : String
  destSender : String
  destReceiver : String
  destToken : Option String
  destAmount : Int
  destLockTx : Option String
  destClaimTx : Option String
  status : HtlcStatus
  solverId : String
  error : Option String
  createdAt : Int
  lockedAt : Option Int
  claimedAt : Option Int
  completedAt : Option Int
  deriving DecidableEq, Repr

structure CreateHtlcParams where
  fillId : Uuid
  intentId : Uuid
  solverId : String
  sourceChain : String
  sourceSender : String
  sourceReceiver : String
  sourceToken : Option String
  sourceAmount : Int
  destChain : String
  destSender : String
  destReceiver : String
  destToken : Option String
  destAmount : Int
  timelockSecs : Int

/-! ## Bridges -/

structure LockReceipt where
  txHash : String
  messageId : String
  estimatedFinalitySecs : UInt64
  deriving DecidableEq, Repr

inductive BridgeStatus where
  | Pending
  | InTransit (messageId : String)
  | Completed (destTxHash : String)
  | Failed (reason : String)
  deriving DecidableEq, Repr

structure BridgeTransferParams where
  sourceChain : String
  destChain : String
  token : String
  amount : UInt64
  sender : String
  recipient : String
  deriving DecidableEq, Repr

inductive BridgeError where
  | UnsupportedRoute (route : String)
  | LockFailed (e : String)
  | VerificationFailed (e : String)
  | ReleaseFailed (e : String)
  | NetworkError (e : String)
  | Other (e : String)
  deriving DecidableEq, Repr

def BridgeError.text : BridgeError → String
  | .UnsupportedRoute r => "Unsupported route: " ++ r
  | .LockFailed e => "Lock failed: " ++ e
  | .VerificationFailed e => "Verification failed: " ++ e
  | .ReleaseFailed e => "Release failed: " ++ e
  | .NetworkError e => "Network error: " ++ e
  | .Other e => "Bridge error: " ++ e

/-- The registered adapters, by the routes they support. -/
abbrev BridgeRegistry := List (String → String → Bool)

/-- `BridgeRegistry::find`: the number of the first adapter that supports the route. -/
def BridgeRegistry.find (bridges : BridgeRegistry) (sourceChain destChain : String) :
    Except BridgeError Nat :=
  match bridges.findIdx? fun supportsRoute => supportsRoute sourceChain destChain with
  | some b => .ok b
  | none => .error (.UnsupportedRoute (sourceChain ++ " -> " ++ destChain))

/-- The funds a release is about. -/
inductive Side where
  | source | dest
  deriving DecidableEq, Repr

/-- A bridge call that returned `Ok`, with the swap it was made for. -/
inductive Effect where
  | locked (swapId : Uuid) (params : BridgeTransferParams) (tx : String)
  | released (side : Side) (swapId : Uuid) (params : BridgeTransferParams) (messageId tx : String)
  deriving DecidableEq, Repr

/-! ## The store and its statements -/

structure HtlcDb where
  /-- the ids in `intents` -/
  intents : List Uuid
  /-- `PRIMARY KEY (id)`, `UNIQUE (fill_id)` -/
  swaps : Table HtlcSwap HtlcSwap.id HtlcSwap.fillId
  clock : Int
  effects : List Effect

def HtlcDb.swap (db : HtlcDb) (id : Uuid) : Option HtlcSwap := db.swaps.find fun s => s.id = id

/-- `a ASC`, nulls last. -/
def nullsLast : Option Int → Option Int → Bool
  | some x, some y => decide (x ≤ y)
  | _, none => true
  | none, some _ => false

/-- `SELECT * FROM htlc_swaps WHERE p ORDER BY … LIMIT 50`. -/
def HtlcDb.select (db : HtlcDb) (p : HtlcSwap → Bool) (key : HtlcSwap → Option Int) : List HtlcSwap :=
  ((db.swaps.rows.filter p).insertionSort fun a b => nullsLast (key a) (key b) = true).take 50

/-- The `WHERE` clause of `find_pending_unlocks`. -/
def HtlcSwap.pendingUnlock (s : HtlcSwap) : Bool := s.status == .DestClaimed && s.secret.isSome

inductive HtlcStmt where
  | insertSwap (s : HtlcSwap)
  | selectSwap (id : Uuid)
  /-- `SET secret = $2 WHERE id = $1 AND status = 'created'` -/
  | setSecret (id : Uuid) (secret : Bytes)
  /-- `SET status = 'source_locked', source_lock_tx, locked_at … AND status = 'created'` -/
  | setSourceLocked (id : Uuid) (lockTx : String)
  /-- `SET dest_lock_tx = $2 … AND status = 'source_locked'` -/
  | setDestLock (id : Uuid) (destLockTx : String)
  /-- `SET status = 'dest_claimed', secret, dest_claim_tx, claimed_at … AND status = 'source_locked'` -/
  | setDestClaimed (id : Uuid) (secret : Bytes) (claimTx : String)
  /-- the same without the secret -/
  | setDestClaimedOnly (id : Uuid) (claimTx : String)
  /-- `SET status = 'source_unlocked', source_unlock_tx, completed_at … AND status = 'dest_claimed'` -/
  | setSourceUnlocked (id : Uuid) (unlockTx : String)
  /-- `SET status = 'refunded', completed_at … AND status IN ('created', 'source_locked')` -/
  | setRefunded (id : Uuid)
  /-- `SET status = 'failed', error, completed_at … AND status NOT IN ('source_unlocked', 'refunded')` -/
  | setFailed (id : Uuid) (error : String)
  | selectPendingLocks (now : Int)
  | selectAwaitingDestLock
  | selectClaimable
  | selectPendingUnlocks
  | selectExpired (now : Int)

abbrev HtlcStmt.Reply : HtlcStmt → Type
  | .insertSwap _ => Unit
  | .selectSwap _ => Option HtlcSwap
  | .selectPendingLocks _ | .selectAwaitingDestLock | .selectClaimable | .selectPendingUnlocks
  | .selectExpired _ => List HtlcSwap
  | _ => Nat

/-- `UPDATE htlc_swaps SET f WHERE id = $1 AND p(status)`. -/
def HtlcDb.update (db : HtlcDb) (id : Uuid) (p : HtlcStatus → Bool) (f : HtlcSwap → HtlcSwap)
    (hf : ∀ s, (f s).id = s.id ∧ (f s).fillId = s.fillId) : Except SqlError Nat × HtlcDb :=
  (.ok (db.swaps.affected fun s => decide (s.id = id) && p s.status),
    { db with swaps := db.swaps.update (fun s => decide (s.id = id) && p s.status) f hf })

def execHtlcStmt : (o : HtlcStmt) → HtlcDb → Except SqlError o.Reply × HtlcDb
  | .insertSwap s, db =>
    -- `intent_id UUID NOT NULL REFERENCES intents(id)`
    if s.intentId ∈ db.intents then
      match db.swaps.insert s with
      | some t => (.ok (), { db with swaps := t })
      | none => (.error .uniqueViolation, db)
    else (.error .foreignKeyViolation, db)
  | .selectSwap id, db => (.ok (db.swap id), db)
  | .setSecret id secret, db =>
    db.update id (· == .Created) (fun s => { s with secret := some secret }) (fun _ => ⟨rfl, rfl⟩)
  | .setSourceLocked id tx, db =>
    db.update id (· == .Created)
      (fun s => { s with status := .SourceLocked, sourceLockTx := some tx, lockedAt := some db.clock })
      (fun _ => ⟨rfl, rfl⟩)
  | .setDestLock id tx, db =>
    db.update id (· == .SourceLocked) (fun s => { s with destLockTx := some tx })
      (fun _ => ⟨rfl, rfl⟩)
  | .setDestClaimed id secret tx, db =>
    db.update id (· == .SourceLocked)
      (fun s => { s with status := .DestClaimed, secret := some secret, destClaimTx := some tx,
                         claimedAt := some db.clock })
      (fun _ => ⟨rfl, rfl⟩)
  | .setDestClaimedOnly id tx, db =>
    db.update id (· == .SourceLocked)
      (fun s => { s with status := .DestClaimed, destClaimTx := some tx, claimedAt := some db.clock })
      (fun _ => ⟨rfl, rfl⟩)
  | .setSourceUnlocked id tx, db =>
    db.update id (· == .DestClaimed)
      (fun s => { s with status := .SourceUnlocked, sourceUnlockTx := some tx,
                         completedAt := some db.clock })
      (fun _ => ⟨rfl, rfl⟩)
  | .setRefunded id, db =>
    db.update id (fun st => st == .Created || st == .SourceLocked)
      (fun s => { s with status := .Refunded, completedAt := some db.clock }) (fun _ => ⟨rfl, rfl⟩)
  | .setFailed id e, db =>
    db.update id (fun st => !(st == .SourceUnlocked || st == .Refunded))
      (fun s => { s with status := .Failed, error := some e, completedAt := some db.clock })
      (fun _ => ⟨rfl, rfl⟩)
  | .selectPendingLocks now, db =>
    (.ok (db.select (fun s => s.status == .Created && decide (now < s.sourceTimelock))
      fun s => some s.createdAt), db)
  | .selectAwaitingDestLock, db =>
    (.ok (db.select (fun s => s.status == .SourceLocked && s.destLockTx.isNone) (·.lockedAt)), db)
  | .selectClaimable, db =>
    (.ok (db.select (fun s => s.status == .SourceLocked && s.destLockTx.isSome) (·.lockedAt)), db)
  | .selectPendingUnlocks, db => (.ok (db.select (·.pendingUnlock) (·.claimedAt)), db)
  | .selectExpired now, db =>
    (.ok (db.select (fun s => decide (s.sourceTimelock < now) &&
      (s.status == .Created || s.status == .SourceLocked)) fun s => some s.sourceTimelock), db)

/-! ## Acts -/

inductive HtlcAct where
  | sql (o : HtlcStmt)
  /-- `Utc::now()` -/
  | now
  | lockFunds (swapId : Uuid) (params : BridgeTransferParams)
  | verifyLock (swapId : Uuid) (txHash : String)
  | releaseFunds (side : Side) (swapId : Uuid) (params : BridgeTransferParams) (messageId : String)

abbrev HtlcAct.Reply : HtlcAct → Type
  | .sql o => o.Reply
  | .now => Int
  | .lockFunds .. => LockReceipt
  | .verifyLock .. => BridgeStatus
  | .releaseFunds .. => String

inductive HtlcActError where
  | db (e : SqlError)
  | bridge (e : BridgeError)
  deriving DecidableEq, Repr

structure Turn where
  elapse : Nat
  fate : Fate
  lock : BridgeTransferParams → Except BridgeError LockReceipt
  verify : String → Except BridgeError BridgeStatus
  release : BridgeTransferParams → String → Except BridgeError String

def Fate.serve {α : Type} (fate : Fate) (r : Except SqlError α × HtlcDb) (db : HtlcDb) :
    Except HtlcActError α × HtlcDb :=
  match fate with
  | .served => (r.1.mapError .db, r.2)
  | .refused => (.error (.db .io), db)
  | .lost => (.error (.db .io), r.2)

/-- A bridge call; what went through is recorded. -/
def HtlcDb.bridge {α : Type} (db : HtlcDb) (r : Except BridgeError α) (effect : α → List Effect) :
    Except HtlcActError α × HtlcDb :=
  match r with
  | .ok a => (.ok a, { db with effects := effect a ++ db.effects })
  | .error e => (.error (.bridge e), db)

def serveAct (n : Turn) : (o : HtlcAct) → HtlcDb → Except HtlcActError o.Reply × HtlcDb
  | .sql o, db => n.fate.serve (execHtlcStmt o db) db
  | .now, db => (.ok db.clock, db)
  | .lockFunds id params, db => db.bridge (n.lock params) fun r => [.locked id params r.txHash]
  | .verifyLock _ tx, db => db.bridge (n.verify tx) fun _ => []
  | .releaseFunds side id params msg, db =>
    db.bridge (n.release params msg) fun tx => [.released side id params msg tx]

/-- An act, and the time that passes until the next one. -/
def execHtlc (n : Turn) : Handler HtlcAct HtlcAct.Reply HtlcActError HtlcDb := fun o db =>
  ((serveAct n o db).1, { (serveAct n o db).2 with clock := db.clock + n.elapse })

/-! ## The service -/

inductive HtlcError where
  | NotFound
  | InvalidState (msg : String)
  | SecretMismatch
  | Expired
  | DbError (e : HtlcActError)
  deriving DecidableEq, Repr

def defaultTimelockSecs : Int := 1800

/-- A call of the HTLC service. -/
abbrev Htlc (α : Type) := Call HtlcAct HtlcAct.Reply HtlcActError HtlcError α

abbrev htlcAct (o : HtlcAct) : Htlc o.Reply := Call.op o .DbError

abbrev htlcSql (o : HtlcStmt) : Htlc o.Reply := htlcAct (.sql o)

def getSwap (swapId : Uuid) : Htlc HtlcSwap := do
  let row ← htlcSql (.selectSwap swapId)
  Call.orThrow row .NotFound

/-- A guarded `UPDATE` that has to hit a row. -/
def transition (update : Htlc Nat) (msg : String) : Htlc Unit := do
  let rows ← update
  Call.failIf (rows = 0) (.InvalidState msg)

section Service

variable (sha256 : Secret → SecretHash)

/-- The row `create_swap` inserts. -/
def newSwap (id : Uuid) (secretHash : SecretHash) (params : CreateHtlcParams) (now : Int) : HtlcSwap :=
  let timelockSecs := if 0 < params.timelockSecs then params.timelockSecs else defaultTimelockSecs
  { id, fillId := params.fillId, intentId := params.intentId, secretHash := secretHash.1,
    secret := none, sourceChain := params.sourceChain, sourceSender := params.sourceSender,
    sourceReceiver := params.sourceReceiver, sourceToken := params.sourceToken,
    sourceAmount := params.sourceAmount, sourceLockTx := none, sourceUnlockTx := none,
    sourceTimelock := now + seconds timelockSecs, destChain := params.destChain,
    destSender := params.destSender, destReceiver := params.destReceiver,
    destToken := params.destToken, destAmount := params.destAmount, destLockTx := none,
    destClaimTx := none, status := .Created, solverId := params.solverId, error := none,
    createdAt := now, lockedAt := none, claimedAt := none, completedAt := none }

/-- `create_swap`, with the id and the secret it draws. -/
def createSwap (id : Uuid) (secret : Secret) (params : CreateHtlcParams) : Htlc (HtlcSwap × Secret) := do
  let now ← htlcAct .now
  let swap := newSwap id (sha256 secret) params now
  htlcSql (.insertSwap swap)
  return (swap, secret)

/-- The check of a secret against the hash of a row. -/
def checkSecret (swap : HtlcSwap) (secret : Secret) : Htlc Unit := do
  let expected ← Call.orThrow (toSecret swap.secretHash) (.InvalidState "Stored hash has wrong length")
  Call.failIf (verifySecret sha256 secret expected = false) .SecretMismatch

def storeSecret (swapId : Uuid) (secret : Secret) : Htlc Unit := do
  let swap ← getSwap swapId
  checkSecret sha256 swap secret
  let _ ← htlcSql (.setSecret swapId secret.1)

def recordSourceLock (swapId : Uuid) (lockTx : String) : Htlc Unit :=
  transition (htlcSql (.setSourceLocked swapId lockTx)) "Expected status: created"

def recordDestLock (swapId : Uuid) (destLockTx : String) : Htlc Unit :=
  transition (htlcSql (.setDestLock swapId destLockTx)) "Expected status: source_locked"

def recordDestClaim (swapId : Uuid) (secret : Secret) (claimTx : String) : Htlc Unit := do
  let swap ← getSwap swapId
  checkSecret sha256 swap secret
  transition (htlcSql (.setDestClaimed swapId secret.1 claimTx)) "Expected status: source_locked"

def recordDestClaimWithStoredSecret (swapId : Uuid) (claimTx : String) : Htlc Unit := do
  let swap ← getSwap swapId
  let secretBytes ←
    Call.orThrow swap.secret (.InvalidState "Secret not stored — call store_secret first")
  let secret ← Call.orThrow (toSecret secretBytes) (.InvalidState "Stored secret has wrong length")
  checkSecret sha256 swap secret
  transition (htlcSql (.setDestClaimedOnly swapId claimTx)) "Expected status: source_locked"

/-- Deprecated. -/
def recordDestClaimUnchecked (swapId : Uuid) (claimTx : String) : Htlc Unit :=
  transition (htlcSql (.setDestClaimedOnly swapId claimTx)) "Expected status: source_locked"

def completeSwap (swapId : Uuid) (unlockTx : String) : Htlc Unit :=
  transition (htlcSql (.setSourceUnlocked swapId unlockTx)) "Expected status: dest_claimed"

def refundSwap (swapId : Uuid) : Htlc Unit := do
  let swap ← getSwap swapId
  let now ← htlcAct .now
  Call.failIf (now < swap.sourceTimelock) (.InvalidState "Timelock has not expired yet")
  Call.failIf (swap.status = .DestClaimed ∨ swap.status = .SourceUnlocked)
    (.InvalidState "Cannot refund: secret already revealed")
  transition (htlcSql (.setRefunded swapId)) "Not in refundable state"

def failSwap (swapId : Uuid) (error : String) : Htlc Unit := do
  let _ ← htlcSql (.setFailed swapId error)

def findPendingLocks : Htlc (List HtlcSwap) := do
  let now ← htlcAct .now
  htlcSql (.selectPendingLocks now)

def findAwaitingDestLock : Htlc (List HtlcSwap) := htlcSql .selectAwaitingDestLock

def findClaimable : Htlc (List HtlcSwap) := htlcSql .selectClaimable

def findPendingUnlocks : Htlc (List HtlcSwap) := htlcSql .selectPendingUnlocks

def findExpired : Htlc (List HtlcSwap) := do
  let now ← htlcAct .now
  htlcSql (.selectExpired now)

/-! ## The worker -/

/-- A program of the worker, whose calls return their errors to it. -/
abbrev HtlcProg (α : Type) := Prog HtlcAct HtlcAct.Reply HtlcActError α

/-- One turn of a phase's loop; answers what it adds to the count. -/
def forSwaps (body : HtlcSwap → HtlcProg Nat) : List HtlcSwap → HtlcProg Nat
  | [] => return 0
  | swap :: swaps => do
    let n ← body swap
    let m ← forSwaps body swaps
    return n + m

/-- A phase: the swaps of its query one after the other, none when the query fails. -/
def phase (find : Htlc (List HtlcSwap)) (body : HtlcSwap → HtlcProg Nat) : HtlcProg Nat := do
  match ← find.run with
  | .error _ => return 0
  | .ok swaps => forSwaps body swaps

def HtlcActError.text : HtlcActError → String
  | .db e => e.text
  | .bridge e => e.text

def lockParams (swap : HtlcSwap) : BridgeTransferParams :=
  { sourceChain := swap.sourceChain, destChain := swap.destChain,
    token := swap.sourceToken.getD "", amount := .ofInt swap.sourceAmount,
    sender := swap.sourceSender, recipient := swap.sourceReceiver }

def claimParams (swap : HtlcSwap) : BridgeTransferParams :=
  { sourceChain := swap.sourceChain, destChain := swap.destChain,
    token := swap.destToken.getD "", amount := .ofInt swap.destAmount,
    sender := swap.destSender, recipient := swap.destReceiver }

def lockSourceOne (bridges : BridgeRegistry) (swap : HtlcSwap) : HtlcProg Nat :=
  match bridges.find swap.sourceChain swap.destChain with
  | .error e => do
    let _ ← (failSwap swap.id e.text).run
    return 0
  | .ok _ => do
    match ← Prog.ask (HtlcAct.lockFunds swap.id (lockParams swap)) with
    | .ok receipt =>
      match ← (recordSourceLock swap.id receipt.txHash).run with
      | .error _ => return 0
      | .ok _ => return 1
    | .error e => do
      let _ ← (failSwap swap.id ("Source lock failed: " ++ e.text)).run
      return 0

def phaseLockSource (bridges : BridgeRegistry) : HtlcProg Nat :=
  phase findPendingLocks (lockSourceOne bridges)

def monitorOne (bridges : BridgeRegistry) (swap : HtlcSwap) : HtlcProg Nat :=
  match swap.sourceLockTx, bridges.find swap.sourceChain swap.destChain with
  | some sourceTx, .ok _ => do
    match ← Prog.ask (HtlcAct.verifyLock swap.id sourceTx) with
    | .ok (.Completed destTxHash) =>
      match ← (recordDestLock swap.id destTxHash).run with
      | .error _ => return 0
      | .ok _ => return 1
    | .ok (.Failed reason) => do
      let _ ← (failSwap swap.id ("Bridge failed: " ++ reason)).run
      return 0
    | _ => return 0
  | _, _ => return 0

def phaseMonitorDestLock (bridges : BridgeRegistry) : HtlcProg Nat :=
  phase findAwaitingDestLock (monitorOne bridges)

/-- `fail_swap` and on to the next swap. -/
def failAndSkip (swap : HtlcSwap) (error : String) : HtlcProg Nat := do
  let _ ← (failSwap swap.id error).run
  return 0

def claimOne (bridges : BridgeRegistry) (swap : HtlcSwap) : HtlcProg Nat :=
  match swap.secret with
  | none => return 0
  | some bytes =>
    match toSecret bytes with
    | none => failAndSkip swap "Stored secret has wrong length"
    | some secret =>
      match toSecret swap.secretHash with
      | none => failAndSkip swap "Secret hash wrong length"
      | some expected =>
        if verifySecret sha256 secret expected then
          match bridges.find swap.sourceChain swap.destChain with
          | .error _ => return 0
          | .ok _ => do
            match ← Prog.ask (HtlcAct.releaseFunds .dest swap.id (claimParams swap)
              ("htlc_secret_" ++ toHex secret.1)) with
            | .ok claimTx =>
              match ← (recordDestClaim sha256 swap.id secret claimTx).run with
              | .error _ => return 0
              | .ok _ => return 1
            | .error _ => return 0
        else failAndSkip swap "Stored secret does not match hash"

def phaseClaimDestination (bridges : BridgeRegistry) : HtlcProg Nat :=
  phase findClaimable (claimOne sha256 bridges)

def unlockOne (bridges : BridgeRegistry) (swap : HtlcSwap) : HtlcProg Nat :=
  match swap.secret.bind toSecret, toSecret swap.secretHash with
  | some secret, some expected =>
    if verifySecret sha256 secret expected then
      match bridges.find swap.sourceChain swap.destChain with
      | .error _ => return 0
      | .ok _ => do
        match ← Prog.ask (HtlcAct.releaseFunds .source swap.id (lockParams swap)
          ("htlc_unlock_" ++ toHex secret.1)) with
        | .ok unlockTx =>
          match ← (completeSwap swap.id unlockTx).run with
          | .error _ => return 0
          | .ok _ => return 1
        | .error _ => return 0
    else failAndSkip swap "Secret/hash mismatch at unlock"
  | _, _ => return 0

def phaseUnlockSource (bridges : BridgeRegistry) : HtlcProg Nat :=
  phase findPendingUnlocks (unlockOne sha256 bridges)

def refundOne (swap : HtlcSwap) : HtlcProg Nat := do
  match ← (refundSwap swap.id).run with
  | .error _ => return 0
  | .ok _ => return 1

def phaseRefundExpired : HtlcProg Nat := phase findExpired refundOne

/-- `n` rounds of the worker's loop. -/
def htlcWorker (bridges : BridgeRegistry) : Nat → HtlcProg Unit
  | 0 => return ()
  | n + 1 => do
    let _ ← phaseLockSource bridges
    let _ ← phaseMonitorDestLock bridges
    let _ ← phaseClaimDestination sha256 bridges
    let _ ← phaseUnlockSource sha256 bridges
    let _ ← phaseRefundExpired
    htlcWorker bridges n

end Service

end IntentX
