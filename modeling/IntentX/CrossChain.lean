import IntentX.Htlc
import IntentX.Lib.Crash

/-!
# Cross-chain settlement

The legs of `src/cross_chain/model.rs`, the service of `src/cross_chain/service.rs` and the phases
of `src/cross_chain/worker.rs`.  As for swaps, every point where the process can crash or another
task can come between is a `CrossAct`: a statement, a reading of the clock or a call of a bridge.

A `Moment` is what the surroundings decide at an act: the legs that calls of `create_settlement`
insert before it, the order in which the database meets the rows (`ORDER BY` does not say what comes
first among equals), and the `Turn` of the act.  `calls` keeps every call of `lock_funds` and
`release_funds` with its answer; a call carries the id of its leg, which the bridge does not see.
-/

namespace IntentX

open Lib

/-! ## Rows -/

/-- A row of `cross_chain_legs`. -/
structure Leg extends CrossChainLeg where
  chain : String
  fromAddress : String
  toAddress : String
  tokenMint : Option String
  amount : Int
  txHash : Option String
  error : Option String
  timeoutAt : Int
  createdAt : Int
  confirmedAt : Option Int
  deriving DecidableEq, Repr

namespace CrossChain

/-- The key of `UNIQUE (fill_id, leg_index)`. -/
def slot (l : Leg) : Uuid × Int := (l.fillId, l.legIndex)

structure SettlementReq where
  intentId : Uuid
  fillId : Uuid
  sourceChain : String
  destChain : String
  sourceFrom : String
  sourceTo : String
  destFrom : String
  destTo : String
  sourceMint : Option String
  destMint : Option String
  amount : Int
  deriving DecidableEq, Repr

def defaultTimeoutSecs : Int := 600

/-- The source leg `create_settlement` builds. -/
def sourceLeg (id : Uuid) (req : SettlementReq) (now : Int) : Leg :=
  { id, intentId := req.intentId, fillId := req.fillId, legIndex := 0, status := .Pending,
    chain := req.sourceChain, fromAddress := req.sourceFrom, toAddress := req.sourceTo,
    tokenMint := req.sourceMint, amount := req.amount, txHash := none, error := none,
    timeoutAt := now + seconds defaultTimeoutSecs, createdAt := now, confirmedAt := none }

/-- The destination leg `create_settlement` builds. -/
def destLeg (id : Uuid) (req : SettlementReq) (now : Int) : Leg :=
  { id, intentId := req.intentId, fillId := req.fillId, legIndex := 1, status := .Pending,
    chain := req.destChain, fromAddress := req.destFrom, toAddress := req.destTo,
    tokenMint := req.destMint, amount := req.amount, txHash := none, error := none,
    timeoutAt := now + seconds defaultTimeoutSecs, createdAt := now, confirmedAt := none }

/-! ## The store and its statements -/

/-- A call of a bridge and its answer. -/
inductive BridgeCall where
  | lock (legId : Uuid) (answer : Except BridgeError LockReceipt)
  | release (legId : Uuid) (answer : Except BridgeError String)

structure CrossDb where
  /-- ids and statuses in `intents` -/
  intents : List (Uuid × IntentStatus)
  /-- `PRIMARY KEY (id)`, `UNIQUE (fill_id, leg_index)` -/
  legs : Table Leg (fun l => l.id) slot
  clock : Int
  calls : List BridgeCall

def CrossDb.leg (db : CrossDb) (id : Uuid) : Option Leg := db.legs.find fun l => l.id = id

/-- The order in which a query meets the rows. -/
structure Scan where
  order : List Leg → List Leg
  perm : ∀ rows, (order rows).Perm rows

def Scan.inOrder : Scan := ⟨id, .refl⟩

/-- `SELECT * FROM cross_chain_legs WHERE p ORDER BY key ASC LIMIT 50`. -/
def CrossDb.select (db : CrossDb) (scan : Scan) (p : Leg → Bool) (key : Leg → Int) : List Leg :=
  (((scan.order db.legs.rows).filter p).insertionSort fun a b => key a ≤ key b).take 50

inductive LegStmt where
  | insertLeg (l : Leg)
  /-- `SET status = $2, tx_hash = COALESCE($3, tx_hash), error = COALESCE($4, error) WHERE id = $1` -/
  | setStatus (id : Uuid) (status : LegStatus) (txHash error : Option String)
  /-- `SET confirmed_at = NOW() WHERE id = $1` -/
  | setConfirmedAt (id : Uuid)
  | selectByFill (fillId : Uuid)
  | selectPendingSources
  | selectEscrowedSources
  | selectTimedOut (now : Int)
  | selectReadyDestinations
  /-- the fills of `finalize_completed`, with their intents -/
  | selectConfirmedFills
  /-- `UPDATE intents SET status = 'completed' WHERE id = $2 AND status != 'completed'` -/
  | completeIntent (id : Uuid)

abbrev LegStmt.Reply : LegStmt → Type
  | .insertLeg _ => Unit
  | .setStatus .. | .setConfirmedAt _ | .completeIntent _ => Nat
  | .selectConfirmedFills => List (Uuid × Uuid)
  | _ => List Leg

/-- What `update_leg_status` makes of a row. -/
def withStatus (l : Leg) (status : LegStatus) (txHash error : Option String) : Leg :=
  { l with status, txHash := txHash <|> l.txHash, error := error <|> l.error }

/-- `UPDATE cross_chain_legs SET f WHERE id = $1`. -/
def CrossDb.update (db : CrossDb) (id : Uuid) (f : Leg → Leg)
    (hf : ∀ l, (f l).id = l.id ∧ slot (f l) = slot l) : Except SqlError Nat × CrossDb :=
  (.ok (db.legs.affected fun l => l.id = id),
    { db with legs := db.legs.update (fun l => l.id = id) f hf })

/-- The `WHERE` clause of `find_pending_source_legs`. -/
def isPendingSource (l : Leg) : Bool := l.legIndex == 0 && l.status == .Pending

/-- The `WHERE` clause of `find_escrowed_source_legs`. -/
def isEscrowedSource (l : Leg) : Bool := l.legIndex == 0 && l.status == .Escrowed

/-- The `WHERE` clause of `find_timed_out_legs`. -/
def isTimedOut (now : Int) (l : Leg) : Bool :=
  decide (l.timeoutAt < now) && !(l.status == .Confirmed || l.status == .Refunded)

/-- The `JOIN` and the `WHERE` clause of `find_ready_destination_legs`. -/
def isReadyDestination (db : CrossDb) (dest : Leg) : Bool :=
  dest.legIndex == 1 && dest.status == .Pending &&
    db.legs.rows.any fun src => src.fillId == dest.fillId && src.legIndex == 0 &&
      (src.status == .Escrowed || src.status == .Confirmed)

/-- The `WHERE` clause of `finalize_completed`. -/
def isFinal (db : CrossDb) (l : Leg) : Bool :=
  l.legIndex == 0 && l.status == .Confirmed &&
    (db.legs.rows.any fun l2 => l2.fillId == l.fillId && l2.legIndex == 1 && l2.status == .Confirmed) &&
    db.intents.any fun i => i.1 == l.intentId && i.2 != .Completed

def execLegStmt (scan : Scan) : (o : LegStmt) → CrossDb → Except SqlError o.Reply × CrossDb
  | .insertLeg l, db =>
    -- `intent_id UUID NOT NULL REFERENCES intents(id)`
    if l.intentId ∈ db.intents.map Prod.fst then
      match db.legs.insert l with
      | some t => (.ok (), { db with legs := t })
      | none => (.error .uniqueViolation, db)
    else (.error .foreignKeyViolation, db)
  | .setStatus id status txHash error, db =>
    db.update id (fun l => withStatus l status txHash error) (fun _ => ⟨rfl, rfl⟩)
  | .setConfirmedAt id, db =>
    db.update id (fun l => { l with confirmedAt := some db.clock }) (fun _ => ⟨rfl, rfl⟩)
  | .selectByFill fillId, db =>
    (.ok (((scan.order db.legs.rows).filter fun l => l.fillId == fillId).insertionSort
      fun a b => a.legIndex ≤ b.legIndex), db)
  | .selectPendingSources, db => (.ok (db.select scan isPendingSource (·.createdAt)), db)
  | .selectEscrowedSources, db => (.ok (db.select scan isEscrowedSource (·.createdAt)), db)
  | .selectTimedOut now, db => (.ok (db.select scan (isTimedOut now) (·.timeoutAt)), db)
  | .selectReadyDestinations, db => (.ok (db.select scan (isReadyDestination db) (·.createdAt)), db)
  | .selectConfirmedFills, db =>
    (.ok ((((scan.order db.legs.rows).filter (isFinal db)).map fun l => (l.fillId, l.intentId)).dedup.take
      50), db)
  | .completeIntent id, db =>
    (.ok (db.intents.countP fun i => i.1 == id && i.2 != .Completed),
      { db with intents := db.intents.map fun i => if i.1 = id then (i.1, .Completed) else i })

/-! ## Acts -/

inductive CrossAct where
  | sql (o : LegStmt)
  /-- `Utc::now()` -/
  | now
  | lockFunds (legId : Uuid) (params : BridgeTransferParams)
  | verifyLock (legId : Uuid) (txHash : String)
  | releaseFunds (legId : Uuid) (params : BridgeTransferParams) (messageId : String)

abbrev CrossAct.Reply : CrossAct → Type
  | .sql o => o.Reply
  | .now => Int
  | .lockFunds .. => LockReceipt
  | .verifyLock .. => BridgeStatus
  | .releaseFunds .. => String

/-- The insert of one of its legs by a call of `create_settlement`. -/
structure Arrival where
  side : Side
  id : Uuid
  req : SettlementReq
  now : Int

def Arrival.row (a : Arrival) : Leg :=
  match a.side with
  | .source => sourceLeg a.id a.req a.now
  | .dest => destLeg a.id a.req a.now

structure Moment where
  arrivals : List Arrival
  scan : Scan
  turn : Turn

def CrossDb.arrive (db : CrossDb) (a : Arrival) : CrossDb :=
  (execLegStmt .inOrder (.insertLeg a.row) db).2

/-- The store as the act meets it. -/
def Moment.before (m : Moment) (db : CrossDb) : CrossDb := m.arrivals.foldl CrossDb.arrive db

def serveStmt {α : Type} (fate : Fate) (r : Except SqlError α × CrossDb) (db : CrossDb) :
    Except HtlcActError α × CrossDb :=
  match fate with
  | .served => (r.1.mapError .db, r.2)
  | .refused => (.error (.db .io), db)
  | .lost => (.error (.db .io), r.2)

def serveAct (m : Moment) : (o : CrossAct) → CrossDb → Except HtlcActError o.Reply × CrossDb
  | .sql o, db => serveStmt m.turn.fate (execLegStmt m.scan o db) db
  | .now, db => (.ok db.clock, db)
  | .lockFunds id params, db =>
    ((m.turn.lock params).mapError .bridge,
      { db with calls := .lock id (m.turn.lock params) :: db.calls })
  | .verifyLock _ txHash, db => ((m.turn.verify txHash).mapError .bridge, db)
  | .releaseFunds id params msg, db =>
    ((m.turn.release params msg).mapError .bridge,
      { db with calls := .release id (m.turn.release params msg) :: db.calls })

def execCross (m : Moment) : Handler CrossAct CrossAct.Reply HtlcActError CrossDb := fun o db =>
  ((serveAct m o (m.before db)).1,
    { (serveAct m o (m.before db)).2 with clock := db.clock + m.turn.elapse })

/-! ## The service -/

inductive CrossChainError where
  | LegNotFound
  | InvalidState (msg : String)
  | ChainError (e : String)
  | Timeout
  | DbError (e : HtlcActError)
  deriving DecidableEq, Repr

abbrev Cross (α : Type) := Call CrossAct CrossAct.Reply HtlcActError CrossChainError α

abbrev crossAct (o : CrossAct) : Cross o.Reply := Call.op o .DbError

abbrev legSql (o : LegStmt) : Cross o.Reply := crossAct (.sql o)

def insertLeg (l : Leg) : Cross Unit := legSql (.insertLeg l)

/-- `create_settlement`, with the ids it draws. -/
def createSettlement (sourceId destId : Uuid) (req : SettlementReq) : Cross (Leg × Leg) := do
  let now ← crossAct .now
  insertLeg (sourceLeg sourceId req now)
  insertLeg (destLeg destId req now)
  return (sourceLeg sourceId req now, destLeg destId req now)

def updateLegStatus (legId : Uuid) (status : LegStatus) (txHash error : Option String) : Cross Unit := do
  let rows ← legSql (.setStatus legId status txHash error)
  Call.failIf (rows = 0) .LegNotFound

def executeSourceLeg (legId : Uuid) (txHash : String) : Cross Unit :=
  updateLegStatus legId .Escrowed (some txHash) none

def markExecuting (legId : Uuid) (txHash : String) : Cross Unit :=
  updateLegStatus legId .Executing (some txHash) none

def confirmLeg (legId : Uuid) : Cross Unit := do
  updateLegStatus legId .Confirmed none none
  let _ ← legSql (.setConfirmedAt legId)

def failLeg (legId : Uuid) (error : String) : Cross Unit :=
  updateLegStatus legId .Failed none (some error)

def refundLeg (legId : Uuid) : Cross Unit :=
  updateLegStatus legId .Refunded none (some "Timeout refund")

structure CrossChainSettlement where
  sourceLeg : Leg
  destinationLeg : Leg

def fromLegs (legs : List Leg) : Option CrossChainSettlement := do
  let source ← legs.find? fun l => l.legIndex == 0
  let dest ← legs.find? fun l => l.legIndex == 1
  return ⟨source, dest⟩

def getSettlement (fillId : Uuid) : Cross (Option CrossChainSettlement) := do
  let legs ← legSql (.selectByFill fillId)
  return fromLegs legs

def findPendingSourceLegs : Cross (List Leg) := legSql .selectPendingSources

def findEscrowedSourceLegs : Cross (List Leg) := legSql .selectEscrowedSources

def findTimedOutLegs : Cross (List Leg) := do
  let now ← crossAct .now
  legSql (.selectTimedOut now)

def findReadyDestinationLegs : Cross (List Leg) := legSql .selectReadyDestinations

/-! ## The worker -/

/-- A program of the worker, whose calls return their errors to it. -/
abbrev CrossProg (α : Type) := Prog CrossAct CrossAct.Reply HtlcActError α

/-- A phase: the legs of its query one after the other, none when the query fails. -/
def legPhase (find : Cross (List Leg)) (body : Leg → CrossProg Nat) : CrossProg Nat := do
  match ← find.run with
  | .error _ => return 0
  | .ok legs => Prog.forEach body legs

/-- Whether a call of the service went through. -/
def succeeded (p : Cross Unit) : CrossProg Nat := do
  match ← p.run with
  | .error _ => return 0
  | .ok _ => return 1

/-- A call of the service whose outcome is ignored. -/
def ignored (p : Cross Unit) : CrossProg Nat := do
  let _ ← p.run
  return 0

/-- The parameters of both bridge calls: `leg` is the leg the call is about. -/
def transferParams (leg source dest : Leg) : BridgeTransferParams :=
  { sourceChain := source.chain, destChain := dest.chain, token := leg.tokenMint.getD "",
    amount := .ofInt leg.amount, sender := source.fromAddress, recipient := dest.toAddress }

def lockOne (bridges : BridgeRegistry) (leg : Leg) : CrossProg Nat := do
  match ← (getSettlement leg.fillId).run with
  | .ok (some s) =>
    match bridges.find leg.chain s.destinationLeg.chain with
    | .error _ => return 0
    | .ok _ =>
      match ← Prog.ask (CrossAct.lockFunds leg.id (transferParams leg leg s.destinationLeg)) with
      | .ok receipt => succeeded (executeSourceLeg leg.id receipt.txHash)
      | .error e => ignored (failLeg leg.id e.text)
  | _ => return 0

def lockPendingSources (bridges : BridgeRegistry) : CrossProg Nat :=
  legPhase findPendingSourceLegs (lockOne bridges)

def verifyOne (bridges : BridgeRegistry) (leg : Leg) : CrossProg Nat :=
  match leg.txHash with
  | none => return 0
  | some txHash => do
    match ← (getSettlement leg.fillId).run with
    | .ok (some s) =>
      match bridges.find leg.chain s.destinationLeg.chain with
      | .error _ => return 0
      | .ok _ =>
        match ← Prog.ask (CrossAct.verifyLock leg.id txHash) with
        | .ok (.Completed _) | .ok (.InTransit _) => succeeded (confirmLeg leg.id)
        | .ok (.Failed reason) => ignored (failLeg leg.id reason)
        | _ => return 0
    | _ => return 0

def verifyEscrowed (bridges : BridgeRegistry) : CrossProg Nat :=
  legPhase findEscrowedSourceLegs (verifyOne bridges)

/-- The message id of `release_destinations`. -/
def releaseMsgId (source : Leg) : String := "msg_" ++ source.txHash.getD ""

def releaseOne (bridges : BridgeRegistry) (leg : Leg) : CrossProg Nat := do
  match ← (getSettlement leg.fillId).run with
  | .ok (some s) =>
    match bridges.find s.sourceLeg.chain leg.chain with
    | .error _ => return 0
    | .ok _ =>
      match ← Prog.ask (CrossAct.releaseFunds leg.id (transferParams leg s.sourceLeg leg)
        (releaseMsgId s.sourceLeg)) with
      | .ok destTx => succeeded (markExecuting leg.id destTx)
      | .error e => ignored (failLeg leg.id e.text)
  | _ => return 0

def releaseDestinations (bridges : BridgeRegistry) : CrossProg Nat :=
  legPhase findReadyDestinationLegs (releaseOne bridges)

/-- The refund of the destination when the source leg of the fill was escrowed. -/
def cascade (leg : Leg) : CrossProg Nat :=
  if leg.legIndex = 0 ∧ leg.status = .Escrowed then do
    match ← (getSettlement leg.fillId).run with
    | .ok (some s) =>
      if s.destinationLeg.status = .Pending ∨ s.destinationLeg.status = .Executing then do
        let _ ← (refundLeg s.destinationLeg.id).run
        return 1
      else return 0
    | _ => return 0
  else return 0

def timeoutOne (leg : Leg) : CrossProg Nat := do
  match ← (refundLeg leg.id).run with
  | .error _ => return 0
  | .ok _ => do
    let n ← cascade leg
    return n + 1

def processTimeouts : CrossProg Nat := legPhase findTimedOutLegs timeoutOne

def finalizeOne (row : Uuid × Uuid) : CrossProg Nat := do
  match ← (legSql (.completeIntent row.2)).run with
  | .error _ => return 0
  | .ok rows => return if 0 < rows then 1 else 0

def finalizeCompleted : CrossProg Nat := do
  match ← (legSql .selectConfirmedFills).run with
  | .error _ => return 0
  | .ok rows => Prog.forEach finalizeOne rows

/-- `update_gauge`; answers what it sets the gauge to. -/
def updateGauge : CrossProg Nat := do
  let t ← findTimedOutLegs.run
  let r ← findReadyDestinationLegs.run
  return (t.toOption.elim 0 List.length) + r.toOption.elim 0 List.length

/-- `n` rounds of the worker's loop. -/
def crossChainWorker (bridges : BridgeRegistry) : Nat → CrossProg Unit
  | 0 => return ()
  | n + 1 => do
    let _ ← lockPendingSources bridges
    let _ ← verifyEscrowed bridges
    let _ ← releaseDestinations bridges
    let _ ← processTimeouts
    let _ ← finalizeCompleted
    let _ ← updateGauge
    crossChainWorker bridges n

end CrossChain

end IntentX
