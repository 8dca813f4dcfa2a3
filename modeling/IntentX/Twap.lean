import IntentX.Intents

/-!
# TWAP orders

`src/twap/model.rs`, `create_twap` and the `record_child_…` calls of `src/twap/service.rs`, and
`process_intent_settled` of `src/twap/listener.rs`.  None of these runs in a transaction: every
statement is committed on its own.  Points in time are not bounded, and log lines are left out.
-/

namespace IntentX

open Lib

/-! ## Rows -/

inductive TwapStatus where
  | Active | Completed | Cancelled | Failed
  deriving DecidableEq, Repr

structure TwapIntent where
  id : Uuid
  userId : String
  accountId : Uuid
  tokenIn : String
  tokenOut : String
  totalQty : Int
  filledQty : Int
  minPrice : Int
  durationSecs : Int
  intervalSecs : Int
  slicesTotal : Int
  slicesCompleted : Int
  status : TwapStatus
  createdAt : Int
  finishedAt : Option Int
  deriving DecidableEq, Repr

/-- The texts that are written to the `status` column of a child. -/
inductive ChildStatus where
  | pending | submitted | completed | expired | failed | cancelled
  deriving DecidableEq, Repr

structure TwapChildIntent where
  id : Uuid
  twapId : Uuid
  intentId : Uuid
  sliceIndex : Int
  qty : Int
  status : ChildStatus
  scheduledAt : Int
  createdAt : Int
  deriving DecidableEq, Repr

structure TwapDb where
  twaps : Table TwapIntent TwapIntent.id TwapIntent.id
  children : Table TwapChildIntent TwapChildIntent.id TwapChildIntent.id

def TwapDb.empty : TwapDb := ⟨.empty, .empty⟩

namespace TwapDb

def twap (db : TwapDb) (id : Uuid) : Option TwapIntent := db.twaps.find fun p => p.id = id

def child (db : TwapDb) (id : Uuid) : Option TwapChildIntent := db.children.find fun c => c.id = id

/-- The children of a TWAP. -/
def childrenOf (db : TwapDb) (twapId : Uuid) : List TwapChildIntent :=
  db.children.rows.filter fun c => c.twapId = twapId

/-- The pending slices of active TWAPs that are due, earliest first, at most 20. -/
def due (db : TwapDb) (now : Int) : List TwapChildIntent :=
  ((db.children.rows.filter fun c => c.status == .pending && decide (c.scheduledAt ≤ now) &&
    db.twaps.rows.any fun p => p.id == c.twapId && p.status == .Active).insertionSort
      fun a b => a.scheduledAt ≤ b.scheduledAt).take 20

end TwapDb

def inI32 (x : Int) : Bool := decide (-2 ^ 31 ≤ x) && decide (x < 2 ^ 31)

theorem inI32_iff {x : Int} : inI32 x = true ↔ -2 ^ 31 ≤ x ∧ x < 2 ^ 31 := by
  unfold inI32
  simp

/-- The columns of the row are in range; Postgres refuses an `UPDATE` otherwise. -/
def TwapIntent.fits (p : TwapIntent) : Bool := inI64 p.filledQty && inI32 p.slicesCompleted

/-! ## Statements -/

inductive TwapStmt where
  | insertTwap (p : TwapIntent)
  | insertChild (c : TwapChildIntent)
  | selectTwap (id : Uuid)
  /-- `SELECT * FROM twap_child_intents WHERE intent_id = $1` -/
  | selectChildByIntent (intentId : Uuid)
  /-- `… SET status = 'completed' WHERE id = $1 AND status != 'completed'` -/
  | completeChild (id : Uuid)
  /-- `… SET status = 'expired' WHERE id = $1 AND status NOT IN ('completed', 'expired')` -/
  | expireChild (id : Uuid)
  /-- `… SET status = 'failed' WHERE id = $1 AND status != 'failed'` -/
  | failChild (id : Uuid)
  /-- `… SET filled_qty = filled_qty + $1, slices_completed = slices_completed + 1 WHERE id = $2` -/
  | addFilled (id : Uuid) (qty : Int)
  /-- `… SET slices_completed = slices_completed + 1 WHERE id = $1` -/
  | addSlice (id : Uuid)
  /-- `… SET status = $1, finished_at = NOW() WHERE id = $2 AND status = 'active'` -/
  | finishTwap (id : Uuid) (status : TwapStatus) (now : Int)
  /-- `SELECT * FROM twap_child_intents WHERE twap_id = $1 AND status IN ('pending', 'submitted')` -/
  | selectOpenChildren (twapId : Uuid)
  /-- `… SET status = 'cancelled' WHERE twap_id = $1 AND status IN ('pending', 'submitted')` -/
  | cancelChildren (twapId : Uuid)
  /-- `… SET status = 'cancelled', finished_at = $1 WHERE id = $2` -/
  | cancelTwap (id : Uuid) (now : Int)
  | selectDue (now : Int)
  /-- `… SET status = 'submitted' WHERE id = $1` -/
  | submitChild (id : Uuid)
  /-- `… SET intent_id = $1 WHERE id = $2` -/
  | setIntentId (id intentId : Uuid)

abbrev TwapStmt.Reply : TwapStmt → Type
  | .selectTwap _ => Option TwapIntent
  | .selectChildByIntent _ => Option TwapChildIntent
  | .completeChild _ | .expireChild _ | .failChild _ => Nat
  | .selectOpenChildren _ | .selectDue _ => List TwapChildIntent
  | _ => Unit

/-- A child that has not come to an end. -/
def ChildStatus.unfinished : ChildStatus → Bool
  | .pending | .submitted => true
  | _ => false

namespace TwapDb

/-- An `UPDATE twap_child_intents … WHERE p` that leaves the keys alone. -/
def updateChildren (db : TwapDb) (p : TwapChildIntent → Bool) (f : TwapChildIntent → TwapChildIntent)
    (hf : ∀ c, (f c).id = c.id ∧ (f c).id = c.id) : TwapDb :=
  { db with children := db.children.update p f hf }

/-- `SET status = st WHERE p`. -/
def mark (db : TwapDb) (p : TwapChildIntent → Bool) (st : ChildStatus) : TwapDb :=
  db.updateChildren p (fun c => { c with status := st }) fun _ => ⟨rfl, rfl⟩

/-- An `UPDATE twap_intents … WHERE id = $1`. -/
def updateTwap (db : TwapDb) (id : Uuid) (f : TwapIntent → TwapIntent)
    (hf : ∀ p, (f p).id = p.id ∧ (f p).id = p.id) : Except SqlError Unit × TwapDb :=
  if db.twaps.rows.all fun p => decide (p.id ≠ id) || (f p).fits then
    (.ok (), { db with twaps := db.twaps.update (fun p => p.id = id) f hf })
  else (.error .outOfRange, db)

end TwapDb

def TwapIntent.addFilled (p : TwapIntent) (qty : Int) : TwapIntent :=
  { p with filledQty := p.filledQty + qty, slicesCompleted := p.slicesCompleted + 1 }

def TwapIntent.addSlice (p : TwapIntent) : TwapIntent :=
  { p with slicesCompleted := p.slicesCompleted + 1 }

/-- The end of a TWAP that is still active. -/
def TwapIntent.finish (p : TwapIntent) (status : TwapStatus) (now : Int) : TwapIntent :=
  if p.status = .Active then { p with status, finishedAt := some now } else p

theorem TwapIntent.finish_id (p : TwapIntent) (status : TwapStatus) (now : Int) :
    (p.finish status now).id = p.id := by
  unfold finish
  split <;> rfl

def execTwap : (o : TwapStmt) → TwapDb → Except SqlError o.Reply × TwapDb
  | .insertTwap p, db =>
    match db.twaps.insert p with
    | some t => (.ok (), { db with twaps := t })
    | none => (.error .uniqueViolation, db)
  | .insertChild c, db =>
    -- `twap_id UUID NOT NULL REFERENCES twap_intents(id)`
    if db.twaps.rows.any fun p => p.id == c.twapId then
      match db.children.insert c with
      | some t => (.ok (), { db with children := t })
      | none => (.error .uniqueViolation, db)
    else (.error .foreignKeyViolation, db)
  | .selectTwap id, db => (.ok (db.twap id), db)
  | .selectChildByIntent id, db => (.ok (db.children.rows.find? fun c => c.intentId = id), db)
  | .completeChild id, db =>
    let p := fun c : TwapChildIntent => decide (c.id = id) && !(c.status == .completed)
    (.ok (db.children.affected p), db.mark p .completed)
  | .expireChild id, db =>
    let p := fun c : TwapChildIntent =>
      decide (c.id = id) && !(c.status == .completed || c.status == .expired)
    (.ok (db.children.affected p), db.mark p .expired)
  | .failChild id, db =>
    let p := fun c : TwapChildIntent => decide (c.id = id) && !(c.status == .failed)
    (.ok (db.children.affected p), db.mark p .failed)
  | .addFilled id qty, db => db.updateTwap id (·.addFilled qty) fun _ => ⟨rfl, rfl⟩
  | .addSlice id, db => db.updateTwap id (·.addSlice) fun _ => ⟨rfl, rfl⟩
  | .finishTwap id st now, db =>
    (.ok (), { db with
      twaps := db.twaps.update (fun p => p.id = id) (fun p => p.finish st now)
        (fun p => ⟨p.finish_id st now, p.finish_id st now⟩) })
  | .selectOpenChildren id, db => (.ok ((db.childrenOf id).filter (·.status.unfinished)), db)
  | .cancelChildren id, db =>
    (.ok (), db.mark (fun c => decide (c.twapId = id) && c.status.unfinished) .cancelled)
  | .cancelTwap id now, db =>
    (.ok (), { db with
      twaps := db.twaps.update (fun p => p.id = id)
        (fun p => { p with status := .Cancelled, finishedAt := some now }) (fun _ => ⟨rfl, rfl⟩) })
  | .selectDue now, db => (.ok (db.due now), db)
  | .submitChild id, db => (.ok (), db.mark (fun c => c.id = id) .submitted)
  | .setIntentId id intentId, db =>
    (.ok (), db.updateChildren (fun c => c.id = id) (fun c => { c with intentId }) fun _ => ⟨rfl, rfl⟩)

/-! ## The service -/

inductive TwapError where
  | InvalidParams (msg : String)
  | NotFound
  | AlreadyCancelled
  | DbError (e : SqlError)
  | IntentError (msg : String)
  /-- the task panics -/
  | panicked
  deriving DecidableEq, Repr

abbrev TwapCall (E α : Type) := Call TwapStmt TwapStmt.Reply SqlError E α

abbrev twapSql (o : TwapStmt) : TwapCall TwapError o.Reply := Call.op o .DbError

structure CreateTwapRequest where
  userId : String
  accountId : Uuid
  tokenIn : String
  tokenOut : String
  totalQty : Int
  minPrice : Int
  durationSecs : Int
  intervalSecs : Int
  deriving DecidableEq, Repr

/-- `(duration_secs / interval_secs) as i32`. -/
def CreateTwapRequest.slicesTotal (r : CreateTwapRequest) : Int :=
  (r.durationSecs.tdiv r.intervalSecs).bmod (2 ^ 32)

/-- The quantity of a slice; the last one takes the remainder too. -/
def CreateTwapRequest.sliceQty (r : CreateTwapRequest) (i : Nat) : Int :=
  let qtyPerSlice := r.totalQty.tdiv r.slicesTotal
  let remainder := r.totalQty - qtyPerSlice * r.slicesTotal
  if (i : Int) = r.slicesTotal - 1 then qtyPerSlice + remainder else qtyPerSlice

/-- The loop of `create_twap`, from slice `i` on, with `n` slices to go. -/
def insertChildren (ids : Nat → Uuid) (twapId : Uuid) (r : CreateTwapRequest) (now : Int) :
    (n i : Nat) → TwapCall TwapError Unit
  | 0, _ => pure ()
  | n + 1, i => do
    -- the intent id is set when the slice is submitted
    let child : TwapChildIntent :=
      { id := ids i, twapId, intentId := nilUuid, sliceIndex := i, qty := r.sliceQty i,
        status := .pending, scheduledAt := now + seconds (r.intervalSecs * i), createdAt := now }
    twapSql (.insertChild child)
    insertChildren ids twapId r now n (i + 1)

def createTwap (env : Env) (r : CreateTwapRequest) : TwapCall TwapError TwapIntent := do
  Call.failIf (r.intervalSecs ≤ 0 ∨ r.durationSecs ≤ 0)
    (.InvalidParams "duration and interval must be positive")
  Call.failIf (r.totalQty ≤ 0) (.InvalidParams "total_qty must be positive")
  Call.failIf (r.intervalSecs > r.durationSecs) (.InvalidParams "interval cannot exceed duration")
  -- `total_qty / slices_total`
  Call.failIf (r.slicesTotal = 0) .panicked
  let now := env.now 0
  let id := env.uuid 0
  let twap : TwapIntent :=
    { id, userId := r.userId, accountId := r.accountId, tokenIn := r.tokenIn, tokenOut := r.tokenOut,
      totalQty := r.totalQty, filledQty := 0, minPrice := r.minPrice, durationSecs := r.durationSecs,
      intervalSecs := r.intervalSecs, slicesTotal := r.slicesTotal, slicesCompleted := 0,
      status := .Active, createdAt := now, finishedAt := none }
  twapSql (.insertTwap twap)
  insertChildren (env.drop 1).uuid id r now r.slicesTotal.toNat 0
  return twap

def recordChildCompleted (now : Int) (twapId childId : Uuid) (filledQty : Int) :
    TwapCall TwapError Unit := do
  let rows ← twapSql (.completeChild childId)
  Call.doIf (rows ≠ 0) (do
    twapSql (.addFilled twapId filledQty)
    let row ← twapSql (.selectTwap twapId)
    let twap ← Call.orThrow row .NotFound
    Call.doIf (twap.filledQty ≥ twap.totalQty ∨ twap.slicesCompleted ≥ twap.slicesTotal)
      (twapSql (.finishTwap twapId .Completed now)))

def recordChildExpired (now : Int) (twapId childId : Uuid) : TwapCall TwapError Unit := do
  let rows ← twapSql (.expireChild childId)
  Call.doIf (rows ≠ 0) (do
    twapSql (.addSlice twapId)
    let row ← twapSql (.selectTwap twapId)
    let twap ← Call.orThrow row .NotFound
    Call.doIf (twap.slicesCompleted ≥ twap.slicesTotal ∧ twap.filledQty < twap.totalQty)
      (twapSql (.finishTwap twapId .Failed now)))

def recordChildFailed (childId : Uuid) : TwapCall TwapError Unit := do
  let _ ← twapSql (.failChild childId)

/-! ## The listener -/

/-- `process_intent_settled`: what the end of an intent means for the slice it was made for.
Errors are logged. -/
def processIntentSettled (now : Int) (event : IntentSettledEvent) : TwapCall Empty Unit := do
  let row ← Call.attempt (TwapStmt.selectChildByIntent event.intentId)
  match row.join with
  | none => pure ()
  | some child =>
    match event.status with
    | .Completed => Call.ignore (recordChildCompleted now child.twapId child.id event.settledQty)
    | .Expired => Call.ignore (recordChildExpired now child.twapId child.id)
    -- a partial fill waits for the final state
    | _ => pure ()

end IntentX
