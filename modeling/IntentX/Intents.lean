import IntentX.Balances

/-!
# Intents

`src/risk/service.rs` (the check of an intent), `src/services/intent_service.rs` and
`expire_intent` of `src/workers/intent_expiry.rs`.

These functions mix single statements, transactions and messages.  `Tx` lists the transactions;
the body of each is a program of statements, rolled back when it returns an error.  `Act` is what
another task can come between: a statement on the pool, a whole transaction, a message.  Each
transaction reads the intent row with `FOR UPDATE` before it writes the row, or writes it without
reading it, so no other status write falls inside one.
-/

namespace IntentX

open Lib

/-- `Display` of the `Debug` name. -/
def IntentStatus.text : IntentStatus → String
  | .Open => "Open"
  | .Bidding => "Bidding"
  | .Matched => "Matched"
  | .PartiallyFilled => "PartiallyFilled"
  | .Executing => "Executing"
  | .Completed => "Completed"
  | .Failed => "Failed"
  | .Cancelled => "Cancelled"
  | .Expired => "Expired"

/-- `to_uppercase()`, as far as `upperChar` has it. -/
def upperText (token : String) : String := String.ofList (token.toList.map upperChar)

/-! ## The risk check -/

/-- The rejections of an intent; percentages are the texts that `{:.1}` prints. -/
inductive RiskRejection where
  | InsufficientBalance (available : Int) (required : UInt64)
  | BelowMinOrderSize (min : Int) (got : UInt64)
  | PriceDeviationTooHigh (deviationPct maxPct : String)
  | MarketNotFound
  | RateLimitExceeded (limit : UInt64)
  | DailyVolumeLimitExceeded (used limit : UInt64)
  | InvalidAsset (token : String)
  | MissingChainConfig (msg : String)
  deriving DecidableEq, Repr

def RiskRejection.text : RiskRejection → String
  | .InsufficientBalance available required =>
    "Insufficient balance: have " ++ toString available ++ ", need " ++ toString required
  | .BelowMinOrderSize min got => "Order size " ++ toString got ++ " below minimum " ++ toString min
  | .PriceDeviationTooHigh deviation max =>
    "Price deviation " ++ deviation ++ "% exceeds max " ++ max ++ "%"
  | .MarketNotFound => "Market not found"
  | .RateLimitExceeded limit => "Rate limit exceeded: max " ++ toString limit ++ " intents per minute"
  | .DailyVolumeLimitExceeded used limit =>
    "Daily volume " ++ toString used ++ " exceeds limit " ++ toString limit
  | .InvalidAsset a => "Invalid asset: " ++ a
  | .MissingChainConfig msg => "Chain config: " ++ msg

structure IntentRiskParams where
  userId : String
  accountId : Uuid
  tokenIn : String
  tokenOut : String
  amountIn : UInt64
  minAmountOut : UInt64

/-- What the services answer the risk engine: the markets and the account's balances, from the
cache or the database (`none` is an error), and the outcome of the two checks on floating-point
prices and on the user's recent activity. -/
structure RiskView where
  markets : Option (List Market)
  balances : Option (List Balance)
  priceDeviation : Option RiskRejection
  userLimits : Option RiskRejection

/-- `find_market`: the pair in either direction. -/
def findMarket (markets : List Market) (assetIn assetOut : Asset) : Option Market :=
  markets.find? fun m =>
    (m.baseAsset == assetIn && m.quoteAsset == assetOut) ||
      (m.baseAsset == assetOut && m.quoteAsset == assetIn)

def rejectIf (c : Prop) [Decidable c] (r : RiskRejection) : Except RiskRejection Unit :=
  if c then throw r else pure ()

def rejectWith : Option RiskRejection → Except RiskRejection Unit
  | some r => throw r
  | none => pure ()

/-- `check_balance`. -/
def checkBalance (view : RiskView) (asset : Asset) (required : UInt64) :
    Except RiskRejection Unit := do
  let some balances := view.balances | throw (.InsufficientBalance 0 required)
  let available := ((balances.find? fun b => b.asset == asset).map (·.availableBalance)).getD 0
  rejectIf (available < asI64 required) (.InsufficientBalance available required)

/-- `RiskEngine::validate_intent`. -/
def validateIntent (view : RiskView) (p : IntentRiskParams) : Except RiskRejection Market := do
  let some assetIn := parseAsset p.tokenIn | throw (.InvalidAsset (upperText p.tokenIn))
  let some assetOut := parseAsset p.tokenOut | throw (.InvalidAsset (upperText p.tokenOut))
  let some market := view.markets.bind (findMarket · assetIn assetOut) | throw .MarketNotFound
  rejectIf (market.chain ≠ "ethereum" ∧ market.chain ≠ "solana")
    (.MissingChainConfig ("Unknown chain: " ++ market.chain))
  rejectIf (market.chain = "solana" ∧ market.baseTokenMint = none)
    (.MissingChainConfig "Solana market missing base_token_mint")
  rejectIf (asI64 p.amountIn < market.minOrderSize)
    (.BelowMinOrderSize market.minOrderSize p.amountIn)
  checkBalance view assetIn p.amountIn
  rejectWith view.priceDeviation
  rejectWith view.userLimits
  return market

theorem rejectIf_bind_ok {c : Prop} [Decidable c] {r : RiskRejection} {α : Type}
    {f : Unit → Except RiskRejection α} {x : α} :
    (rejectIf c r >>= f) = .ok x ↔ ¬ c ∧ f () = .ok x := by
  unfold rejectIf
  split
  · next hc => exact ⟨fun h => (nomatch h), fun h => absurd hc h.1⟩
  · next hc => exact ⟨fun h => ⟨hc, h⟩, fun h => h.2⟩

/-- An accepted intent is at least the minimum order size of a market. -/
theorem validateIntent_ok {view : RiskView} {p : IntentRiskParams} {m : Market}
    (h : validateIntent view p = .ok m) :
    ∃ ms, view.markets = some ms ∧ m ∈ ms ∧ m.minOrderSize ≤ asI64 p.amountIn := by
  unfold validateIntent at h
  split at h
  case h_2 => cases h
  split at h
  case h_2 => cases h
  split at h
  case h_2 => cases h
  next market hmarket =>
  obtain ⟨ms, hms, hfind⟩ := Option.bind_eq_some_iff.1 hmarket
  simp only [rejectIf_bind_ok] at h
  obtain ⟨-, -, hmin, h⟩ := h
  -- the checks that remain return the market they were given
  have hm : market = m := by
    simp only [bind, Except.bind] at h
    split at h
    · cases h
    split at h
    · cases h
    split at h
    · cases h
    exact Except.ok.inj h
  subst hm
  exact ⟨ms, hms, List.mem_of_find?_eq_some hfind, by omega⟩

/-! ## Transactions -/

inductive IntentError where
  | InsufficientBalance
  | InvalidAsset (token : String)
  | IntentNotFound
  | NotAmendable (msg : String)
  | RiskRejected (msg : String)
  | RedisError (msg : String)
  | StorageError (msg : String)
  deriving DecidableEq, Repr

def IntentError.text : IntentError → String
  | .InsufficientBalance => "Insufficient balance"
  | .InvalidAsset a => "Invalid asset: " ++ a
  | .IntentNotFound => "Intent not found"
  | .NotAmendable s => "Intent cannot be amended: " ++ s
  | .RiskRejected e => "Risk rejected: " ++ e
  | .RedisError e => "Redis error: " ++ e
  | .StorageError e => "Storage error: " ++ e

/-- `map_err(|e| IntentError::StorageError(e.to_string()))`. -/
def IntentError.ofSql (e : SqlError) : IntentError := .StorageError e.text

def IntentStatus.amendable (s : IntentStatus) : Bool := s == .Open || s == .Bidding

theorem not_terminal_of_amendable {st : IntentStatus} (h : st.amendable = true) :
    st.terminal = false := by
  cases st <;> first | rfl | cases h

/-- `create_intent` between `begin` and `commit`: check the balance, lock the funds, insert. -/
def createBody (accountId : Uuid) (asset : Asset) (amount now : Int) (intent : Intent) :
    Sql IntentError Unit := do
  let row ← query (.selectBalance accountId asset) .ofSql
  let available := (row.map (·.availableBalance)).getD 0
  Call.failIf (available < amount) .InsufficientBalance
  query (.lockFunds accountId asset amount now) .ofSql
  query (.insertIntent intent) .ofSql

/-- The transaction of `cancel_intent` and `fail_intent`.  The amount was read before `begin`, and
neither the locked balance nor the status is looked at again. -/
def releaseBody (intentId accountId : Uuid) (asset : Asset) (amount now : Int)
    (status : IntentStatus) : Sql IntentError Unit := do
  query (.unlockFunds accountId asset amount now) .ofSql
  query (.setIntentStatus intentId status) .ofSql

/-- The balance adjustment of `amend_intent`. -/
def adjustLock (ar : Arith) (accountId : Uuid) (asset : Asset) (diff now : Int) :
    Sql IntentError Unit :=
  if 0 < diff then do
    let row ← query (.selectBalance accountId asset) .ofSql
    Call.failIf ((row.map (·.availableBalance)).getD 0 < diff) .InsufficientBalance
    query (.lockFunds accountId asset diff now) .ofSql
  else if diff < 0 then
    query (.unlockFunds accountId asset (ar.rust (-diff)) now) .ofSql
  else pure ()

/-- `amend_intent` between `begin` and `commit`. -/
def amendBody (ar : Arith) (intentId accountId : Uuid) (newAmountIn newMinAmountOut : Option UInt64)
    (newLimitPrice : Option Int) (now : Int) : Sql IntentError Unit := do
  let row ← query (.selectIntent intentId) .ofSql
  let intent ← Call.orThrow row .IntentNotFound
  Call.failIf (¬ intent.status.amendable) (.NotAmendable ("status is " ++ intent.status.text))
  let asset ← Call.orThrow (parseAsset intent.tokenIn) (.InvalidAsset (upperText intent.tokenIn))
  let newAmount := (newAmountIn.map asI64).getD intent.amountIn
  let amendmentCount ← query (.countAmendments intentId) .ofSql
  let amendmentNumber := (asI32 amendmentCount + 1).bmod (2 ^ 32)
  adjustLock ar accountId asset (ar.rust (newAmount - intent.amountIn)) now
  let amendment (fieldChanged : String) (old new : Int) : IntentAmendment :=
    { intentId, amendmentNumber, fieldChanged, oldValue := toString old, newValue := toString new,
      amendedBy := intent.userId }
  Call.doIf (newAmount ≠ intent.amountIn)
    (query (.insertAmendment (amendment "amount_in" intent.amountIn newAmount)) .ofSql)
  let newMinOut := (newMinAmountOut.map asI64).getD intent.minAmountOut
  Call.doIf (newMinOut ≠ intent.minAmountOut)
    (query (.insertAmendment (amendment "min_amount_out" intent.minAmountOut newMinOut)) .ofSql)
  Call.doIf (newLimitPrice.isSome ∧ newLimitPrice ≠ intent.limitPrice)
    (query (.insertAmendment
      (amendment "limit_price" (intent.limitPrice.getD 0) (newLimitPrice.getD 0))) .ofSql)
  -- back to open, which restarts the auction
  query (.amendIntentRow intentId newAmount newMinOut (newLimitPrice.or intent.limitPrice)) .ofSql

/-- `expire_intent` between `begin` and `commit`.  `intent` is the row the scan returned earlier;
only the status is read again.  Answers whether the expiry is announced. -/
def expireBody (intent : Intent) (now : Int) : Sql SqlError Bool := do
  let current ← sql (.selectIntent intent.id)
  match current with
  | none => return false
  | some current =>
    if current.status.amendable then do
      sql (.setIntentStatus intent.id .Expired)
      let accountId ← sql (.accountByUser intent.userId)
      match accountId, parseAsset intent.tokenIn with
      | some accountId, some asset => do
        sql (.unlockFundsIfLocked accountId asset intent.amountIn now)
        return true
      | some _, none => return false
      | none, _ => return true
    else return false

inductive Tx where
  | create (accountId : Uuid) (asset : Asset) (amount now : Int) (intent : Intent)
  | release (intentId accountId : Uuid) (asset : Asset) (amount now : Int) (status : IntentStatus)
  | amend (intentId accountId : Uuid) (newAmountIn newMinAmountOut : Option UInt64)
      (newLimitPrice : Option Int) (now : Int)
  | expire (intent : Intent) (now : Int)

abbrev Tx.Reply : Tx → Type
  | .expire .. => Bool
  | _ => Unit

/-! ## What a task does between two points where another can run -/

inductive Act where
  | sql (o : Stmt)
  | tx (t : Tx)
  | publish (e : Event)
  | stream (e : StreamEvent)

abbrev Act.Reply : Act → Type
  | .sql o => o.Reply
  | .tx t => t.Reply
  | .publish _ | .stream _ => Unit

inductive ActError where
  | db (e : SqlError)
  | intent (e : IntentError)
  | redis (msg : String)
  deriving DecidableEq, Repr

def Tx.body (ar : Arith) : (t : Tx) → Sql ActError t.Reply
  | .create a s x now i => Call.mapErr .intent (createBody a s x now i)
  | .release id a s x now st => Call.mapErr .intent (releaseBody id a s x now st)
  | .amend id a x y p now => Call.mapErr .intent (amendBody ar id a x y p now)
  | .expire i now => Call.mapErr .db (expireBody i now)

/-- The state of Redis: which messages it takes, and what it answers when it does not. -/
structure Bus where
  takes : Event → Bool
  takesStream : StreamEvent → Bool
  down : String

/-- What an act does alone. -/
def execAct (ar : Arith) (bus : Bus) : (o : Act) → World → Except ActError o.Reply × World
  | .sql o, w => ((execStmt ar o w).1.mapError .db, (execStmt ar o w).2)
  | .tx t, w => Call.transaction (execStmt ar) (t.body ar) w
  | .publish e, w =>
    if bus.takes e then (.ok (), { w with events := w.events ++ [e] }) else (.error (.redis bus.down), w)
  | .stream e, w =>
    if bus.takesStream e then (.ok (), { w with streams := w.streams ++ [e] })
    else (.error (.redis bus.down), w)

/-- A program of acts with an error `E` of its own. -/
abbrev Task (E α : Type) := Call Act Act.Reply ActError E α

/-- A statement on the pool whose error is dropped (`.ok()`, `unwrap_or`, `let _ =`). -/
abbrev trySql {E : Type} (o : Stmt) : Task E (Option o.Reply) := Call.attempt (Act.sql o)

/-- A message whose error is dropped. -/
abbrev trySend {E : Type} (o : Act) : Task E (Option o.Reply) := Call.attempt o

/-- `Storage::get_intent`: an error of the database reads as no row. -/
def getIntent {E : Type} (id : Uuid) : Task E (Option Intent) := do
  let row ← trySql (.selectIntent id)
  return row.join

/-! ## The intent service -/

/-- How an error of an act reaches the caller of the intent service. -/
def ActError.toIntent : ActError → IntentError
  | .db e => .ofSql e
  | .intent e => e
  | .redis msg => .RedisError msg

abbrev act (o : Act) : Task IntentError o.Reply := Call.op o ActError.toIntent

def createIntent (env : Env) (view : RiskView) (userId : String) (accountId : Uuid)
    (tokenIn tokenOut : String) (amountIn minAmountOut : UInt64) (deadline : Int) :
    Task IntentError Intent := do
  match validateIntent view { userId, accountId, tokenIn, tokenOut, amountIn, minAmountOut } with
  | .error e => throw (.RiskRejected e.text)
  | .ok _ => do
    let asset ← Call.orThrow (parseAsset tokenIn) (.InvalidAsset (upperText tokenIn))
    let intent :=
      Intent.new (env.uuid 0) userId tokenIn tokenOut amountIn minAmountOut deadline (env.now 0)
    act (.tx (.create accountId asset (asI64 amountIn) (env.now 1) intent))
    act (.publish (.IntentCreated intent))
    let _ ← trySend (.stream (.intentCreated intent))
    return intent

/-- `cancel_intent` and `fail_intent`: release the amount the intent was read with, to whatever
account the caller names, and set the status. -/
def closeIntent (env : Env) (status : IntentStatus) (event : Intent → Event)
    (intentId accountId : Uuid) : Task IntentError (Option Intent) := do
  match ← getIntent intentId with
  | none => return none
  | some intent => do
    let asset ← Call.orThrow (parseAsset intent.tokenIn) (.InvalidAsset (upperText intent.tokenIn))
    act (.tx (.release intentId accountId asset intent.amountIn (env.now 0) status))
    let intent := { intent with status }
    act (.publish (event intent))
    return some intent

def cancelIntent (env : Env) : Uuid → Uuid → Task IntentError (Option Intent) :=
  closeIntent env .Cancelled .IntentCancelled

def failIntent (env : Env) : Uuid → Uuid → Task IntentError (Option Intent) :=
  closeIntent env .Failed .IntentFailed

def amendIntent (env : Env) (intentId accountId : Uuid) (newAmountIn newMinAmountOut : Option UInt64)
    (newLimitPrice : Option Int) : Task IntentError Intent := do
  act (.tx (.amend intentId accountId newAmountIn newMinAmountOut newLimitPrice (env.now 0)))
  let row ← getIntent intentId
  let amended ← Call.orThrow row .IntentNotFound
  act (.publish (.IntentAmended amended))
  return amended

/-! ## The expiry worker -/

def expireIntent (env : Env) (intent : Intent) : Task ActError Unit := do
  let announced ← Call.op (Act.tx (.expire intent (env.now 0))) id
  Call.doIf (announced = true) (do
    let _ ← trySend (.publish (.IntentExpired { intent with status := .Expired }))
    let _ ← trySend (.stream (.intentSettled ⟨intent.id, 0, .Expired⟩)))

end IntentX
