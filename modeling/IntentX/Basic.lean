import IntentX.Lib.Prog
import IntentX.Lib.Table
import Mathlib.Data.List.Sort

/-!
# Data model

The rows of the tables the settlement core works on (`src/models`, `src/balances/model.rs`,
`src/ledger/model.rs`, `src/settlement/model.rs`, `src/markets/model.rs`,
`src/cross_chain/model.rs`), the events it publishes, and the two ways its 64-bit integers are
read.  Ids and times are numbers; `i64` columns are integers, and `Arith` says what a `+` or `-`
on them returns.
-/

namespace IntentX

open Lib

abbrev Uuid := Nat

/-- Whether a server serves a request: it does, or it does not, or it does and the answer is lost. -/
inductive Fate where
  | served | refused | lost
  deriving DecidableEq, Repr

/-- `Uuid::nil()`. -/
def nilUuid : Uuid := 0

/-- `00000000-0000-0000-0000-000000000001`. -/
def platformAccountId : Uuid := 1

/-- `Duration::seconds`: times are in microseconds. -/
def seconds (n : Int) : Int := n * 1000000

/-- `DateTime::timestamp` -/
def timestamp (t : Int) : Int := t / 1000000

def hexDigit (n : Nat) : Char := "0123456789abcdef".toList.getD n '0'

/-- `id::text`: 32 hex digits in groups of 8, 4, 4, 4 and 12. -/
def uuidText (u : Uuid) : String :=
  let d := (List.range 32).map fun i => hexDigit (u / 16 ^ (31 - i) % 16)
  String.ofList (d.take 8 ++ ['-'] ++ (d.drop 8).take 4 ++ ['-'] ++ (d.drop 12).take 4 ++ ['-'] ++
    (d.drop 16).take 4 ++ ['-'] ++ d.drop 20)

/-! ## 64-bit integers -/

/-- The value of `x as i64` for an integer `x`: two's complement wrap-around. -/
def wrapI64 (x : Int) : Int := x.bmod (2 ^ 64)

def inI64 (x : Int) : Bool := decide (-2 ^ 63 ≤ x) && decide (x < 2 ^ 63)

/-- `n as i32` for a row count. -/
def asI32 (n : Nat) : Int := (n : Int).bmod (2 ^ 32)

/-- `x as i64` for a `u64`. -/
def asI64 (x : UInt64) : Int := wrapI64 x.toNat

/-- How integer arithmetic is read: `rust` is the value of a Rust `+`, `-` on `i64`, and `fits`
says whether Postgres can store a `BIGINT` result (it raises "out of range" otherwise). -/
structure Arith where
  rust : Int → Int
  fits : Int → Bool

/-- Balances as exact integers. -/
def Arith.exact : Arith := ⟨id, fun _ => true⟩

/-- The release build: Rust wraps around, Postgres refuses. -/
def Arith.release : Arith := ⟨wrapI64, inI64⟩

@[simp] theorem Arith.exact_rust (x : Int) : Arith.exact.rust x = x := rfl

theorem inI64_iff {x : Int} : inI64 x = true ↔ -2 ^ 63 ≤ x ∧ x < 2 ^ 63 := by
  unfold inI64
  simp

theorem wrapI64_range (x : Int) : -2 ^ 63 ≤ wrapI64 x ∧ wrapI64 x < 2 ^ 63 := by
  have hlo := Int.le_bmod (x := x) (m := 2 ^ 64) (by decide)
  have hhi := Int.bmod_lt (x := x) (m := 2 ^ 64) (by decide)
  unfold wrapI64
  omega

theorem wrapI64_of_inI64 {x : Int} (h : -2 ^ 63 ≤ x ∧ x < 2 ^ 63) : wrapI64 x = x := by
  exact Int.bmod_eq_of_le (by omega) (by omega)

theorem Arith.release_rust {x : Int} (h : -2 ^ 63 ≤ x ∧ x < 2 ^ 63) : Arith.release.rust x = x :=
  wrapI64_of_inI64 h

/-! ## Assets -/

inductive Asset where
  | USDC | ETH | BTC | SOL
  deriving DecidableEq, Repr

/-- Upper case of one character.  Besides the ASCII letters, `ſ` and `ı` are the only characters
whose upper case is a single ASCII letter, so this decides `to_uppercase() == "…"` for the asset
names as the full Unicode table does. -/
def upperChar (c : Char) : Char :=
  if c = 'ſ' then 'S' else if c = 'ı' then 'I' else c.toUpper

/-- `parse_asset`: the same table in the intent service, the risk engine, the settlement worker
and the expiry worker. -/
def parseAsset (token : String) : Option Asset :=
  match token.toList.map upperChar with
  | ['U', 'S', 'D', 'C'] => some .USDC
  | ['E', 'T', 'H'] => some .ETH
  | ['B', 'T', 'C'] => some .BTC
  | ['S', 'O', 'L'] => some .SOL
  | _ => none

example : parseAsset "eth" = some .ETH := by decide

/-! ## Users, accounts, balances, ledger -/

structure User where
  id : Uuid
  email : String
  deriving DecidableEq, Repr

structure Account where
  id : Uuid
  userId : Uuid
  deriving DecidableEq, Repr

structure Balance where
  id : Uuid
  accountId : Uuid
  asset : Asset
  availableBalance : Int
  lockedBalance : Int
  updatedAt : Int
  deriving DecidableEq, Repr

/-- `UNIQUE (account_id, asset)`. -/
def Balance.key (b : Balance) : Uuid × Asset := (b.accountId, b.asset)

inductive EntryType where
  | DEBIT | CREDIT
  deriving DecidableEq, Repr

inductive ReferenceType where
  | TRADE | DEPOSIT | WITHDRAWAL | FEE
  deriving DecidableEq, Repr

structure LedgerEntry where
  id : Uuid
  accountId : Uuid
  asset : Asset
  amount : Int
  entryType : EntryType
  referenceType : ReferenceType
  referenceId : Uuid
  createdAt : Int
  deriving DecidableEq, Repr

/-! ## Trades, fills, bids -/

inductive TradeStatus where
  | Pending | Settled | Failed
  deriving DecidableEq, Repr

structure Trade where
  id : Uuid
  buyerAccountId : Uuid
  sellerAccountId : Uuid
  solverAccountId : Uuid
  assetIn : Asset
  assetOut : Asset
  amountIn : Int
  amountOut : Int
  platformFee : Int
  solverFee : Int
  status : TradeStatus
  createdAt : Int
  settledAt : Option Int
  deriving DecidableEq, Repr

structure Fill where
  id : Uuid
  intentId : Uuid
  solverId : String
  price : Int
  qty : Int
  filledQty : Int
  txHash : String
  timestamp : Int
  settled : Bool
  settledAt : Option Int
  deriving DecidableEq, Repr

/-- `Fill::new`. -/
def Fill.new (id intentId : Uuid) (solverId : String) (price qty filledQty timestamp : Int) : Fill :=
  { id, intentId, solverId, price, qty, filledQty, txHash := "", timestamp, settled := false,
    settledAt := none }

structure SolverBid where
  id : Uuid
  intentId : Uuid
  solverId : String
  amountOut : Int
  fee : Int
  timestamp : Int
  deriving DecidableEq, Repr

/-! ## Intents -/

inductive IntentStatus where
  | Open | Bidding | Matched | PartiallyFilled | Executing | Completed | Failed | Cancelled | Expired
  deriving DecidableEq, Repr

/-- Completed, Failed, Cancelled and Expired. -/
def IntentStatus.terminal : IntentStatus → Bool
  | .Completed | .Failed | .Cancelled | .Expired => true
  | _ => false

inductive OrderType where
  | Market | Limit | Stop
  deriving DecidableEq, Repr

structure Intent where
  id : Uuid
  userId : String
  tokenIn : String
  tokenOut : String
  amountIn : Int
  minAmountOut : Int
  deadline : Int
  status : IntentStatus
  createdAt : Int
  orderType : OrderType
  limitPrice : Option Int
  stopPrice : Option Int
  stopSide : Option String
  triggeredAt : Option Int
  sourceChain : String
  destinationChain : String
  crossChain : Bool
  deriving DecidableEq, Repr

/-- `Intent::new`. -/
def Intent.new (id : Uuid) (userId tokenIn tokenOut : String) (amountIn minAmountOut : UInt64)
    (deadline createdAt : Int) : Intent :=
  { id, userId, tokenIn, tokenOut, amountIn := asI64 amountIn, minAmountOut := asI64 minAmountOut,
    deadline, status := .Open, createdAt, orderType := .Market, limitPrice := none,
    stopPrice := none, stopSide := none, triggeredAt := none, sourceChain := "ethereum",
    destinationChain := "ethereum", crossChain := false }

@[simp] theorem Intent.new_amountIn (id : Uuid) (userId tokenIn tokenOut : String)
    (amountIn minAmountOut : UInt64) (deadline createdAt : Int) :
    (Intent.new id userId tokenIn tokenOut amountIn minAmountOut deadline createdAt).amountIn =
      asI64 amountIn := by
  simp only [Intent.new]

structure IntentAmendment where
  intentId : Uuid
  amendmentNumber : Int
  fieldChanged : String
  oldValue : String
  newValue : String
  amendedBy : String
  deriving DecidableEq, Repr

/-! ## Executions, markets, cross-chain legs -/

inductive ExecutionStatus where
  | Pending | Executing | Completed | Failed
  deriving DecidableEq, Repr

structure Execution where
  id : Uuid
  intentId : Uuid
  solverId : String
  txHash : String
  status : ExecutionStatus
  createdAt : Int
  deriving DecidableEq, Repr

structure Market where
  id : Uuid
  baseAsset : Asset
  quoteAsset : Asset
  tickSize : Int
  minOrderSize : Int
  chain : String
  baseTokenMint : Option String
  deriving DecidableEq, Repr

inductive LegStatus where
  | Pending | Escrowed | Executing | Confirmed | Failed | Refunded
  deriving DecidableEq, Repr

structure CrossChainLeg where
  id : Uuid
  intentId : Uuid
  fillId : Uuid
  legIndex : Int
  status : LegStatus
  deriving DecidableEq, Repr

/-! ## Events -/

/-- The Pub/Sub events of `src/db/redis.rs` that the modelled functions publish. -/
inductive Event where
  | IntentCreated (i : Intent)
  | IntentMatched (i : Intent) (bid : SolverBid)
  | ExecutionStarted (e : Execution)
  | ExecutionCompleted (e : Execution)
  | IntentCancelled (i : Intent)
  | IntentBidding (i : Intent)
  | IntentFailed (i : Intent)
  | IntentExpired (i : Intent)
  | IntentAmended (i : Intent)
  | StopTriggered (i : Intent)
  deriving DecidableEq, Repr

structure ExecutionCompletedEvent where
  executionId : Uuid
  fillId : Uuid
  intentId : Uuid
  solverId : String
  buyerAccountId : Uuid
  sellerAccountId : Uuid
  tokenIn : String
  tokenOut : String
  deriving DecidableEq, Repr

structure IntentSettledEvent where
  intentId : Uuid
  settledQty : Int
  status : IntentStatus
  deriving DecidableEq, Repr

/-- The Redis stream entries. -/
inductive StreamEvent where
  | intentCreated (i : Intent)
  | executionCompleted (e : ExecutionCompletedEvent)
  | intentSettled (e : IntentSettledEvent)
  deriving DecidableEq, Repr

end IntentX
