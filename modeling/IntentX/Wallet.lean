import IntentX.Balances
import IntentX.Lib.Text
import Mathlib.Data.List.Infix

/-!
# Payments on chain

`send_settlement_tx` of `src/wallet/service.rs`, what it uses of the Ethereum adapter in
`src/wallet/ethereum.rs` and `src/wallet/erc20_abi.rs`, and of the JSON-RPC client in
`src/wallet/rpc.rs`.

The node and the network are the environment.  What becomes of a request and what the node answers is
open, except for two things: the transaction count of an address is the number of its mined
transactions, and the node does not take a transaction that it has.

A signed transaction stands for its bytes, and the encodings in between for what they encode.  The
registry holds the Ethereum adapter, the database answers, and the waits between two attempts are left
out.  Arithmetic wraps around, as in a release build.
-/

namespace IntentX.OnChain

open Lib

/-! ## Wallets and transactions -/

structure Wallet where
  address : String
  chain : String
  encryptedKey : List UInt8
  nonce : List UInt8
  deriving DecidableEq, Repr

abbrev PrivateKey := List UInt8

structure LegacyTxFields where
  nonce : UInt64
  gasPrice : UInt64
  gasLimit : UInt64
  toAddress : List UInt8
  value : Nat
  data : List UInt8
  chainId : UInt64
  deriving DecidableEq, Repr

structure Eip1559TxFields where
  chainId : UInt64
  nonce : UInt64
  maxPriorityFeePerGas : UInt64
  maxFeePerGas : UInt64
  gasLimit : UInt64
  toAddress : List UInt8
  value : Nat
  data : List UInt8
  deriving DecidableEq, Repr

inductive EthUnsignedTxData where
  | Legacy (tx : LegacyTxFields)
  | Eip1559 (tx : Eip1559TxFields)
  deriving DecidableEq, Repr

def EthUnsignedTxData.nonce : EthUnsignedTxData → UInt64
  | .Legacy tx => tx.nonce
  | .Eip1559 tx => tx.nonce

/-- A transaction with the key that signed it. -/
structure SignedTx where
  tx : EthUnsignedTxData
  key : PrivateKey
  deriving DecidableEq, Repr

/-- What is done with keys: `WalletService::decrypt_wallet_key`, the error that signing ends in if it
does, and the errors of the `hex` crate. -/
structure Crypto where
  decryptKey : Wallet → Except String PrivateKey
  signError : EthUnsignedTxData → PrivateKey → Option String
  hexError : String → String

inductive TxStatus where
  | Pending | Submitted | Confirmed | Failed | Dropped
  deriving DecidableEq, Repr

structure TransactionRecord where
  id : Uuid
  fillId : Option Uuid
  fromAddress : String
  toAddress : String
  chain : String
  txHash : Option String
  amount : Int
  asset : String
  status : TxStatus
  gasPrice : Option Int
  error : Option String
  submittedAt : Option Int
  createdAt : Int
  deriving DecidableEq, Repr

structure SettlementData where
  fromAddress : String
  toAddress : String
  amount : UInt64
  token : String
  deriving DecidableEq, Repr

/-! ## Errors -/

inductive RpcError where
  | Network (e : String)
  | JsonRpc (code : Int) (message : String)
  | Parse (e : String)
  deriving DecidableEq, Repr

def RpcError.text : RpcError → String
  | .Network e => "RPC network error: " ++ e
  | .JsonRpc code message => "RPC error " ++ toString code ++ ": " ++ message
  | .Parse e => "RPC parse error: " ++ e

inductive ChainError where
  | Rpc (e : String)
  | Signing (e : String)
  | Unsupported (e : String)
  deriving DecidableEq, Repr

def ChainError.text : ChainError → String
  | .Rpc e => "RPC: " ++ e
  | .Signing e => "Signing: " ++ e
  | .Unsupported e => "Unsupported: " ++ e

inductive WalletError where
  | SigningError (e : String)
  | RpcError (e : String)
  | UnsupportedChain (e : String)
  | DbError (e : SqlError)
  deriving DecidableEq, Repr

/-- `From<ChainError>` -/
def WalletError.ofChain : ChainError → WalletError
  | .Rpc e => .RpcError e
  | .Signing e => .SigningError e
  | .Unsupported e => .UnsupportedChain e

/-- `Display` of `ParseIntError`. -/
def parseIntError : Text.NumberError → String
  | .empty => "cannot parse integer from empty string"
  | .invalidDigit => "invalid digit found in string"
  | .overflow => "number too large to fit in target type"

/-! ## The JSON-RPC client -/

/-- A JSON value; only strings are looked at. -/
inductive Value where
  | string (s : String)
  | other
  deriving DecidableEq, Repr

def Value.asStr : Value → Option String
  | .string s => some s
  | .other => none

inductive RpcCall where
  /-- `eth_getTransactionCount` of `latest` -/
  | getTransactionCount (address : String)
  | sendRawTransaction (tx : SignedTx)
  | estimateGas (fromAddress toAddress : String) (data : List UInt8)
  | getBaseFee
  | maxPriorityFee
  /-- over five blocks, at the 50th percentile -/
  | feeHistory
  | gasPrice

/-- The result, or what is read off it. -/
abbrev RpcCall.Reply : RpcCall → Type
  | .getTransactionCount _ | .sendRawTransaction _ => Value
  | .estimateGas .. => UInt64
  | .getBaseFee | .maxPriorityFee => Option UInt64
  | .feeHistory => List UInt64
  | .gasPrice => Int

inductive WalletOp where
  | rpc (c : RpcCall)
  | insertTransaction (tx : TransactionRecord)
  /-- `… SET status = 'submitted', tx_hash = $2, gas_price = $3, submitted_at = $4 WHERE id = $1` -/
  | updateTxSubmitted (id : Uuid) (txHash : String) (gasPrice now : Int)
  /-- `… SET status = 'failed', error = $2 WHERE id = $1` -/
  | updateTxFailed (id : Uuid) (error : String)

abbrev WalletOp.Reply : WalletOp → Type
  | .rpc c => Except RpcError c.Reply
  | _ => Unit

abbrev WalletCall (E α : Type) := Call WalletOp WalletOp.Reply SqlError E α

/-- `RpcClient::call` -/
def request (c : RpcCall) : WalletCall RpcError c.Reply :=
  ExceptT.mk (.call (.rpc c) fun r => .ret (flatten (fun e => .Network e.text) r))

/-- `trim_start_matches("0x")` -/
def trimHexPrefix : List Char → List Char
  | '0' :: 'x' :: s => trimHexPrefix s
  | s => s

def getNonce (address : String) : WalletCall RpcError UInt64 := do
  let resp ← request (.getTransactionCount address)
  let hex ← Call.orThrow resp.asStr (.Parse "Expected hex nonce")
  match Text.parseHex 64 (trimHexPrefix hex.toList) with
  | .ok n => pure (.ofNat n)
  | .error e => throw (.Parse (parseIntError e))

def sendRawTransaction (tx : SignedTx) : WalletCall RpcError String := do
  let resp ← request (.sendRawTransaction tx)
  Call.orThrow resp.asStr (.Parse "Expected tx hash string")

/-! ## ERC-20 calls -/

/-- `TRANSFER_SELECTOR` -/
def transferSelector : List UInt8 := [0xa9, 0x05, 0x9c, 0xbb]

def encodeAddress (addr : List UInt8) : List UInt8 := List.replicate 12 0 ++ addr

def encodeUint256 (value : Nat) : List UInt8 := List.replicate 16 0 ++ Text.toBeBytes 16 value

def encodeTransfer (recipient : List UInt8) (amount : Nat) : List UInt8 :=
  transferSelector ++ encodeAddress recipient ++ encodeUint256 amount

/-- `strip_prefix("0x")`, or the text without it. -/
def stripHexPrefix : List Char → List Char
  | '0' :: 'x' :: s => s
  | s => s

def parseAddress (c : Crypto) (addr : String) : Except String (List UInt8) :=
  let clean := stripHexPrefix addr.toList
  let len := (clean.map Char.utf8Size).sum
  if len ≠ 40 then .error ("Address must be 40 hex chars, got " ++ toString len)
  else
    match Text.hexDecode clean with
    | some bytes => .ok bytes
    | none => .error ("Invalid hex: " ++ c.hexError (String.ofList clean))

/-! ## Fees -/

def ERC20_TRANSFER_GAS : UInt64 := 65000

def GAS_ESTIMATE_BUFFER_PCT : UInt64 := 120

def DEFAULT_PRIORITY_FEE : UInt64 := 1500000000

def MIN_PRIORITY_FEE : UInt64 := 100000000

def MAX_PRIORITY_FEE : UInt64 := 50000000000

def BASE_FEE_MULTIPLIER : UInt64 := 2

structure GasParams where
  eip1559 : Bool
  baseFee : UInt64
  maxPriorityFee : UInt64
  maxFeePerGas : UInt64
  gasLimit : UInt64
  deriving DecidableEq, Repr

structure FeeEstimate where
  baseFee : UInt64
  priorityFee : UInt64
  total : UInt64
  unit : String
  deriving DecidableEq, Repr

def clampPriorityFee (fee : UInt64) : UInt64 := min (max fee MIN_PRIORITY_FEE) MAX_PRIORITY_FEE

/-- The 50th percentile of the tips, if it is not zero. -/
def medianTip (tips : List UInt64) : Option UInt64 :=
  ((tips.mergeSort fun a b => a ≤ b)[tips.length / 2]?).filter fun median => median > 0

def estimatePriorityFee : WalletCall ChainError UInt64 := do
  let suggested ← ExceptT.lift (request .maxPriorityFee).run
  match suggested with
  | .ok (some fee) => return clampPriorityFee fee
  | _ => do
    let history ← ExceptT.lift (request .feeHistory).run
    match history.toOption.bind medianTip with
    | some median => return clampPriorityFee median
    | none => return DEFAULT_PRIORITY_FEE

def chainRequest (c : RpcCall) : WalletCall ChainError c.Reply :=
  Call.mapErr (fun e => .Rpc e.text) (request c)

def estimateGasParams (fromAddress toContract : String) (calldata : List UInt8) :
    WalletCall ChainError GasParams := do
  let estimate ← ExceptT.lift (request (.estimateGas fromAddress toContract calldata)).run
  let estimatedGas := estimate.toOption.getD ERC20_TRANSFER_GAS
  let gasLimit := max (estimatedGas * GAS_ESTIMATE_BUFFER_PCT / 100) ERC20_TRANSFER_GAS
  let baseFee ← chainRequest .getBaseFee
  match baseFee with
  | some base => do
    let priority ← estimatePriorityFee
    return ⟨true, base, priority, base * BASE_FEE_MULTIPLIER + priority, gasLimit⟩
  | none => do
    let gasPrice ← chainRequest .gasPrice
    return ⟨false, 0, 0, UInt64.ofInt gasPrice, gasLimit⟩

def estimateFees (c : Crypto) (data : SettlementData) : WalletCall ChainError FeeEstimate := do
  match parseAddress c data.toAddress with
  | .error e => throw (.Rpc ("Bad address: " ++ e))
  | .ok toAddr => do
    let gas ← estimateGasParams data.fromAddress data.token (encodeTransfer toAddr data.amount.toNat)
    return ⟨gas.baseFee, gas.maxPriorityFee, gas.maxFeePerGas * gas.gasLimit,
      if gas.eip1559 then "wei (EIP-1559)" else "wei (legacy)"⟩

/-! ## Building and signing -/

def buildSettlementTx (c : Crypto) (chainId : UInt64) (data : SettlementData) :
    WalletCall ChainError EthUnsignedTxData := do
  match parseAddress c data.toAddress with
  | .error e => throw (.Rpc ("Bad recipient: " ++ e))
  | .ok toAddr => do
    let calldata := encodeTransfer toAddr data.amount.toNat
    match parseAddress c data.token with
    | .error e => throw (.Rpc ("Bad token: " ++ e))
    | .ok tokenContract => do
      let nonce ← Call.mapErr (fun e => .Rpc e.text) (getNonce data.fromAddress)
      let gas ← estimateGasParams data.fromAddress data.token calldata
      if gas.eip1559 then
        return .Eip1559 ⟨chainId, nonce, gas.maxPriorityFee, gas.maxFeePerGas, gas.gasLimit,
          tokenContract, 0, calldata⟩
      else
        return .Legacy ⟨nonce, gas.maxFeePerGas, gas.gasLimit, tokenContract, 0, calldata, chainId⟩

def signTransaction (c : Crypto) (tx : EthUnsignedTxData) (key : PrivateKey) :
    WalletCall ChainError SignedTx :=
  match c.signError tx key with
  | some e => throw (.Signing e)
  | none => pure ⟨tx, key⟩

/-! ## Sending -/

/-- `char::to_lowercase`, as far as it yields ASCII. -/
def lowerChar (c : Char) : List Char :=
  if c = Char.ofNat 0x212A then ['k']
  else if c = Char.ofNat 0x130 then ['i', Char.ofNat 0x307]
  else [c.toLower]

def toLowercase (s : String) : List Char := s.toList.flatMap lowerChar

def contains (msg : List Char) (s : String) : Bool := decide (s.toList <:+: msg)

/-- Whether the error is retriable, and its category. -/
def classifySendError (code : Int) (msg : List Char) : Bool × String :=
  if contains msg "nonce too low" || contains msg "nonce is too low" then (true, "nonce_retry")
  else if contains msg "replacement transaction underpriced" || contains msg "underpriced" ||
      contains msg "gas price too low" then (true, "underpriced")
  else if contains msg "already known" || contains msg "already imported" then (false, "already_known")
  else if contains msg "txpool is full" || contains msg "transaction pool" then (true, "pool_full")
  else if contains msg "insufficient funds" || contains msg "insufficient balance" then
    (false, "insufficient_funds")
  else if -32099 ≤ code ∧ code ≤ -32000 ∧ ¬ contains msg "revert" then (true, "server_error")
  else (false, "failed")

def MAX_SEND_RETRIES : Nat := 3

/-- The error that the call ends in when the attempt is not made again. -/
def RpcError.giveUp : RpcError → ChainError
  | .JsonRpc code message => .Rpc ((classifySendError code (toLowercase message)).2 ++ ": " ++ message)
  | e => .Rpc e.text

def RpcError.retriable : RpcError → Bool
  | .JsonRpc code message => (classifySendError code (toLowercase message)).1
  | .Network _ => true
  | .Parse _ => false

/-- The attempts of `send_transaction`, with so many retries left.  An attempt returns unless it is
retriable and a retry is left, so the line after the loop is not reached. -/
def sendAttempts (tx : SignedTx) : Nat → WalletCall ChainError String
  | 0 => Call.mapErr RpcError.giveUp (sendRawTransaction tx)
  | retries + 1 => do
    let sent ← ExceptT.lift (sendRawTransaction tx).run
    match sent with
    | .ok txHash => pure txHash
    | .error e => if e.retriable then sendAttempts tx retries else throw e.giveUp

def sendTransaction (tx : SignedTx) : WalletCall ChainError String := sendAttempts tx MAX_SEND_RETRIES

/-! ## WalletService -/

def adapter (chain : String) : WalletCall WalletError Unit :=
  Call.failIf (chain ≠ "ethereum")
    (.UnsupportedChain (ChainError.Unsupported ("No adapter for chain: " ++ chain)).text)

def decryptWalletKey (c : Crypto) (wallet : Wallet) : WalletCall WalletError PrivateKey :=
  match c.decryptKey wallet with
  | .ok key => pure key
  | .error e => throw (.SigningError e)

/-- What `send_settlement_tx` is given. -/
structure Payment where
  env : Env
  fillId : Uuid
  fromWallet : Wallet
  toAddress : String
  amount : Int
  asset : String

def Payment.settlementData (p : Payment) : SettlementData :=
  ⟨p.fromWallet.address, p.toAddress, UInt64.ofInt p.amount, p.asset⟩

/-- `send_settlement_tx` up to the signed transaction. -/
def signSettlementTx (c : Crypto) (chainId : UInt64) (p : Payment) : WalletCall WalletError SignedTx := do
  adapter p.fromWallet.chain
  let privateKey ← decryptWalletKey c p.fromWallet
  let unsignedTx ← Call.mapErr .ofChain (buildSettlementTx c chainId p.settlementData)
  Call.mapErr .ofChain (signTransaction c unsignedTx privateKey)

def Payment.record (p : Payment) : TransactionRecord where
  id := p.env.uuid 0
  fillId := some p.fillId
  fromAddress := p.fromWallet.address
  toAddress := p.toAddress
  chain := p.fromWallet.chain
  txHash := none
  amount := p.amount
  asset := p.asset
  status := .Pending
  gasPrice := none
  error := none
  submittedAt := none
  createdAt := p.env.now 0

abbrev walletSql (o : WalletOp) : WalletCall WalletError o.Reply := Call.op o .DbError

/-- `send_settlement_tx` from the pending record on. -/
def sendRecorded (c : Crypto) (p : Payment) (signedTx : SignedTx) :
    WalletCall WalletError TransactionRecord := do
  let sent ← ExceptT.lift (sendTransaction signedTx).run
  match sent with
  | .ok txHash => do
    let fee ← ExceptT.lift (estimateFees c p.settlementData).run
    let gasPrice := (fee.toOption.map fun f => asI64 f.total).getD 0
    walletSql (.updateTxSubmitted p.record.id txHash gasPrice (p.env.now 1))
    return { p.record with
      txHash := some txHash
      status := .Submitted
      gasPrice := some gasPrice
      submittedAt := some (p.env.now 2) }
  | .error e => do
    walletSql (.updateTxFailed p.record.id e.text)
    throw (.RpcError e.text)

def sendSettlementTx (c : Crypto) (chainId : UInt64) (p : Payment) :
    WalletCall WalletError TransactionRecord := do
  let signedTx ← signSettlementTx c chainId p
  walletSql (.insertTransaction p.record)
  sendRecorded c p signedTx

/-! ## The node -/

/-- What becomes of a sent transaction: the request does not arrive, or the node decides on it, and its
answer may be lost. -/
inductive Fate where
  | undelivered (e : RpcError)
  | delivered (verdict : Except (Int × String) Value) (loss : Option RpcError)

/-- A node accepts a transaction that it does not have. -/
def Fate.accepts : Fate → Bool
  | .delivered (.ok _) _ => true
  | _ => false

def Fate.answer (known : Bool) : Fate → Except RpcError Value
  | .undelivered e => .error e
  | .delivered _ (some e) => .error e
  | .delivered (.ok v) none => if known then .error (.JsonRpc (-32000) "already known") else .ok v
  | .delivered (.error (code, message)) none =>
    .error (if known then .JsonRpc (-32000) "already known" else .JsonRpc code message)

structure Node where
  /-- the number of mined transactions of an address -/
  mined : String → Nat
  /-- the transactions it has accepted, in their order -/
  accepted : List SignedTx
  /-- what keeps the next request for a transaction count from being answered -/
  countError : Option RpcError

structure WalletWorld where
  records : Table TransactionRecord (·.id) (·.id)
  node : Node

/-- What the environment decides at a step. -/
structure NodeStep where
  mines : String → Nat
  countError : Option RpcError
  fate : Fate
  gas : Except RpcError UInt64
  baseFee : Except RpcError (Option UInt64)
  priorityFee : Except RpcError (Option UInt64)
  feeHistory : Except RpcError (List UInt64)
  gasPrice : Except RpcError Int

/-- The transactions that are mined after the step, and how the node will answer. -/
def Node.after (step : NodeStep) (node : Node) : Node :=
  { node with
    mined := fun address => node.mined address + step.mines address
    countError := step.countError }

/-- `eth_getTransactionCount` -/
def Node.count (node : Node) (address : String) : Except RpcError Value :=
  match node.countError with
  | some e => .error e
  | none => .ok (.string (String.ofList ('0' :: 'x' :: Nat.toDigits 16 (node.mined address))))

/-- `eth_sendRawTransaction` -/
def Node.accept (node : Node) (fate : Fate) (tx : SignedTx) : Node :=
  if fate.accepts ∧ tx ∉ node.accepted then { node with accepted := node.accepted ++ [tx] } else node

def WalletWorld.setRecord (w : WalletWorld) (id : Uuid) (f : TransactionRecord → TransactionRecord)
    (hf : ∀ r, (f r).id = r.id) : WalletWorld :=
  { w with records := w.records.update (fun r => r.id = id) f fun r => ⟨hf r, hf r⟩ }

def execRpc (step : NodeStep) : (c : RpcCall) → Node → Except RpcError c.Reply × Node
  | .getTransactionCount address, node => (node.count address, node)
  | .sendRawTransaction tx, node => (step.fate.answer (tx ∈ node.accepted), node.accept step.fate tx)
  | .estimateGas .., node => (step.gas, node)
  | .getBaseFee, node => (step.baseFee, node)
  | .maxPriorityFee, node => (step.priorityFee, node)
  | .feeHistory, node => (step.feeHistory, node)
  | .gasPrice, node => (step.gasPrice, node)

def execWalletOp (step : NodeStep) : Handler WalletOp WalletOp.Reply SqlError WalletWorld
  | .rpc c, w => (.ok (execRpc step c w.node).1, { w with node := (execRpc step c w.node).2 })
  | .insertTransaction tx, w =>
    match w.records.insert tx with
    | some records => (.ok (), { w with records })
    | none => (.error .uniqueViolation, w)
  | .updateTxSubmitted id txHash gasPrice now, w =>
    (.ok (), w.setRecord id (fun r =>
      { r with
        status := .Submitted
        txHash := some txHash
        gasPrice := some gasPrice
        submittedAt := some now }) fun _ => rfl)
  | .updateTxFailed id error, w =>
    (.ok (), w.setRecord id (fun r => { r with status := .Failed, error := some error }) fun _ => rfl)

/-- One operation, and what the environment does after it. -/
def execWallet (step : NodeStep) : Handler WalletOp WalletOp.Reply SqlError WalletWorld :=
  fun o w => ((execWalletOp step o w).1,
    { (execWalletOp step o w).2 with node := (execWalletOp step o w).2.node.after step })

/-! ## What a call asks -/

/-- The transaction that the operation sends. -/
def WalletOp.sends : WalletOp → Option SignedTx
  | .rpc (.sendRawTransaction tx) => some tx
  | _ => none

/-- The operation asks the node, and sends nothing. -/
def WalletOp.Asks : WalletOp → Prop
  | .rpc (.sendRawTransaction _) => False
  | .rpc _ => True
  | _ => False

section Asks

variable {c : Crypto} {chainId : UInt64} {data : SettlementData}

theorem WalletOp.Asks.sends {o : WalletOp} (h : o.Asks) : o.sends = none := by
  cases o with
  | rpc r =>
    cases r with
    | sendRawTransaction tx => cases h
    | _ => rfl
  | _ => cases h

theorem issues_request {r : RpcCall} (h : (WalletOp.rpc r).Asks) :
    Call.Issues WalletOp.Asks (request r) := ⟨h, fun _ => trivial⟩

theorem estimatePriorityFee_asks : Call.Issues WalletOp.Asks estimatePriorityFee := by
  refine Call.issues_bind (Call.issues_lift (issues_request trivial)) fun suggested => ?_
  split
  · exact Call.issues_pure _
  · refine Call.issues_bind (Call.issues_lift (issues_request trivial)) fun history => ?_
    split
    · exact Call.issues_pure _
    · exact Call.issues_pure _

theorem estimateGasParams_asks (fromAddress toContract : String) (calldata : List UInt8) :
    Call.Issues WalletOp.Asks (estimateGasParams fromAddress toContract calldata) := by
  refine Call.issues_bind (Call.issues_lift (issues_request trivial)) fun estimate => ?_
  refine Call.issues_bind (Call.issues_mapErr (issues_request trivial)) fun baseFee => ?_
  split
  · exact Call.issues_bind estimatePriorityFee_asks fun _ => Call.issues_pure _
  · exact Call.issues_bind (Call.issues_mapErr (issues_request trivial)) fun _ => Call.issues_pure _

theorem estimateFees_asks : Call.Issues WalletOp.Asks (estimateFees c data) := by
  unfold estimateFees
  split
  · exact Call.issues_throw _
  · exact Call.issues_bind (estimateGasParams_asks _ _ _) fun _ => Call.issues_pure _

theorem getNonce_asks (address : String) : Call.Issues WalletOp.Asks (getNonce address) := by
  refine Call.issues_bind (issues_request trivial) fun resp => ?_
  refine Call.issues_bind Call.issues_orThrow fun hex => ?_
  split
  · exact Call.issues_pure _
  · exact Call.issues_throw _

theorem buildSettlementTx_asks : Call.Issues WalletOp.Asks (buildSettlementTx c chainId data) := by
  unfold buildSettlementTx
  split
  · exact Call.issues_throw _
  split
  · exact Call.issues_throw _
  refine Call.issues_bind (Call.issues_mapErr (getNonce_asks _)) fun nonce => ?_
  refine Call.issues_bind (estimateGasParams_asks _ _ _) fun gas => ?_
  split
  · exact Call.issues_pure _
  · exact Call.issues_pure _

theorem signSettlementTx_asks (c : Crypto) (chainId : UInt64) (p : Payment) :
    Call.Issues WalletOp.Asks (signSettlementTx c chainId p) := by
  unfold signSettlementTx adapter decryptWalletKey
  refine Call.issues_bind Call.issues_failIf fun _ => Call.issues_bind ?_ fun privateKey => ?_
  · split
    · exact Call.issues_pure _
    · exact Call.issues_throw _
  refine Call.issues_bind (Call.issues_mapErr buildSettlementTx_asks) fun unsignedTx => ?_
  refine Call.issues_mapErr ?_
  unfold signTransaction
  split
  · exact Call.issues_throw _
  · exact Call.issues_pure _

end Asks

/-! ## A wallet with two payments -/

def demoWallet : Wallet := ⟨"0x00000000000000000000000000000000000000a1", "ethereum", [1], [2]⟩

def demoCrypto : Crypto where
  decryptKey _ := .ok [3]
  signError _ _ := none
  hexError s := s

inductive Payee where
  | first | second
  deriving DecidableEq, Repr

/-- 10 tokens to one of two addresses. -/
def demoPayment (i : Payee) : Payment where
  env := ⟨fun n => n + if i = .first then 10 else 20, fun n => n⟩
  fillId := if i = .first then 1 else 2
  fromWallet := demoWallet
  toAddress := if i = .first then "0x00000000000000000000000000000000000000b1" else
    "0x00000000000000000000000000000000000000b2"
  amount := 10
  asset := "0x00000000000000000000000000000000000000c1"

/-- The node accepts what it is sent, at a base fee of so much; so many transactions are mined after
the step. -/
def demoStep (base : UInt64) (mines : Nat) : NodeStep where
  mines _ := mines
  countError := none
  fate := .delivered (.ok (.string "0xd1")) none
  gas := .ok 50000
  baseFee := .ok (some base)
  priorityFee := .ok (some base)
  feeHistory := .ok []
  gasPrice := .ok 0

def demoWorld : WalletWorld := ⟨.empty, ⟨fun _ => 0, [], none⟩⟩

end IntentX.OnChain
