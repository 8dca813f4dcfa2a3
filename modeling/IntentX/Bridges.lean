import IntentX.Htlc
import IntentX.Lib.Text

/-!
# The bridge adapters

The two adapters of `src/cross_chain`, Wormhole and LayerZero, as far as the ids of their messages
go: `lock_funds` reads a message off the receipt of its transaction and prints it into the receipt's
`message_id`, and `release_funds` begins by parsing the id it is given.

What the nodes answer is an arbitrary `Node`: the reply to the transaction, to each of the queries
for its receipt, and the number drawn when LayerZero finds no event.  The calldata of the
transaction and what `release_funds` does with a parsed id are left out.
-/

namespace IntentX

open Lib

/-! ## Replies of a node -/

/-- `serde_json::Value`; the value of a number is never read. -/
inductive Json where
  | null
  | bool (b : Bool)
  | number (text : String)
  | string (s : String)
  | array (items : List Json)
  | object (fields : List (String × Json))

namespace Json

def get (key : String) : Json → Option Json
  | object fields => fields.lookup key
  | _ => none

def asArray : Json → Option (List Json)
  | array items => some items
  | _ => none

def asStr : Json → Option String
  | string s => some s
  | _ => none

def isNull : Json → Bool
  | null => true
  | _ => false

end Json

structure JsonRpcError where
  code : Int
  message : String

structure JsonRpcResponse where
  result : Option Json
  error : Option JsonRpcError

/-- What the node of the source chain answers, request by request. -/
structure Node where
  /-- whether an endpoint is registered for the chain -/
  hasRpc : String → Bool
  /-- the reply to `eth_sendTransaction` -/
  sent : Except BridgeError JsonRpcResponse
  /-- the reply to the `i`-th `eth_getTransactionReceipt` -/
  receipt : Nat → Except BridgeError JsonRpcResponse
  /-- `rand::random::<u64>()` -/
  random : UInt64

def evmRpcCall (node : Node) (chain : String) (reply : Except BridgeError JsonRpcResponse) :
    Except BridgeError Json :=
  if node.hasRpc chain then
    match reply with
    | .error e => .error e
    | .ok { error := some err, .. } =>
      .error (.NetworkError ("RPC error " ++ toString err.code ++ ": " ++ err.message))
    | .ok { error := none, result := none } => .error (.NetworkError "null result")
    | .ok { error := none, result := some json } => .ok json
  else .error (.NetworkError ("No RPC for chain: " ++ chain))

def evmGetReceipt (node : Node) (chain : String) (i : Nat) : Except BridgeError (Option Json) := do
  let result ← evmRpcCall node chain (node.receipt i)
  return if result.isNull then none else some result

/-- The attempts of `wait_for_receipt` from the `i`-th on. -/
def receiptFrom (node : Node) (chain txHash : String) : (left i : Nat) → Except BridgeError Json
  | 0, _ => .error (.LockFailed ("Receipt not found after 20 attempts for " ++ txHash))
  | left + 1, i => do
    match ← evmGetReceipt node chain i with
    | some receipt =>
      if ((receipt.get "status").bind (·.asStr)).getD "0x0" = "0x0" then
        .error (.LockFailed "Source tx reverted")
      else .ok receipt
    | none => receiptFrom node chain txHash left (i + 1)

def waitForReceipt (node : Node) (chain txHash : String) : Except BridgeError Json :=
  receiptFrom node chain txHash 20 0

/-- The transaction of a lock, and the check of its hash. -/
def submitLock (node : Node) (chain invalid : String) : Except BridgeError String := do
  let value ← (evmRpcCall node chain node.sent).mapError fun e => .LockFailed e.text
  let txHash := value.asStr.getD ""
  if ¬ "0x".toList <+: txHash.toList ∨ txHash.utf8ByteSize < 66 then
    .error (.LockFailed (invalid ++ ": " ++ txHash))
  else .ok txHash

def strip0x (s : String) : List Char :=
  match s.toList with
  | '0' :: 'x' :: cs => cs
  | cs => cs

/-- `hex::decode(s.strip_prefix("0x").unwrap_or(s)).unwrap_or_default()`. -/
def dataBytes (s : String) : Bytes := (Text.hexDecode (strip0x s)).getD []

def slice (bytes : Bytes) (start stop : Nat) : Bytes := (bytes.take stop).drop start

/-! ## Wormhole -/

namespace Wormhole

def chainId : String → Option UInt16
  | "ethereum" => some 2
  | "solana" => some 1
  | "polygon" => some 5
  | "arbitrum" => some 23
  | "base" => some 30
  | _ => none

def tokenBridge : String → Option String
  | "ethereum" => some "0x3ee18B2214AFF97000D974cf647E7C347E8fa585"
  | "solana" => some "wormDTUJ6AWPNvk59vGQbDvGJmqbDTdgWgAqcLBCgUb"
  | "polygon" => some "0x5a58505a96D1dbf8dF91cB21B54419FC36e93fdE"
  | "arbitrum" => some "0x0b2402144Bb366A632D14B83F244D2e0e21bD39c"
  | "base" => some "0x8d2de8d2f73F1F4cAB472AC9A881C9b123C79627"
  | _ => none

def supportsRoute (source dest : String) : Bool :=
  (chainId source).isSome && (chainId dest).isSome && source != dest

def logMessagePublishedTopic : String :=
  "0x6eb224fb001ed210e379b335e35efe88672a8ce935d981a6896b27ffdf52a3b2"

structure WormholeMessage where
  emitterChain : UInt16
  emitterAddress : String
  sequence : UInt64
  deriving DecidableEq, Repr

def messageId (m : WormholeMessage) : String :=
  toString m.emitterChain.toNat ++ "/" ++ m.emitterAddress ++ "/" ++ toString m.sequence.toNat

def parseMessageId (id : String) : Option WormholeMessage :=
  match Text.splitn '/' 3 id.toList with
  | [chain, emitter, seq] => do
    let chain ← Text.parseUnsigned 16 chain
    let seq ← Text.parseUnsigned 64 seq
    return ⟨.ofNat chain, String.ofList emitter, .ofNat seq⟩
  | _ => none

/-- The loop of `parse_lock_logs`: `?` on a missing field ends it, `continue` goes on. -/
def parseLogs (sourceChainId : UInt16) : List Json → Option WormholeMessage
  | [] => none
  | log :: logs => do
    let topics ← (← log.get "topics").asArray
    match topics with
    | [] => parseLogs sourceChainId logs
    | topic0 :: rest =>
      if topic0.asStr.getD "" ≠ logMessagePublishedTopic then parseLogs sourceChainId logs
      else
        let emitter := (← rest.head?).asStr.getD ""
        let data := dataBytes ((← log.get "data").asStr.getD "")
        if data.length < 32 then parseLogs sourceChainId logs
        else some ⟨sourceChainId, String.ofList (strip0x emitter),
          .ofNat (Text.fromBeBytes (slice data 24 32))⟩

def parseLockLogs (receipt : Json) (sourceChainId : UInt16) : Option WormholeMessage := do
  let logs ← (← receipt.get "logs").asArray
  parseLogs sourceChainId logs

/-- `get_bridge_time(..).typical_secs`. -/
def typicalSecs (source : String) : UInt64 :=
  let sourceFinality :=
    match source with
    | "solana" => 15
    | "ethereum" => 960
    | "polygon" => 256
    | "arbitrum" => 10
    | "base" => 10
    | _ => 120
  sourceFinality + 60

/-- The transaction of `lock_funds` and the message read off its receipt. -/
def lockMessage (node : Node) (params : BridgeTransferParams) :
    Except BridgeError (String × WormholeMessage) := do
  let sourceId ← (chainId params.sourceChain).elim (.error (.UnsupportedRoute params.sourceChain)) .ok
  let _ ← (chainId params.destChain).elim (.error (.UnsupportedRoute params.destChain)) .ok
  let _ ← (tokenBridge params.sourceChain).elim (.error (.UnsupportedRoute params.sourceChain)) .ok
  let txHash ← submitLock node params.sourceChain "Invalid tx hash from source chain"
  let receipt ← waitForReceipt node params.sourceChain txHash
  let message ← (parseLockLogs receipt sourceId).elim
    (.error (.LockFailed "No Wormhole LogMessagePublished in tx logs")) .ok
  return (txHash, message)

end Wormhole

/-! ## LayerZero -/

namespace LayerZero

def endpointId : String → Option UInt32
  | "ethereum" => some 30101
  | "polygon" => some 30109
  | "arbitrum" => some 30110
  | "base" => some 30184
  | _ => none

def oftAddress : String → Option String
  | "ethereum" | "polygon" | "arbitrum" | "base" => some "0x1a44076050125825900e736c501f859c50fE728c"
  | _ => none

def supportsRoute (source dest : String) : Bool :=
  (endpointId source).isSome && (endpointId dest).isSome && source != dest

def packetSentTopic : String :=
  "0xac8e4bc3e8da15fbfbb110aa771c47ec31ea2bdc3c9b6217e5ae42440db52e8c"

/-- The fields of `LzMessage` that make up the id. -/
structure LzMessage where
  srcEid : UInt32
  dstEid : UInt32
  guid : String
  deriving DecidableEq, Repr

/-- The whole of `LzMessage`, as it is read off a receipt; the nonce is only logged. -/
structure SentMessage extends LzMessage where
  nonce : UInt64
  deriving DecidableEq, Repr

def messageId (m : LzMessage) : String :=
  "lz/" ++ toString m.srcEid.toNat ++ "/" ++ toString m.dstEid.toNat ++ "/" ++ m.guid

def parseMessageId (id : String) : Option LzMessage :=
  match Text.splitn '/' 4 id.toList with
  | [tag, src, dst, guid] =>
    if tag = "lz".toList then do
      let src ← Text.parseUnsigned 32 src
      let dst ← Text.parseUnsigned 32 dst
      return ⟨.ofNat src, .ofNat dst, String.ofList guid⟩
    else none
  | _ => none

/-- The packet of an event, after the offset and the length of its ABI encoding. -/
def readPacket (packet : Bytes) : SentMessage :=
  let nonce := Text.fromBeBytes (slice packet 1 9)
  let srcEid := Text.fromBeBytes (slice packet 9 13)
  let dstEid := Text.fromBeBytes (slice packet 45 49)
  let guid := Text.hexPadded 16 nonce ++ Text.hexPadded 8 srcEid ++ Text.hexPadded 8 dstEid
  ⟨⟨.ofNat srcEid, .ofNat dstEid, String.ofList guid ++ toHex (slice packet 13 45)⟩, .ofNat nonce⟩

/-- The loop of `parse_packet_sent`. -/
def parseLogs : List Json → Option SentMessage
  | [] => none
  | log :: logs => do
    let topics ← (← log.get "topics").asArray
    match topics with
    | [] => parseLogs logs
    | topic0 :: _ =>
      if topic0.asStr.getD "" ≠ packetSentTopic then parseLogs logs
      else
        let data := dataBytes ((← log.get "data").asStr.getD "")
        if data.length < 96 then parseLogs logs
        else if (data.drop 64).length < 81 then parseLogs logs
        else some (readPacket (data.drop 64))

def parsePacketSent (receipt : Json) : Option SentMessage := do
  let logs ← (← receipt.get "logs").asArray
  parseLogs logs

def typicalSecs (source : String) : UInt64 :=
  let sourceFinality :=
    match source with
    | "ethereum" => 780
    | "polygon" => 128
    | "arbitrum" => 10
    | "base" => 10
    | _ => 60
  sourceFinality + 30

def lockMessage (node : Node) (params : BridgeTransferParams) :
    Except BridgeError (String × LzMessage) := do
  let srcEid ← (endpointId params.sourceChain).elim (.error (.UnsupportedRoute params.sourceChain)) .ok
  let dstEid ← (endpointId params.destChain).elim (.error (.UnsupportedRoute params.destChain)) .ok
  let _ ← (oftAddress params.sourceChain).elim (.error (.UnsupportedRoute params.sourceChain)) .ok
  let txHash ← submitLock node params.sourceChain "Invalid tx hash"
  let receipt ← waitForReceipt node params.sourceChain txHash
  let lzMsg := (parsePacketSent receipt).getD
    ⟨⟨srcEid, dstEid, String.ofList (Text.hexPadded 16 node.random.toNat)⟩, 0⟩
  return (txHash, lzMsg.toLzMessage)

end LayerZero

/-! ## The adapters together -/

/-- The adapters that are registered, by `name()`. -/
inductive BridgeKind where
  | wormhole | layerzero
  deriving DecidableEq, Repr

namespace BridgeKind

/-- What an adapter puts into the id of a message. -/
abbrev Message : BridgeKind → Type
  | wormhole => Wormhole.WormholeMessage
  | layerzero => LayerZero.LzMessage

def messageId : (b : BridgeKind) → b.Message → String
  | wormhole => Wormhole.messageId
  | layerzero => LayerZero.messageId

def parseMessageId : (b : BridgeKind) → String → Option b.Message
  | wormhole => Wormhole.parseMessageId
  | layerzero => LayerZero.parseMessageId

def lockMessage : (b : BridgeKind) → Node → BridgeTransferParams → Except BridgeError (String × b.Message)
  | wormhole => Wormhole.lockMessage
  | layerzero => LayerZero.lockMessage

def typicalSecs : BridgeKind → String → UInt64
  | wormhole => Wormhole.typicalSecs
  | layerzero => LayerZero.typicalSecs

/-- `lock_funds`. -/
def lockFunds (b : BridgeKind) (node : Node) (params : BridgeTransferParams) :
    Except BridgeError LockReceipt := do
  let (txHash, message) ← b.lockMessage node params
  return ⟨txHash, b.messageId message, b.typicalSecs params.sourceChain⟩

/-- `release_funds`, with what it does once it knows the message. -/
def releaseFunds (b : BridgeKind) (redeem : b.Message → Except BridgeError String) (messageId : String) :
    Except BridgeError String :=
  match b.parseMessageId messageId with
  | none => .error (.ReleaseFailed "Invalid message ID")
  | some message => redeem message

end BridgeKind

/-! ## Reading an id back -/

/-- An id reads back, as long as the emitter has no separator in it. -/
theorem Wormhole.parseMessageId_messageId (m : WormholeMessage) (h : '/' ∉ m.emitterAddress.toList) :
    parseMessageId (messageId m) = some m := by
  have hchain : '/' ∉ Nat.toDigits 10 m.emitterChain.toNat := Text.notMem_toDigits (by decide)
  have hlist : (messageId m).toList = Nat.toDigits 10 m.emitterChain.toNat ++
      '/' :: (m.emitterAddress.toList ++ '/' :: Nat.toDigits 10 m.sequence.toNat) := by
    simp [messageId]
  unfold parseMessageId
  rw [hlist, Text.splitn_append hchain, Text.splitn_append h]
  show (do
    let chain ← Text.parseUnsigned 16 (Nat.toDigits 10 m.emitterChain.toNat)
    let seq ← Text.parseUnsigned 64 (Nat.toDigits 10 m.sequence.toNat)
    return (⟨.ofNat chain, String.ofList m.emitterAddress.toList, .ofNat seq⟩ : WormholeMessage)) = _
  rw [Text.parseUnsigned_toDigits m.emitterChain.toNat_lt, Text.parseUnsigned_toDigits m.sequence.toNat_lt]
  simp

theorem LayerZero.parseMessageId_messageId (m : LzMessage) :
    parseMessageId (messageId m) = some m := by
  have hsrc : '/' ∉ Nat.toDigits 10 m.srcEid.toNat := Text.notMem_toDigits (by decide)
  have hdst : '/' ∉ Nat.toDigits 10 m.dstEid.toNat := Text.notMem_toDigits (by decide)
  have hlist : (messageId m).toList = ['l', 'z'] ++ '/' :: (Nat.toDigits 10 m.srcEid.toNat ++
      '/' :: (Nat.toDigits 10 m.dstEid.toNat ++ '/' :: m.guid.toList)) := by
    simp [messageId]
  unfold parseMessageId
  rw [hlist, Text.splitn_append (by decide), Text.splitn_append hsrc, Text.splitn_append hdst]
  show (do
    let src ← Text.parseUnsigned 32 (Nat.toDigits 10 m.srcEid.toNat)
    let dst ← Text.parseUnsigned 32 (Nat.toDigits 10 m.dstEid.toNat)
    return (⟨.ofNat src, .ofNat dst, String.ofList m.guid.toList⟩ : LzMessage)) = _
  rw [Text.parseUnsigned_toDigits m.srcEid.toNat_lt, Text.parseUnsigned_toDigits m.dstEid.toNat_lt]
  simp

/-! ## Texts that are no ids -/

section Foreign

variable {id : String} {c : Char} {cs : List Char}

theorem Wormhole.parseMessageId_foreign (hid : id.toList = c :: cs) (hsep : c ≠ '/')
    (hdigit : c.isDigit = false) (hplus : c ≠ '+') : parseMessageId id = none := by
  obtain ⟨w, fields, hsplit⟩ := Text.splitn_cons (n := 2) (s := cs) hsep
  unfold parseMessageId
  rw [hid, hsplit]
  match fields with
  | [emitter, seq] =>
    show (Text.parseUnsigned 16 (c :: w)).bind _ = none
    rw [Text.parseUnsigned_cons hdigit hplus]
    rfl
  | [] | [_] | _ :: _ :: _ :: _ => rfl

theorem LayerZero.parseMessageId_foreign (hid : id.toList = c :: cs) (hsep : c ≠ '/')
    (hl : c ≠ 'l') : parseMessageId id = none := by
  obtain ⟨w, fields, hsplit⟩ := Text.splitn_cons (n := 3) (s := cs) hsep
  unfold parseMessageId
  rw [hid, hsplit]
  match fields with
  | [src, dst, guid] =>
    refine if_neg fun heq => hl ?_
    exact (List.cons.inj heq).1
  | [] | [_] | [_, _] | _ :: _ :: _ :: _ :: _ => rfl

/-- No adapter reads an id that begins like neither of theirs. -/
theorem BridgeKind.parseMessageId_foreign (b : BridgeKind) (hid : id.toList = c :: cs) (hsep : c ≠ '/')
    (hdigit : c.isDigit = false) (hplus : c ≠ '+') (hl : c ≠ 'l') : b.parseMessageId id = none := by
  cases b with
  | wormhole => exact Wormhole.parseMessageId_foreign hid hsep hdigit hplus
  | layerzero => exact LayerZero.parseMessageId_foreign hid hsep hl

end Foreign

end IntentX
