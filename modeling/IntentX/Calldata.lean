import IntentX.EthSign
import IntentX.Lib.Abi
import IntentX.MessageIds
import IntentX.Recipients

/-!
# The calldata of the locks

`encode_transfer_tokens` of `src/cross_chain/wormhole.rs` and `encode_oft_send` of
`src/cross_chain/layerzero.rs`, and what a contract reads from them.

    transferTokens(address token, uint256 amount, uint16 recipientChain, bytes32 recipient,
                   uint256 arbiterFee, uint32 nonce)
    send((uint32 dstEid, bytes32 to, uint256 amountLD, uint256 minAmountLD,
          bytes extraOptions, bytes composeMsg, bytes oftCmd))
-/

namespace IntentX

open Lib Text Bytes Abi

/-! ## Wormhole: `transferTokens` -/

namespace Wormhole

def transferTokensSelector : Bytes := [0x01, 0x93, 0x09, 0x55]

/-- `nonce` is the number that is drawn. -/
def encodeTransferTokens (token : String) (amount : UInt64) (destChainId : UInt16) (recipient : String)
    (nonce : UInt32) : Bytes :=
  transferTokensSelector ++
    (List.replicate 12 0 ++ dataBytes token) ++
    (List.replicate 24 0 ++ toBeBytes 8 amount.toNat) ++
    (List.replicate 30 0 ++ toBeBytes 2 destChainId.toNat) ++
    recipientWord recipient ++
    List.replicate 32 0 ++
    (List.replicate 28 0 ++ toBeBytes 4 nonce.toNat)

/-- The arguments of the call. -/
structure TransferTokens where
  token : Bytes
  amount : Nat
  recipientChain : Nat
  recipient : Bytes
  arbiterFee : Nat
  nonce : Nat
  deriving DecidableEq

def transferTokens : Reader TransferTokens := do
  let _ ← take 4
  return ⟨← address, ← uint 256, ← uint 16, ← take 32, ← uint 256, ← uint 32⟩

/-- The addresses of a chain, and the 32 bytes that they stand for: 20 bytes in hexadecimal, of Solana 32, in
base58 or in hexadecimal. -/
inductive Recipient (chain text : String) : Bytes → Prop where
  | evm {a : Bytes} (hchain : chain ≠ "solana") (hhex : hexDecode (strip0x text) = some a)
      (hlen : a.length = 20) : Recipient chain text (padLeft a)
  | base58 {r : Bytes} (hchain : chain = "solana") (hdec : SolanaSigning.bs58Decode text = some (.ok r))
      (hlen : r.length = 32) : Recipient chain text r
  | hex {r : Bytes} (hchain : chain = "solana") (hhex : hexDecode (strip0x text) = some r)
      (hlen : r.length = 32) : Recipient chain text r

/-- The call is the transfer of the token, the amount, the destination and the recipient. -/
structure Intended (params : BridgeTransferParams) (destChainId : UInt16) (recipient calldata : Bytes) : Prop where
  length : calldata.length = 4 + 6 * 32
  decodes : ∃ token nonce, hexDecode (strip0x params.token) = some token ∧
    transferTokens.whole calldata =
      some ⟨token, params.amount.toNat, destChainId.toNat, recipient, 0, nonce⟩

/-- Whatever the node answers and whatever nonce is drawn: the lock fails, or its call is what was intended. -/
def LocksIntended (params : BridgeTransferParams) (recipient : Bytes) : Prop :=
  ∀ node nonce, (∃ e, BridgeKind.wormhole.lockFunds node params = .error e) ∨
    ∃ destChainId, chainId params.destChain = some destChainId ∧
      Intended params destChainId recipient
        (encodeTransferTokens params.token params.amount destChainId params.recipient nonce)

/-- The route is refused, or the token is an address of 20 bytes and the recipient is written in hexadecimal. -/
def Readable (params : BridgeTransferParams) : Prop :=
  chainId params.sourceChain = none ∨ chainId params.destChain = none ∨
    (∃ token, hexDecode (strip0x params.token) = some token ∧ token.length = 20) ∧
      (params.destChain = "solana" →
        ∃ r, hexDecode (strip0x params.recipient) = some r ∧ r.length = 32)

section Transfer

variable {params : BridgeTransferParams} {r : Bytes} {s : String}

theorem length_recipientWord (s : String) : (recipientWord s).length = 32 := by
  simp [recipientWord]

theorem recipientWord_of_length_le (h : (dataBytes s).length ≤ 32) : recipientWord s = padLeft (dataBytes s) := by
  rw [recipientWord, Nat.min_eq_left h, List.take_length]
  rfl

theorem length_encodeTransferTokens (token : String) (amount : UInt64) (dest : UInt16) (recipient : String)
    (nonce : UInt32) : (encodeTransferTokens token amount dest recipient nonce).length =
      176 + (dataBytes token).length := by
  simp [encodeTransferTokens, length_recipientWord, length_toBeBytes, transferTokensSelector]
  omega

/-- The call in words. -/
theorem encodeTransferTokens_eq (token : String) (amount : UInt64) (dest : UInt16) (recipient : String)
    (nonce : UInt32) (htoken : (dataBytes token).length = 20) :
    encodeTransferTokens token amount dest recipient nonce =
      transferTokensSelector ++ (padLeft (dataBytes token) ++ (word amount.toNat ++ (word dest.toNat ++
        (recipientWord recipient ++ (word 0 ++ word nonce.toNat))))) := by
  rw [← padLeft_toBeBytes (k := 8) amount.toNat_lt (by decide), ← padLeft_toBeBytes (k := 2) dest.toNat_lt (by decide),
    ← padLeft_toBeBytes (k := 4) nonce.toNat_lt (by decide), show word 0 = List.replicate 32 0 from rfl]
  unfold padLeft
  rw [htoken, length_toBeBytes, length_toBeBytes, length_toBeBytes]
  simp only [encodeTransferTokens, List.append_assoc]

/-- What is read from the call, if the token has 20 bytes. -/
theorem transferTokens_encode (token : String) (amount : UInt64) (dest : UInt16) (recipient : String)
    (nonce : UInt32) (htoken : (dataBytes token).length = 20) :
    transferTokens.whole (encodeTransferTokens token amount dest recipient nonce) =
      some ⟨dataBytes token, amount.toNat, dest.toNat, recipientWord recipient, 0, nonce.toNat⟩ := by
  rw [encodeTransferTokens_eq _ _ _ _ _ htoken]
  refine Reads.whole ?_
  unfold transferTokens
  refine (reads_take (show transferTokensSelector.length = 4 from rfl)).bind ?_
  refine (reads_address htoken).bind ?_
  refine (reads_uint (amount.toNat_lt.trans (by decide)) (by decide)).bind ?_
  refine (reads_uint dest.toNat_lt (by decide)).bind ?_
  refine (reads_take (length_recipientWord recipient)).bind ?_
  refine (reads_uint (by decide) (by decide)).bind ?_
  exact (reads_uint nonce.toNat_lt (by decide)).bind_nil (Reads.pure _)

theorem dataBytes_of_hexDecode {h : Bytes} (hhex : hexDecode (strip0x s) = some h) : dataBytes s = h := by
  rw [dataBytes, hhex]
  rfl

/-- What is put for a recipient is the recipient just if it is written in hexadecimal. -/
theorem recipientWord_eq_iff {chain text : String} (h : Recipient chain text r) : recipientWord text = r ↔
    (chain = "solana" → ∃ r, hexDecode (strip0x text) = some r ∧ r.length = 32) := by
  cases h with
  | evm hchain hhex hlen =>
    have hbytes := dataBytes_of_hexDecode hhex
    rw [← hbytes] at hlen ⊢
    exact iff_of_true (recipientWord_of_length_le (by omega)) fun h => absurd h hchain
  | base58 hchain hdec hlen =>
    refine iff_of_false (recipientWord_ne hdec hlen) fun h => ?_
    obtain ⟨r', hhex, hlen'⟩ := h hchain
    have hlt := length_hexDecode_lt hdec hlen hhex
    omega
  | hex hchain hhex hlen =>
    have hbytes := dataBytes_of_hexDecode hhex
    refine iff_of_true ?_ fun _ => ⟨r, hhex, hlen⟩
    rw [recipientWord_of_length_le (by rw [hbytes, hlen]), hbytes, padLeft, hlen]
    rfl

/-- Of a route that is not served the lock fails. -/
theorem lockFunds_unserved (h : chainId params.sourceChain = none ∨ chainId params.destChain = none)
    (node : Node) : ∃ e, BridgeKind.wormhole.lockFunds node params = .error e := by
  have hlock : ∃ e, lockMessage node params = .error e := by
    unfold lockMessage
    rcases hsource : chainId params.sourceChain with _ | source
    · exact ⟨_, rfl⟩
    · have hdest : chainId params.destChain = none := by
        rcases h with h | h
        · exact nomatch hsource.symm.trans h
        · exact h
      rw [hdest]
      exact ⟨_, rfl⟩
  obtain ⟨e, he⟩ := hlock
  refine ⟨e, ?_⟩
  show (lockMessage node params >>= _) = _
  rw [he]
  rfl

/-- `busyNode` makes every other lock. -/
theorem lockFunds_busyNode {source dest : UInt16} (hsource : chainId params.sourceChain = some source)
    (hdest : chainId params.destChain = some dest) (e : BridgeError) :
    BridgeKind.wormhole.lockFunds busyNode params ≠ .error e := by
  have hbridge : ∃ address, tokenBridge params.sourceChain = some address := by
    unfold chainId at hsource
    unfold tokenBridge
    split at hsource
    all_goals first
      | exact ⟨_, rfl⟩
      | cases hsource
  obtain ⟨address, haddress⟩ := hbridge
  have hlock : ∃ r, lockMessage busyNode params = .ok r := by
    unfold lockMessage
    rw [hsource, hdest, haddress]
    exact ⟨_, rfl⟩
  obtain ⟨r, hr⟩ := hlock
  show (lockMessage busyNode params >>= _) ≠ _
  rw [hr]
  exact nofun

theorem readable_of_locksIntended (hr : Recipient params.destChain params.recipient r)
    (h : LocksIntended params r) : Readable params := by
  rcases hsource : chainId params.sourceChain with _ | source
  · exact .inl hsource
  rcases hdest : chainId params.destChain with _ | dest
  · exact .inr (.inl hdest)
  rcases h busyNode 0 with ⟨e, he⟩ | ⟨dest', hdest', hlength, token, nonce, htoken, hdecodes⟩
  · exact absurd he (lockFunds_busyNode hsource hdest e)
  obtain rfl : dest = dest' := Option.some.inj (hdest.symm.trans hdest')
  have hbytes := dataBytes_of_hexDecode htoken
  rw [length_encodeTransferTokens, hbytes] at hlength
  have hlen : token.length = 20 := by omega
  rw [transferTokens_encode _ _ _ _ _ (by rw [hbytes, hlen]), Option.some.injEq, TransferTokens.mk.injEq]
    at hdecodes
  exact .inr (.inr ⟨⟨token, htoken, hlen⟩, (recipientWord_eq_iff hr).1 hdecodes.2.2.2.1⟩)

theorem locksIntended_of_readable (hr : Recipient params.destChain params.recipient r)
    (h : Readable params) : LocksIntended params r := by
  intro node nonce
  rcases hsource : chainId params.sourceChain with _ | source
  · exact .inl (lockFunds_unserved (.inl hsource) node)
  rcases hdest : chainId params.destChain with _ | dest
  · exact .inl (lockFunds_unserved (.inr hdest) node)
  rcases h with h | h | ⟨⟨token, htoken, hlen⟩, hrecipient⟩
  · exact nomatch hsource.symm.trans h
  · exact nomatch hdest.symm.trans h
  have hbytes := dataBytes_of_hexDecode htoken
  refine .inr ⟨dest, rfl, ?_, token, nonce.toNat, htoken, ?_⟩
  · rw [length_encodeTransferTokens, hbytes, hlen]
  · rw [transferTokens_encode _ _ _ _ _ (by rw [hbytes, hlen]), hbytes, (recipientWord_eq_iff hr).2 hrecipient]

/-- The locks of some parameters are as intended if and only if these are read as they are meant. -/
theorem locksIntended_iff (hr : Recipient params.destChain params.recipient r) :
    LocksIntended params r ↔ Readable params :=
  ⟨readable_of_locksIntended hr, locksIntended_of_readable hr⟩

def usdc : String := "0xA0b86991c6218b36c1d19D4a2e9Eb0cE3606eB48"

/-- To an address of Polygon. -/
def polygonParams : BridgeTransferParams :=
  ⟨"ethereum", "polygon", usdc, 100, "0xa", "0x5a58505a96d1dbf8df91cb21b54419fc36e93fde"⟩

theorem polygonParams_intended : LocksIntended polygonParams (padLeft (dataBytes polygonParams.recipient)) :=
  (locksIntended_iff (.evm (by decide +kernel) (by decide +kernel) (by decide +kernel))).2
    (.inr (.inr ⟨⟨dataBytes usdc, by decide +kernel, by decide +kernel⟩, fun h => absurd h (by decide +kernel)⟩))

/-- To an address of Solana, and the same without a token. -/
def solanaParams (token : String) : BridgeTransferParams :=
  ⟨"ethereum", "solana", token, 100, "0xa", "4Nd1mBQtrMJVYVfKf2PJy9NZUZdTAsp7D4xWLs4gDB4T"⟩

def solanaRecipient : Bytes := toBeBytes 32 0x321cfa5add185e8893a5fd88013ec4d7e122ded46354cadff50d956395e75b60

theorem solanaParams_not_intended :
    Recipient "solana" (solanaParams usdc).recipient solanaRecipient ∧
      ¬ LocksIntended (solanaParams usdc) solanaRecipient ∧ ¬ LocksIntended (solanaParams "") solanaRecipient := by
  have hr : Recipient "solana" (solanaParams usdc).recipient solanaRecipient :=
    .base58 rfl (by decide +kernel) (length_toBeBytes 32 _)
  refine ⟨hr, fun h => ?_, fun h => ?_⟩
  · rcases readable_of_locksIntended hr h with h | h | ⟨-, h⟩
    · exact absurd h (by decide +kernel)
    · exact absurd h (by decide +kernel)
    · obtain ⟨r, hhex, -⟩ := h rfl
      rw [show hexDecode (strip0x (solanaParams usdc).recipient) = none by decide +kernel] at hhex
      cases hhex
  · rcases readable_of_locksIntended hr h with h | h | ⟨⟨token, htoken, hlen⟩, -⟩
    · exact absurd h (by decide +kernel)
    · exact absurd h (by decide +kernel)
    · rw [show hexDecode (strip0x (solanaParams "").token) = some [] by decide +kernel] at htoken
      cases htoken
      cases hlen

end Transfer

end Wormhole

/-! ## LayerZero: `send` -/

namespace LayerZero

def oftSendSelector : Bytes := [0xc7, 0xc7, 0xf5, 0xb3]

/-- `optionsOffset`, and what is added to it: a word for the length and one for the padded data. -/
def optionsOffset : UInt64 := 7 * 32

def composeOffset : UInt64 := optionsOffset + 64

def oftOffset : UInt64 := composeOffset + 32

/-- The product `amount * 99` is checked: `none` is an overflow. -/
def encodeOftSend (dstEid : UInt32) (recipient : String) (amount : UInt64) : Option Bytes := do
  let minAmount := (← EthSign.mul? amount 99) / 100
  return oftSendSelector ++
    (List.replicate 31 0 ++ [0x20]) ++
    (List.replicate 28 0 ++ toBeBytes 4 dstEid.toNat) ++
    Wormhole.recipientWord recipient ++
    (List.replicate 24 0 ++ toBeBytes 8 amount.toNat) ++
    (List.replicate 24 0 ++ toBeBytes 8 minAmount.toNat) ++
    (List.replicate 24 0 ++ toBeBytes 8 optionsOffset.toNat) ++
    (List.replicate 24 0 ++ toBeBytes 8 composeOffset.toNat) ++
    (List.replicate 24 0 ++ toBeBytes 8 oftOffset.toNat) ++
    List.replicate 32 0 ++ List.replicate 32 0 ++ List.replicate 32 0

/-- The words in front of a `SendParam`, with the offsets of its members of any length. -/
structure SendHead where
  dstEid : Nat
  recipient : Bytes
  amountLD : Nat
  minAmountLD : Nat
  extraOptions : Nat
  composeMsg : Nat
  oftCmd : Nat
  deriving DecidableEq

def sendHead : Reader SendHead := do
  return ⟨← uint 32, ← take 32, ← uint 256, ← uint 256, ← uint 256, ← uint 256, ← uint 256⟩

structure SendParam where
  dstEid : Nat
  recipient : Bytes
  amountLD : Nat
  minAmountLD : Nat
  extraOptions : Bytes
  composeMsg : Bytes
  oftCmd : Bytes
  deriving DecidableEq

/-- The tuple of a call, at the offset that stands in front. -/
def sendTuple (calldata : Bytes) : Option Bytes := do
  let (offset, _) ← (uint 256).run (calldata.drop 4)
  return (calldata.drop 4).drop offset

def sendParam (tuple : Bytes) : Option SendParam := do
  let (head, _) ← sendHead.run tuple
  return ⟨head.dstEid, head.recipient, head.amountLD, head.minAmountLD, ← bytesAt tuple head.extraOptions,
    ← bytesAt tuple head.composeMsg, ← bytesAt tuple head.oftCmd⟩

/-- The call is `send` with these parameters, and its offsets are those of three length words. -/
structure Sends (dstEid : UInt32) (recipient : String) (amount : UInt64) (calldata : Bytes) : Prop where
  selector : calldata.take 4 = oftSendSelector
  decodes : ∃ tuple, sendTuple calldata = some tuple ∧
    sendParam tuple = some ⟨dstEid.toNat, padLeft (dataBytes recipient), amount.toNat, 99 * amount.toNat / 100,
      [], [], []⟩ ∧
    ∀ head rest, sendHead.run tuple = some (head, rest) →
      [head.extraOptions, head.composeMsg, head.oftCmd].Nodup ∧
      ∀ offset ∈ [head.extraOptions, head.composeMsg, head.oftCmd], 7 * 32 ≤ offset ∧ offset + 32 ≤ tuple.length

/-- It does not overflow, and the call is as intended. -/
def SendsIntended (dstEid : UInt32) (recipient : String) (amount : UInt64) : Prop :=
  ∃ calldata, encodeOftSend dstEid recipient amount = some calldata ∧ Sends dstEid recipient amount calldata

section Send

variable {dstEid : UInt32} {recipient : String} {amount : UInt64} {calldata : Bytes}

/-- What `encode_oft_send` writes after the offset of the tuple. -/
def oftTuple (dstEid : UInt32) (recipient : String) (amount : UInt64) : Bytes :=
  word dstEid.toNat ++ (Wormhole.recipientWord recipient ++ (word amount.toNat ++
    (word (99 * amount.toNat / 100) ++ (word 224 ++ (word 288 ++ (word 320 ++
      (word 0 ++ (word 0 ++ word 0))))))))

theorem encodeOftSend_eq (dstEid : UInt32) (recipient : String) (amount : UInt64) :
    encodeOftSend dstEid recipient amount = if 99 * amount.toNat < 2 ^ 64 then
      some (oftSendSelector ++ (word 32 ++ oftTuple dstEid recipient amount)) else none := by
  by_cases hfits : 99 * amount.toNat < 2 ^ 64
  · have hmul : EthSign.mul? amount 99 = some (amount * 99) := if_pos (by rw [Nat.mul_comm]; exact hfits)
    have hmin : (amount * 99 / 100).toNat = 99 * amount.toNat / 100 := by
      rw [UInt64.toNat_div, UInt64.toNat_mul]
      show amount.toNat * 99 % 2 ^ 64 / 100 = _
      omega
    rw [if_pos hfits]
    unfold encodeOftSend oftTuple
    rw [hmul, ← hmin, ← padLeft_toBeBytes (k := 4) dstEid.toNat_lt (by decide),
      ← padLeft_toBeBytes (k := 8) amount.toNat_lt (by decide),
      ← padLeft_toBeBytes (k := 8) (amount * 99 / 100).toNat_lt (by decide)]
    simp only [Option.bind_eq_bind, Option.bind_some, List.append_assoc, padLeft, length_toBeBytes]
    rfl
  · have hmul : EthSign.mul? amount 99 = none := if_neg (by rw [Nat.mul_comm]; exact hfits)
    rw [if_neg hfits]
    unfold encodeOftSend
    rw [hmul]
    rfl

theorem length_oftTuple (dstEid : UInt32) (recipient : String) (amount : UInt64) :
    (oftTuple dstEid recipient amount).length = 320 := by
  simp [oftTuple, Wormhole.length_recipientWord]

/-- The static members are read as they are meant, and three offsets of which the last is the length of the
tuple. -/
theorem sendHead_oftTuple (dstEid : UInt32) (recipient : String) (amount : UInt64) :
    ∃ rest, sendHead.run (oftTuple dstEid recipient amount) = some (⟨dstEid.toNat,
      Wormhole.recipientWord recipient, amount.toNat, 99 * amount.toNat / 100, 224, 288, 320⟩, rest) := by
  have hamount := amount.toNat_lt
  have hmin : 99 * amount.toNat / 100 < 2 ^ 256 := by omega
  have hreads : Reads sendHead (word dstEid.toNat ++ (Wormhole.recipientWord recipient ++ (word amount.toNat ++
      (word (99 * amount.toNat / 100) ++ (word 224 ++ (word 288 ++ word 320))))))
      ⟨dstEid.toNat, Wormhole.recipientWord recipient, amount.toNat, 99 * amount.toNat / 100, 224, 288, 320⟩ := by
    unfold sendHead
    refine (reads_uint dstEid.toNat_lt (by decide)).bind ?_
    refine (reads_take (Wormhole.length_recipientWord recipient)).bind ?_
    refine (reads_uint (hamount.trans (by decide)) (by decide)).bind ?_
    refine (reads_uint hmin (by decide)).bind ?_
    refine (reads_uint (by decide) (by decide)).bind ?_
    refine (reads_uint (by decide) (by decide)).bind ?_
    exact (reads_uint (by decide) (by decide)).bind_nil (Reads.pure _)
  refine ⟨word 0 ++ (word 0 ++ word 0), ?_⟩
  have hrun := hreads (word 0 ++ (word 0 ++ word 0))
  simp only [List.append_assoc] at hrun
  exact hrun

theorem sendTuple_encode (tuple : Bytes) : sendTuple (oftSendSelector ++ (word 32 ++ tuple)) = some tuple := by
  have hargs : (oftSendSelector ++ (word 32 ++ tuple)).drop 4 = word 32 ++ tuple := rfl
  have hoffset : (uint 256).run (word 32 ++ tuple) = _ := reads_uint (by decide) (by decide) tuple
  unfold sendTuple
  rw [hargs, hoffset]
  exact congrArg some (List.drop_left' (length_word 32))

/-- Nothing is at the offset of the last member. -/
theorem sendParam_oftTuple (dstEid : UInt32) (recipient : String) (amount : UInt64) :
    sendParam (oftTuple dstEid recipient amount) = none := by
  obtain ⟨rest, hhead⟩ := sendHead_oftTuple dstEid recipient amount
  have hlast := bytesAt_length (oftTuple dstEid recipient amount)
  rw [length_oftTuple] at hlast
  unfold sendParam
  simp only [Option.bind_eq_bind, hhead, Option.bind_some, hlast, Option.bind_none, Option.bind_fun_none]

theorem not_sends (h : encodeOftSend dstEid recipient amount = some calldata) :
    ¬ Sends dstEid recipient amount calldata := by
  rintro ⟨-, tuple, htuple, hparam, -⟩
  rw [encodeOftSend_eq] at h
  split at h
  · cases h
    rw [sendTuple_encode] at htuple
    cases htuple
    rw [sendParam_oftTuple] at hparam
    cases hparam
  · cases h

/-- No call of `send` is as intended, whatever its parameters. -/
theorem sendsIntended_never (dstEid : UInt32) (recipient : String) (amount : UInt64) :
    ¬ SendsIntended dstEid recipient amount := by
  rintro ⟨calldata, hcalldata, hsends⟩
  exact not_sends hcalldata hsends

/-- The call of the tests. -/
theorem oftSend_not_intended : ¬ SendsIntended 30110 "0xdeadbeef" 1000 := by
  rintro ⟨calldata, hcalldata, hsends⟩
  exact not_sends hcalldata hsends

end Send

end LayerZero

end IntentX
