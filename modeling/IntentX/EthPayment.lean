import IntentX.EthSign
import IntentX.Lib.Abi
import IntentX.Lib.Commit
import IntentX.WalletNonces

/-!
# Payments as the chain reads them

A wallet of `create_wallet` in `src/wallet/service.rs` has the address of its key, which is stored encrypted
(`src/wallet/signing.rs`).  What `send_settlement_tx` sends from it is the bytes of `sign_eip1559_tx` or
`sign_legacy_tx` in `src/wallet/eth_sign.rs`.

The other level is that of the chain, which knows nothing but these bytes.  It takes them apart, recovers
the sender from the signature, and the token that is called takes a transfer off the data (`transferOf`).
Of all that a node accepts while any number of payments run side by side, it so reads the transfers that
the payments order, each from the wallet and at most one for each payment (`payments_carried_out`).

The keys and what is done with them are those of `EthSign`; AES-256-GCM is open.
-/

namespace IntentX.OnChain

open Lib Bytes EthSign

/-! ## Keys -/

/-- What is used of `aes_gcm`, and what else is used of `k256`. -/
structure KeyStore (k : K256) where
  toBytes : k.SigningKey → Rlp.Word
  /-- under a key, with a nonce -/
  encrypt : Rlp.Word → Vector UInt8 12 → List UInt8 → List UInt8
  decrypt : Rlp.Word → Vector UInt8 12 → List UInt8 → Except String (List UInt8)
  hexError : String → String

structure KeyStore.Lawful {k : K256} (ks : KeyStore k) : Prop where
  signingKey : ∀ key, k.signingKeyFromBytes (ks.toBytes key) = .ok key
  decrypt : ∀ masterKey nonce plaintext,
    ks.decrypt masterKey nonce (ks.encrypt masterKey nonce plaintext) = .ok plaintext

/-- A list that has the length of the array. -/
def asArray (n : Nat) (bs : List UInt8) : Option (Vector UInt8 n) :=
  if h : bs.length = n then some ⟨bs.toArray, h⟩ else none

section Keys

variable {k : K256} (ks : KeyStore k)

/-- `derive_address` of `signing.rs` -/
def deriveAddress (vk : k.VerifyingKey) : String :=
  "0x" ++ String.ofList (Text.hexEncode (pubkeyToAddress k vk).toList)

/-- The pair of a key that is drawn. -/
def generateKeypair (signingKey : k.SigningKey) : Rlp.Word × String :=
  (ks.toBytes signingKey, deriveAddress (k.verifyingKey signingKey))

def encryptKey (privateKey masterKey : Rlp.Word) (nonceBytes : Vector UInt8 12) : List UInt8 × List UInt8 :=
  (ks.encrypt masterKey nonceBytes privateKey.toList, nonceBytes.toList)

/-- `decrypt_key`, and `decrypt_seed` of `solana_signing.rs`, which differ in a text.  A nonce that has not 12
bytes ends in a panic, here as an error. -/
def decryptBytes (wrongLength : String) (ciphertext nonce : List UInt8) (masterKey : Rlp.Word) :
    Except String Rlp.Word := do
  let nonce ← (asArray 12 nonce).elim (.error "panic") .ok
  let plaintext ← (ks.decrypt masterKey nonce ciphertext).mapError ("Decryption failed: " ++ ·)
  (asArray 32 plaintext).elim (.error wrongLength) .ok

def decryptKey (ciphertext nonce : List UInt8) (masterKey : Rlp.Word) : Except String Rlp.Word :=
  decryptBytes ks "Decrypted key has wrong length" ciphertext nonce masterKey

def decryptSeed (ciphertext nonce : List UInt8) (masterKey : Rlp.Word) : Except String Rlp.Word :=
  decryptBytes ks "Decrypted seed has wrong length" ciphertext nonce masterKey

/-- The wallet that `create_wallet` stores and returns for any chain but Solana. -/
def createWallet (masterKey : Rlp.Word) (signingKey : k.SigningKey) (nonceBytes : Vector UInt8 12)
    (chain : String) : Wallet :=
  let (seed, address) := generateKeypair ks signingKey
  let (encryptedKey, nonce) := encryptKey ks seed masterKey nonceBytes
  ⟨address, chain, encryptedKey, nonce⟩

end Keys

/-! ## Signing -/

section Signing

variable (k : K256)

def signEip1559Tx (tx : Rlp.Eip1559TxFields) (privateKey : Rlp.Word) : Except String (List UInt8) := do
  let hash := k.keccak256 (Rlp.encodeEip1559Unsigned tx)
  let (r, s, recoveryId) ← signHash k hash privateKey
  return Rlp.encodeEip1559Signed tx recoveryId.toUInt64 r s

def LegacyTxFields.fields (tx : LegacyTxFields) : Option Rlp.LegacyTxFields := do
  let toAddress ← asArray 20 tx.toAddress
  return ⟨tx.nonce, tx.gasPrice, tx.gasLimit, toAddress, .ofNat 128 tx.value, tx.data, tx.chainId⟩

def Eip1559TxFields.fields (tx : Eip1559TxFields) : Option Rlp.Eip1559TxFields := do
  let toAddress ← asArray 20 tx.toAddress
  return ⟨tx.chainId, tx.nonce, tx.maxPriorityFeePerGas, tx.maxFeePerGas, tx.gasLimit, toAddress,
    .ofNat 128 tx.value, tx.data⟩

/-- The bytes that `sign_transaction` returns; `none` is an overflow. -/
def SignedTx.bytes (t : SignedTx) : Option (Except String (List UInt8)) := do
  let privateKey ← asArray 32 t.key
  match t.tx with
  | .Legacy tx => signLegacyTx k (← tx.fields) privateKey
  | .Eip1559 tx => return signEip1559Tx k (← tx.fields) privateKey

/-- The error of `sign_transaction`. -/
def signError (tx : EthUnsignedTxData) (key : PrivateKey) : Option String :=
  match SignedTx.bytes k ⟨tx, key⟩ with
  | some (.error e) => some e
  | _ => none

variable {k} in
/-- What a wallet service with this master key does with keys. -/
def KeyStore.crypto (ks : KeyStore k) (masterKey : Rlp.Word) : Crypto where
  decryptKey wallet := (·.toList) <$> if wallet.chain = "solana" then
    decryptSeed ks wallet.encryptedKey wallet.nonce masterKey
    else decryptKey ks wallet.encryptedKey wallet.nonce masterKey
  signError := signError k
  hexError := ks.hexError

end Signing

/-! ## The chain -/

/-- A call as a node takes it off the bytes of a transaction. -/
structure ChainCall where
  sender : Rlp.Address
  chainId : UInt64
  nonce : UInt64
  toAddress : Rlp.Address
  value : BitVec 128
  data : List UInt8
  deriving DecidableEq

/-- A transfer of a token. -/
structure TokenTransfer where
  sender : Rlp.Address
  chainId : UInt64
  token : Rlp.Address
  recipient : List UInt8
  amount : Nat
  deriving DecidableEq

section Chain

variable (k : K256)

def readEip1559 (raw : List UInt8) : Option ChainCall := do
  let (tx, yParity, r, s) ← Rlp.decodeEip1559Signed raw
  if 1 < yParity then none
  else
    let sender ← (ecrecover k (k.keccak256 (Rlp.encodeEip1559Unsigned tx)) yParity.toUInt8 r s).toOption
    return ⟨sender, tx.chainId, tx.nonce, tx.toAddress, tx.value, tx.data⟩

def readLegacy (raw : List UInt8) : Option ChainCall := do
  let (tx, v, r, s) ← Rlp.decodeLegacySigned raw
  if v < 35 then none
  else
    let sender ← (ecrecover k (signingHash k tx) (.ofNat ((v.toNat - 35) % 2)) r s).toOption
    return ⟨sender, tx.chainId, tx.nonce, tx.toAddress, tx.value, tx.data⟩

/-- A first byte of 2 is the type of EIP-1559. -/
def readCall (raw : List UInt8) : Option ChainCall :=
  if raw.head? = some 0x02 then readEip1559 k raw else readLegacy k raw

/-- The arguments of `transfer(address,uint256)`. -/
def transferArgs : Reader (List UInt8 × Nat) := do
  let selector ← take 4
  if selector = transferSelector then
    let recipient ← Abi.address
    let amount ← Abi.uint 256
    return (recipient, amount)
  else failure

/-- The transfer that a token carries out for a transaction.  It takes no ether. -/
def transferOf (raw : List UInt8) : Option TokenTransfer := do
  let call ← readCall k raw
  let (recipient, amount) ← transferArgs.whole call.data
  if call.value = 0 then return ⟨call.sender, call.chainId, call.toAddress, recipient, amount⟩ else none

end Chain

def Payment.ofWallet (p : Payment) (wallet : Wallet) : Payment := { p with fromWallet := wallet }

/-- The transfer that a payment orders on some chain: of its amount, as a `u64`. -/
structure Payment.Orders (c : Crypto) (chainId : UInt64) (p : Payment) (t : TokenTransfer) : Prop where
  sender : "0x" ++ String.ofList (Text.hexEncode t.sender.toList) = p.fromWallet.address
  chain : t.chainId = chainId
  token : parseAddress c p.asset = .ok t.token.toList
  recipient : parseAddress c p.toAddress = .ok t.recipient
  amount : (t.amount : Int) = p.amount % 2 ^ 64

/-! ## Keys come back -/

theorem asArray_toList {n : Nat} (v : Vector UInt8 n) : asArray n v.toList = some v := by
  rw [asArray, dif_pos v.length_toList]
  rfl

section Keys

variable {k : K256} {ks : KeyStore k} {masterKey : Rlp.Word} {signingKey : k.SigningKey}
  {nonceBytes : Vector UInt8 12} {chain : String}

theorem decryptBytes_encryptKey (h : ks.Lawful) (wrongLength : String) (privateKey masterKey : Rlp.Word)
    (nonceBytes : Vector UInt8 12) :
    decryptBytes ks wrongLength (encryptKey ks privateKey masterKey nonceBytes).1
      (encryptKey ks privateKey masterKey nonceBytes).2 masterKey = .ok privateKey := by
  unfold decryptBytes encryptKey
  rw [asArray_toList]
  show ((ks.decrypt masterKey nonceBytes (ks.encrypt masterKey nonceBytes privateKey.toList)).mapError _ >>=
    _) = _
  rw [h.decrypt]
  show (asArray 32 privateKey.toList).elim _ _ = _
  rw [asArray_toList]
  rfl

/-- The key of a wallet is the one that it was created with. -/
theorem decryptKey_createWallet (h : ks.Lawful) :
    (ks.crypto masterKey).decryptKey (createWallet ks masterKey signingKey nonceBytes chain) =
      .ok (ks.toBytes signingKey).toList := by
  show (·.toList) <$> (if _ then decryptSeed ks (encryptKey ks (ks.toBytes signingKey) masterKey nonceBytes).1
    (encryptKey ks (ks.toBytes signingKey) masterKey nonceBytes).2 masterKey
    else decryptKey ks (encryptKey ks (ks.toBytes signingKey) masterKey nonceBytes).1
    (encryptKey ks (ks.toBytes signingKey) masterKey nonceBytes).2 masterKey) = _
  unfold decryptSeed decryptKey
  rw [decryptBytes_encryptKey h, decryptBytes_encryptKey h, ite_self]
  rfl

/-- Its address is the one of that key. -/
theorem address_createWallet (h : ks.Lawful) {signer : Rlp.Address}
    (hs : privateKeyToAddress k (ks.toBytes signingKey) = .ok signer) :
    "0x" ++ String.ofList (Text.hexEncode signer.toList) =
      (createWallet ks masterKey signingKey nonceBytes chain).address := by
  unfold privateKeyToAddress at hs
  rw [h.signingKey] at hs
  obtain rfl := Except.ok.inj hs
  rfl

end Keys

/-! ## What is signed is read back -/

section Read

variable {k : K256} {key r s : Rlp.Word} {recoveryId : UInt8}

theorem head_encodeEip1559 (tx : Rlp.Eip1559TxFields) (yParity : UInt64) (r s : Rlp.Word) :
    (Rlp.encodeEip1559Signed tx yParity r s).head? = some 0x02 := rfl

theorem head_encodeLegacy_ne (tx : Rlp.LegacyTxFields) (v : UInt64) (r s : Rlp.Word) :
    (Rlp.encodeLegacySigned tx v r s).head? ≠ some 0x02 := by
  obtain ⟨b, rest, hb, hle⟩ := Rlp.encodeList_head [Rlp.encodeU64 tx.nonce, Rlp.encodeU64 tx.gasPrice,
    Rlp.encodeU64 tx.gasLimit, Rlp.encodeAddress tx.toAddress, Rlp.encodeU128 tx.value,
    Rlp.encodeBytes tx.data, Rlp.encodeU64 v, Rlp.encodeU256 r, Rlp.encodeU256 s]
  unfold Rlp.encodeLegacySigned
  rw [hb]
  intro hhead
  obtain rfl := Option.some.inj hhead
  exact absurd hle (by decide)

/-- A node takes a signed EIP-1559 transaction for a call of its signer. -/
theorem readCall_eip1559 (h : k.Inverse) {tx : Rlp.Eip1559TxFields} (hlen : tx.data.length < 2 ^ 64)
    (hs : signHash k (k.keccak256 (Rlp.encodeEip1559Unsigned tx)) key = .ok (r, s, recoveryId)) :
    ∃ signer, privateKeyToAddress k key = .ok signer ∧
      readCall k (Rlp.encodeEip1559Signed tx recoveryId.toUInt64 r s) =
        some ⟨signer, tx.chainId, tx.nonce, tx.toAddress, tx.value, tx.data⟩ := by
  obtain ⟨hparity, signer, haddr, hrec⟩ := ecrecover_signHash h hs
  have hle : ¬ 1 < recoveryId.toUInt64 := by
    rw [UInt64.lt_iff_toNat_lt]
    show ¬ 1 < recoveryId.toNat
    omega
  have hbyte : recoveryId.toUInt64.toUInt8 = recoveryId := UInt8.toUInt8_toUInt64 recoveryId
  refine ⟨signer, haddr, ?_⟩
  rw [readCall, if_pos (head_encodeEip1559 _ _ _ _), readEip1559, Rlp.decode_encodeEip1559Signed hlen]
  simp only [Option.bind_eq_bind, Option.bind_some, if_neg hle, hbyte, hrec, Except.toOption]
  rfl

/-- A node takes a signed legacy transaction for a call of its signer, on the chain of its `v`. -/
theorem readCall_legacy (h : k.Inverse) {tx : Rlp.LegacyTxFields} (hlen : tx.data.length < 2 ^ 64) {v : UInt64}
    (hs : signHash k (signingHash k tx) key = .ok (r, s, recoveryId))
    (hv : v.toNat = 2 * tx.chainId.toNat + 35 + recoveryId.toNat) :
    ∃ signer, privateKeyToAddress k key = .ok signer ∧
      readCall k (Rlp.encodeLegacySigned tx v r s) =
        some ⟨signer, tx.chainId, tx.nonce, tx.toAddress, tx.value, tx.data⟩ := by
  obtain ⟨hparity, signer, haddr, hrec⟩ := ecrecover_signHash h hs
  have hle : ¬ v < 35 := by
    rw [UInt64.lt_iff_toNat_lt]
    show ¬ v.toNat < 35
    omega
  have hchain : Rlp.chainIdOf v = tx.chainId := Rlp.chainIdOf_eip155 recoveryId.toNat (by omega) hv
  have hid : UInt8.ofNat ((v.toNat - 35) % 2) = recoveryId := by
    rw [show (v.toNat - 35) % 2 = recoveryId.toNat by omega]
    exact UInt8.ofNat_toNat
  refine ⟨signer, haddr, ?_⟩
  rw [readCall, if_neg (head_encodeLegacy_ne _ _ _ _), readLegacy, Rlp.decode_encodeLegacySigned hlen]
  simp only [Option.bind_eq_bind, Option.bind_some, if_neg hle, hchain, hid, hrec, Except.toOption]
  rfl

theorem transferArgs_encodeTransfer {recipient : List UInt8} (hlen : recipient.length = 20) {amount : Nat}
    (hamount : amount < 2 ^ 128) :
    transferArgs.whole (encodeTransfer recipient amount) = some (recipient, amount) := by
  have haddr : encodeAddress recipient = Abi.padLeft recipient := by
    rw [encodeAddress, Abi.padLeft, hlen]
  have hword : encodeUint256 amount = Abi.word amount := by
    rw [← Abi.padLeft_toBeBytes (k := 16) (hamount.trans_eq (by rfl)) (by decide), Abi.padLeft, length_toBeBytes]
    rfl
  refine Reads.whole ?_
  unfold encodeTransfer transferArgs
  rw [haddr, hword, List.append_assoc]
  refine (reads_take (show transferSelector.length = 4 from rfl)).bind ?_
  rw [if_pos rfl]
  refine (Abi.reads_address hlen).bind ?_
  exact (Abi.reads_uint (hamount.trans (by decide)) (by decide)).bind_nil (Reads.pure _)

end Read

/-! ## What a payment builds and signs -/

/-- The chain, what is called, with how much ether and what data. -/
def EthUnsignedTxData.call : EthUnsignedTxData → UInt64 × List UInt8 × Nat × List UInt8
  | .Legacy tx => (tx.chainId, tx.toAddress, tx.value, tx.data)
  | .Eip1559 tx => (tx.chainId, tx.toAddress, tx.value, tx.data)

/-- The transaction calls the token with a transfer to the recipient. -/
def Built (c : Crypto) (chainId : UInt64) (data : SettlementData) (tx : EthUnsignedTxData) : Prop :=
  ∃ recipient token, parseAddress c data.toAddress = .ok recipient ∧ parseAddress c data.token = .ok token ∧
    tx.call = (chainId, token, 0, encodeTransfer recipient data.amount.toNat)

/-- What a payment signs: what it builds, with the key of its wallet. -/
def SignedFor (c : Crypto) (chainId : UInt64) (p : Payment) (t : SignedTx) : Prop :=
  c.decryptKey p.fromWallet = .ok t.key ∧ c.signError t.tx t.key = none ∧
    Built c chainId p.settlementData t.tx

section Calls

variable {c : Crypto} {chainId : UInt64} {data : SettlementData} {p : Payment}

theorem buildSettlementTx_yields :
    Call.Yields WalletOp.sends (Built c chainId data) (buildSettlementTx c chainId data) := by
  unfold buildSettlementTx
  split
  · exact Call.yields_throw _
  next recipient hrecipient =>
  split
  · exact Call.yields_throw _
  next token htoken =>
  refine Call.yields_bind (Call.yields_mapErr (Call.yields_of_issues
    ((getNonce_asks _).mono fun _ => WalletOp.Asks.sends))) fun nonce _ => ?_
  refine Call.yields_bind (Call.yields_of_issues
    ((estimateGasParams_asks _ _ _).mono fun _ => WalletOp.Asks.sends)) fun gas _ => ?_
  split
  · exact Call.yields_pure ⟨recipient, token, hrecipient, htoken, rfl⟩
  · exact Call.yields_pure ⟨recipient, token, hrecipient, htoken, rfl⟩

theorem signSettlementTx_yields :
    Call.Yields WalletOp.sends (SignedFor c chainId p) (signSettlementTx c chainId p) := by
  unfold signSettlementTx adapter decryptWalletKey
  refine Call.yields_bind Call.yields_failIf fun _ _ => ?_
  split
  · next key hkey =>
    refine Call.yields_bind (Call.yields_pure rfl) fun privateKey (hprivate : key = privateKey) => ?_
    subst hprivate
    refine Call.yields_bind (Call.yields_mapErr buildSettlementTx_yields) fun tx hbuilt => ?_
    refine Call.yields_mapErr ?_
    unfold signTransaction
    split
    · exact Call.yields_throw _
    · next hsign => exact Call.yields_pure ⟨hkey, hsign, hbuilt⟩
  · exact Call.yields_bind (Q := fun _ => False) (Call.yields_throw _) fun _ h => h.elim

/-- All attempts send the transaction, and what comes after them sends nothing. -/
theorem sendRecorded_repeats (t : SignedTx) : (sendRecorded c p t).run.Repeats WalletOp.sends t := by
  have hquiet : ∀ {o : WalletOp}, o.sends = none → ∀ t', o.sends = some t' → t' = t :=
    fun ho t' ht' => nomatch ho.symm.trans ht'
  have hraw : Call.Issues (fun o => ∀ t', WalletOp.sends o = some t' → t' = t) (sendRawTransaction t) :=
    Call.issues_bind (show Call.Issues _ (request (.sendRawTransaction t)) from
      ⟨fun t' ht' => (Option.some.inj ht').symm, fun _ => trivial⟩) fun _ => Call.issues_orThrow
  have hattempts : ∀ retries, Call.Issues (fun o => ∀ t', WalletOp.sends o = some t' → t' = t)
      (sendAttempts t retries) := by
    intro retries
    induction retries with
    | zero => exact Call.issues_mapErr hraw
    | succ retries ih =>
      refine Call.issues_bind (Call.issues_lift hraw) fun sent => ?_
      split
      · exact Call.issues_pure _
      · split
        · exact ih
        · exact Call.issues_throw _
  refine Call.issues_bind (Call.issues_lift (hattempts _)) fun sent => ?_
  split
  · refine Call.issues_bind (Call.issues_lift (estimateFees_asks.mono fun _ ho => hquiet ho.sends)) fun fee => ?_
    exact Call.issues_bind (Call.issues_op (hquiet rfl)) fun _ => Call.issues_pure _
  · exact Call.issues_bind (Call.issues_op (hquiet rfl)) fun _ => Call.issues_throw _

/-- A payment sends one transaction, however often. -/
theorem sendSettlementTx_commits :
    Call.Commits WalletOp.sends (SignedFor c chainId p) (sendSettlementTx c chainId p) := by
  refine Call.commits_bind signSettlementTx_yields fun t ht => ?_
  refine Call.commits_bind (Q := fun _ => True) (Call.yields_of_issues (Call.issues_op rfl)) fun _ _ => ?_
  exact (sendRecorded_repeats t).commits ht

end Calls

/-! ## What is signed is what is ordered -/

theorem utf8Size_of_hexValue {ch : Char} {v : Nat} (h : Text.hexValue ch = some v) : ch.utf8Size = 1 := by
  have hle : ch.toNat ≤ 'f'.toNat := by
    unfold Text.hexValue at h
    split_ifs at h with h₁ h₂ h₃
    · exact (show ch.toNat ≤ '9'.toNat from h₁.2).trans (by decide)
    · exact h₂.2
    · exact (show ch.toNat ≤ 'F'.toNat from h₃.2).trans (by decide)
  have hval : ch.val ≤ 0x7F := UInt32.le_iff_toNat_le.2 (hle.trans (by decide))
  exact if_pos hval

theorem sum_utf8Size_of_hexDecode {cs : List Char} {bs : List UInt8} (h : Text.hexDecode cs = some bs) :
    (cs.map Char.utf8Size).sum = 2 * bs.length := by
  induction cs using Text.hexDecode.induct generalizing bs with
  | case1 =>
    obtain rfl := Option.some.inj h
    rfl
  | case2 c => cases h
  | case3 hi lo cs ih =>
    rw [Text.hexDecode] at h
    simp only [Option.bind_eq_bind, Option.bind_eq_some_iff] at h
    obtain ⟨a, ha, b, hb, bytes, hbytes, heq⟩ := h
    cases heq
    rw [List.map_cons, List.map_cons, List.sum_cons, List.sum_cons, ih hbytes, utf8Size_of_hexValue ha,
      utf8Size_of_hexValue hb, List.length_cons]
    omega

theorem length_parseAddress {c : Crypto} {addr : String} {bs : List UInt8} (h : parseAddress c addr = .ok bs) :
    bs.length = 20 := by
  unfold parseAddress at h
  dsimp only at h
  split at h
  · cases h
  · next hlen =>
    split at h
    · next bytes hdec =>
      obtain rfl := Except.ok.inj h
      have hsum := sum_utf8Size_of_hexDecode hdec
      omega
    · cases h

section Transfers

variable {k : K256} {ks : KeyStore k} {masterKey privateKey : Rlp.Word} {chainId : UInt64} {p : Payment}
  {t : SignedTx} {token : Rlp.Address} {data : List UInt8}

/-- The bytes that are signed without an error are read back as the call that they are built for. -/
theorem readCall_bytes (h : k.Inverse) (hchain : 2 * chainId.toNat + 36 < 2 ^ 64)
    (hlen : data.length < 2 ^ 64) (hkey : t.key = privateKey.toList)
    (hcall : t.tx.call = (chainId, token.toList, 0, data)) (hsign : signError k t.tx t.key = none) :
    ∃ raw signer nonce, t.bytes k = some (.ok raw) ∧ privateKeyToAddress k privateKey = .ok signer ∧
      readCall k raw = some ⟨signer, chainId, nonce, token, 0, data⟩ := by
  obtain ⟨tx, key⟩ := t
  dsimp only at hkey hcall hsign
  subst hkey
  unfold signError at hsign
  cases tx with
  | Legacy tx =>
    simp only [EthUnsignedTxData.call, Prod.mk.injEq] at hcall
    obtain ⟨rfl, hto, hvalue, rfl⟩ := hcall
    have hfields : tx.fields = some ⟨tx.nonce, tx.gasPrice, tx.gasLimit, token, 0, tx.data, tx.chainId⟩ := by
      rw [LegacyTxFields.fields, hto, asArray_toList, hvalue]
      rfl
    have hbytes : SignedTx.bytes k ⟨.Legacy tx, privateKey.toList⟩ =
        signLegacyTx k ⟨tx.nonce, tx.gasPrice, tx.gasLimit, token, 0, tx.data, tx.chainId⟩ privateKey := by
      simp only [SignedTx.bytes, asArray_toList, hfields, Option.bind_eq_bind, Option.bind_some]
    rw [hbytes] at hsign ⊢
    cases hs : signHash k (signingHash k ⟨tx.nonce, tx.gasPrice, tx.gasLimit, token, 0, tx.data, tx.chainId⟩)
        privateKey with
    | error e =>
      simp only [signLegacyTx, hs] at hsign
      cases hsign
    | ok sig =>
      obtain ⟨r, s, recoveryId⟩ := sig
      have hparity := (ecrecover_signHash h hs).1
      have hv : (UInt64.ofNat (2 * tx.chainId.toNat + 35 + recoveryId.toNat)).toNat =
          2 * tx.chainId.toNat + 35 + recoveryId.toNat :=
        UInt64.toNat_ofNat_of_lt' (show _ < 2 ^ 64 by omega)
      obtain ⟨signer, haddr, hread⟩ := readCall_legacy h hlen hs hv
      exact ⟨_, signer, tx.nonce, (signLegacyTx_eq_some_iff hs).2 ⟨_, hv, rfl⟩, haddr, hread⟩
  | Eip1559 tx =>
    simp only [EthUnsignedTxData.call, Prod.mk.injEq] at hcall
    obtain ⟨rfl, hto, hvalue, rfl⟩ := hcall
    have hfields : tx.fields = some ⟨tx.chainId, tx.nonce, tx.maxPriorityFeePerGas, tx.maxFeePerGas,
        tx.gasLimit, token, 0, tx.data⟩ := by
      rw [Eip1559TxFields.fields, hto, asArray_toList, hvalue]
      rfl
    have hbytes : SignedTx.bytes k ⟨.Eip1559 tx, privateKey.toList⟩ =
        some (signEip1559Tx k ⟨tx.chainId, tx.nonce, tx.maxPriorityFeePerGas, tx.maxFeePerGas, tx.gasLimit,
          token, 0, tx.data⟩ privateKey) := by
      simp only [SignedTx.bytes, asArray_toList, hfields, Option.bind_eq_bind, Option.bind_some]
      rfl
    rw [hbytes] at hsign ⊢
    cases hs : signHash k (k.keccak256 (Rlp.encodeEip1559Unsigned ⟨tx.chainId, tx.nonce,
        tx.maxPriorityFeePerGas, tx.maxFeePerGas, tx.gasLimit, token, 0, tx.data⟩)) privateKey with
    | error e =>
      simp only [signEip1559Tx, hs] at hsign
      cases hsign
    | ok sig =>
      obtain ⟨r, s, recoveryId⟩ := sig
      obtain ⟨signer, haddr, hread⟩ := readCall_eip1559 h hlen hs
      refine ⟨_, signer, tx.nonce, ?_, haddr, hread⟩
      simp only [signEip1559Tx, hs]
      rfl

theorem length_encodeTransfer (recipient : List UInt8) (amount : Nat) :
    (encodeTransfer recipient amount).length = 48 + recipient.length := by
  simp [encodeTransfer, encodeAddress, encodeUint256, transferSelector, length_toBeBytes]
  omega

/-- What a payment from a created wallet signs, the chain takes for the transfer that it orders. -/
theorem transferOf_signed (h : k.Inverse) (hks : ks.Lawful) (hchain : 2 * chainId.toNat + 36 < 2 ^ 64)
    {signingKey : k.SigningKey} {nonceBytes : Vector UInt8 12} {chain : String}
    (hwallet : p.fromWallet = createWallet ks masterKey signingKey nonceBytes chain)
    (ht : SignedFor (ks.crypto masterKey) chainId p t) :
    ∃ raw tr, t.bytes k = some (.ok raw) ∧ transferOf k raw = some tr ∧
      p.Orders (ks.crypto masterKey) chainId tr := by
  obtain ⟨hkey, hsign, recipient, token, hrecipient, htoken, hcall⟩ := ht
  have hlen := length_parseAddress hrecipient
  obtain ⟨tokenAddr, rfl⟩ : ∃ v : Rlp.Address, v.toList = token :=
    ⟨⟨token.toArray, length_parseAddress htoken⟩, rfl⟩
  rw [hwallet, decryptKey_createWallet hks] at hkey
  have hamount : (UInt64.ofInt p.amount).toNat < 2 ^ 128 := (UInt64.ofInt p.amount).toNat_lt.trans (by decide)
  obtain ⟨raw, signer, nonce, hraw, haddr, hread⟩ := readCall_bytes h hchain
    (by rw [length_encodeTransfer, hlen]; decide) (Except.ok.inj hkey).symm hcall hsign
  refine ⟨raw, ⟨signer, chainId, tokenAddr, recipient, (UInt64.ofInt p.amount).toNat⟩, hraw, ?_, ?_⟩
  · rw [transferOf, hread]
    show (transferArgs.whole (encodeTransfer recipient (UInt64.ofInt p.amount).toNat) >>= _) = _
    rw [transferArgs_encodeTransfer hlen hamount]
    rfl
  · refine ⟨?_, rfl, htoken, hrecipient, ?_⟩
    · rw [hwallet]
      exact address_createWallet hks haddr
    · have hlt : (p.amount % 2 ^ 64).toNat < 2 ^ 64 := by omega
      have htoNat : (UInt64.ofInt p.amount).toNat = (p.amount % 2 ^ 64).toNat := UInt64.toNat_ofNat_of_lt' hlt
      show ((UInt64.ofInt p.amount).toNat : Int) = _
      omega

end Transfers

/-! ## Runs -/

section Runs

variable {ι : Type} [DecidableEq ι] {k : K256} {ks : KeyStore k} {masterKey : Rlp.Word} {chainId : UInt64}

/-- What the node accepts in a run has been sent. -/
theorem acceptedSince_sent {pool₀ pool : WalletPool ι} {l : List (WalletDone ι)}
    (run : Pool.Run execWallet pool₀ l pool) :
    pool₀.store.node.accepted.length ≤ pool.store.node.accepted.length ∧
    ∀ t ∈ pool.store.node.acceptedSince pool₀.store.node.accepted.length,
      ∃ d ∈ l, d.op.sends = some t := by
  induction run with
  | start => exact ⟨Nat.le_refl _, fun t ht => by simp [Node.acceptedSince] at ht⟩
  | @step l pool run i step o cont ht ih =>
    obtain ⟨hle, hsent⟩ := ih
    have hold : ∀ t ∈ pool.store.node.acceptedSince pool₀.store.node.accepted.length,
        ∃ d ∈ (⟨i, o, pool.store⟩ : WalletDone ι) :: l, d.op.sends = some t := by
      intro t ht
      obtain ⟨d, hd, hd'⟩ := hsent t ht
      exact ⟨d, List.mem_cons_of_mem _ hd, hd'⟩
    show _ ≤ (execWallet step o pool.store).2.node.accepted.length ∧
      ∀ t ∈ (execWallet step o pool.store).2.node.accepted.drop _, _
    rcases execWallet_accepted step o pool.store with hacc | ⟨tx, htx, -, hacc⟩
    · rw [hacc]
      exact ⟨hle, hold⟩
    · rw [hacc, List.length_append, List.drop_append_of_le_length hle]
      refine ⟨Nat.le_add_right_of_le hle, fun t ht => ?_⟩
      rcases List.mem_append.1 ht with ht | ht
      · exact hold t ht
      · obtain rfl := List.mem_singleton.1 ht
        exact ⟨_, List.mem_cons_self, htx⟩

/-- **Payments are carried out as ordered**: in every run of payments from a wallet, whatever the node
answers and whatever is lost, the chain takes each transaction that it accepts for the transfer that one of
the payments orders, and no two of them for transfers of the same payment. -/
theorem payments_carried_out (h : k.Inverse) (hks : ks.Lawful) (hchain : 2 * chainId.toNat + 36 < 2 ^ 64)
    (signingKey : k.SigningKey) (nonceBytes : Vector UInt8 12) (chain : String) (payments : ι → Payment)
    (w : WalletWorld) (l : List (WalletDone ι)) (pool : WalletPool ι)
    (run : Pool.Run execWallet (walletPool (ks.crypto masterKey) chainId
      (createWallet ks masterKey signingKey nonceBytes chain) payments w) l pool) :
    ∃ payer : {t // t ∈ pool.store.node.acceptedSince w.node.accepted.length} → ι, payer.Injective ∧
      ∀ t : {t // t ∈ pool.store.node.acceptedSince w.node.accepted.length}, ∃ raw tr,
        t.1.bytes k = some (.ok raw) ∧ transferOf k raw = some tr ∧
          ((payments (payer t)).ofWallet (createWallet ks masterKey signingKey nonceBytes chain)).Orders
            (ks.crypto masterKey) chainId tr := by
  have honce : SendsOnce WalletOp.sends (fun i => SignedFor (ks.crypto masterKey) chainId
      ((payments i).ofWallet (createWallet ks masterKey signingKey nonceBytes chain))) l :=
    run_once run fun i => Prog.commits_bind_ret sendSettlementTx_commits
  have hsent := (acceptedSince_sent run).2
  choose d hd hsend using hsent
  refine ⟨fun t => (d t.1 t.2).task, fun t t' htask => ?_, fun t => ?_⟩
  · have hsame := (honce _ (hd t.1 t.2) t.1 (hsend t.1 t.2)).2 _ (hd t'.1 t'.2) htask.symm t'.1 (hsend t'.1 t'.2)
    exact Subtype.ext hsame.symm
  · exact transferOf_signed h hks hchain rfl (honce _ (hd t.1 t.2) t.1 (hsend t.1 t.2)).1

end Runs

/-! ## A payment of 10 tokens -/

def demoMasterKey : Rlp.Word := .replicate 32 0x07

def demoNonceBytes : Vector UInt8 12 := .replicate 12 0x09

/-- The encrypted key, with its tag. -/
def demoCiphertext : List UInt8 :=
  Text.toBeBytes 32 0x61c3c2d2f8b68727e6248d7ea0ace59992f625b572a8b18629e800e09332473c ++
    Text.toBeBytes 16 0x0b3d42bc025bf05ef03d97d6ffc5aac7

def demoTx : Rlp.Eip1559TxFields where
  chainId := 1
  nonce := 0
  maxPriorityFeePerGas := 1000000000
  maxFeePerGas := 3000000000
  gasLimit := 65000
  toAddress := (word 0xc1).drop 12
  value := 0
  data := encodeTransfer (List.replicate 19 0 ++ [0xb1]) 10

def demoHash : Rlp.Word := word 0x22c332cd4b12a1a18ef26f49b1465afbf2c55fc10e2cf91a01d2b80cf8ba9ccf

def demoR : Rlp.Word := word 0x11cea2b261b95b815dc1bf9541132b85b157d7240971bfc6a0d57d4ec9b9fc3c

def demoS : Rlp.Word := word 0x35d4060f312bdee721abf7340cf40d85676af2723e634a0a4286587a5553f034

/-- The recovery id 1. -/
def demoRecoveryId : Fin 4 := Fin.castAdd 2 (Fin.last 1)

/-- Signs one hash with the key of EIP-155. -/
def demoK256 : K256 where
  SigningKey := Rlp.Word
  VerifyingKey := Vector UInt8 65
  Signature := Vector UInt8 64
  RecoveryId := Fin 4
  keccak256 data :=
    if data = Rlp.encodeEip1559Unsigned demoTx then demoHash
    else eip155K256.keccak256 data
  signingKeyFromBytes key := .ok key
  signPrehashRecoverable key hash :=
    if key = eip155Key ∧ hash = demoHash then .ok (demoR ++ demoS, demoRecoveryId) else .error "signature error"
  verifyingKey _ := eip155Point
  recoverFromPrehash hash sig recid :=
    if hash = demoHash ∧ sig = demoR ++ demoS ∧ recid = demoRecoveryId then .ok eip155Point
    else .error "signature error"
  signatureToBytes sig := sig
  signatureFromSlice bytes := .ok bytes
  recoveryIdToByte recid := .ofNat recid
  recoveryIdFromByte := eip155K256.recoveryIdFromByte
  toEncodedPoint vk := vk

/-- Encrypts one key. -/
def demoKeyStore : KeyStore demoK256 where
  toBytes key := key
  encrypt masterKey nonce plaintext :=
    if masterKey = demoMasterKey ∧ nonce = demoNonceBytes then Equiv.swap eip155Key.toList demoCiphertext plaintext
    else plaintext
  decrypt masterKey nonce ciphertext :=
    if masterKey = demoMasterKey ∧ nonce = demoNonceBytes then
      .ok (Equiv.swap eip155Key.toList demoCiphertext ciphertext)
    else .ok ciphertext
  hexError s := s

theorem inverse_demoK256 : demoK256.Inverse where
  recover := by
    intro key hash sig recid h
    simp only [demoK256] at h ⊢
    split at h
    · rename_i hk
      cases h
      rw [if_pos ⟨hk.2, rfl, rfl⟩]
    · cases h
  parity := by
    intro key hash sig recid h
    simp only [demoK256] at h
    split at h
    · cases h
      decide
    · cases h
  signature _ := rfl
  recoveryId := inverse_eip155K256.recoveryId

theorem lawful_demoKeyStore : demoKeyStore.Lawful where
  signingKey _ := rfl
  decrypt masterKey nonce plaintext := by
    simp only [demoKeyStore]
    split
    · exact congrArg Except.ok ((Equiv.swap eip155Key.toList demoCiphertext).symm_apply_apply plaintext)
    · rfl

/-- The wallet of the key, from which one payment is made. -/
def keyedWallet : Wallet := createWallet demoKeyStore demoMasterKey eip155Key demoNonceBytes "ethereum"

def onePayment : List (WalletDone Unit) × WalletPool Unit :=
  Pool.play execWallet (List.replicate 10 ((), demoStep 1000000000 0))
    ([], walletPool (demoKeyStore.crypto demoMasterKey) 1 keyedWallet (fun _ => demoPayment .first) demoWorld)

theorem onePayment_run : Pool.Run execWallet
    (walletPool (demoKeyStore.crypto demoMasterKey) 1 keyedWallet (fun _ => demoPayment .first) demoWorld)
    onePayment.1 onePayment.2 := by
  apply Pool.Run.play
  exact .start

theorem onePayment_carried_out : (onePayment.2.store.node.acceptedSince 0).length = 1 ∧
    ∃ payer : {t // t ∈ onePayment.2.store.node.acceptedSince 0} → Unit, payer.Injective ∧
      ∀ t : {t // t ∈ onePayment.2.store.node.acceptedSince 0}, ∃ raw tr,
        t.1.bytes demoK256 = some (.ok raw) ∧ transferOf demoK256 raw = some tr ∧
          ((demoPayment .first).ofWallet keyedWallet).Orders (demoKeyStore.crypto demoMasterKey) 1 tr :=
  ⟨by decide +kernel, payments_carried_out inverse_demoK256 lawful_demoKeyStore (by decide) eip155Key
    demoNonceBytes "ethereum" (fun _ => demoPayment .first) demoWorld _ _ onePayment_run⟩

end IntentX.OnChain
