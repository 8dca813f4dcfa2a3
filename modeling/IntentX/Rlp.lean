import IntentX.Lib.Rlp

/-!
# Transaction encodings

The RLP encoders of `src/wallet/rlp.rs`, from `encode_bytes` up to the signed and unsigned transactions.

Each of the four transaction encodings can be read back.  A signed legacy transaction does not hold its
chain id, only the `v` of its signature, and for a `v` of EIP-155 the chain id is read off that.
-/

namespace IntentX.Rlp

open Lib Bytes Rlp Text

/-! ## Encoders -/

/-- The bytes from the first one that is not zero on. -/
def fromFirstNonzero (be : List UInt8) : List UInt8 := be.drop ((be.findIdx? (· != 0)).getD be.length)

def toBeBytesTrimmed (val : UInt64) : List UInt8 := fromFirstNonzero (toBeBytes 8 val.toNat)

/-- A length is a `usize` of 64 bits. -/
def encodeBytes (data : List UInt8) : List UInt8 :=
  if data.length = 1 ∧ data.headD 0 ≤ 0x7f then [data.headD 0]
  else if data.length ≤ 55 then (0x80 + .ofNat data.length) :: data
  else
    let lenBytes := toBeBytesTrimmed (.ofNat data.length)
    (0xb7 + .ofNat lenBytes.length) :: (lenBytes ++ data)

def wrapList (payload : List UInt8) : List UInt8 :=
  if payload.length ≤ 55 then (0xc0 + .ofNat payload.length) :: payload
  else
    let lenBytes := toBeBytesTrimmed (.ofNat payload.length)
    (0xf7 + .ofNat lenBytes.length) :: (lenBytes ++ payload)

def encodeList (items : List (List UInt8)) : List UInt8 := wrapList items.flatten

def encodeU64 (val : UInt64) : List UInt8 :=
  if val = 0 then encodeBytes [] else encodeBytes (toBeBytesTrimmed val)

def encodeU128 (val : BitVec 128) : List UInt8 :=
  if val = 0 then encodeBytes [] else encodeBytes (fromFirstNonzero (toBeBytes 16 val.toNat))

/-- `[u8; 32]` -/
abbrev Word := Vector UInt8 32

/-- `[u8; 20]` -/
abbrev Address := Vector UInt8 20

def encodeU256 (val : Word) : List UInt8 :=
  let start := (val.toList.findIdx? (· != 0)).getD 32
  if start = 32 then encodeBytes [] else encodeBytes (val.toList.drop start)

def encodeEmpty : List UInt8 := [0x80]

def encodeAddress (addr : Address) : List UInt8 := encodeBytes addr.toList

structure LegacyTxFields where
  nonce : UInt64
  gasPrice : UInt64
  gasLimit : UInt64
  toAddress : Address
  value : BitVec 128
  data : List UInt8
  chainId : UInt64
  deriving DecidableEq

def encodeLegacyUnsigned (tx : LegacyTxFields) : List UInt8 :=
  encodeList [encodeU64 tx.nonce, encodeU64 tx.gasPrice, encodeU64 tx.gasLimit, encodeAddress tx.toAddress,
    encodeU128 tx.value, encodeBytes tx.data, encodeU64 tx.chainId, encodeEmpty, encodeEmpty]

def encodeLegacySigned (tx : LegacyTxFields) (v : UInt64) (r s : Word) : List UInt8 :=
  encodeList [encodeU64 tx.nonce, encodeU64 tx.gasPrice, encodeU64 tx.gasLimit, encodeAddress tx.toAddress,
    encodeU128 tx.value, encodeBytes tx.data, encodeU64 v, encodeU256 r, encodeU256 s]

structure Eip1559TxFields where
  chainId : UInt64
  nonce : UInt64
  maxPriorityFeePerGas : UInt64
  maxFeePerGas : UInt64
  gasLimit : UInt64
  toAddress : Address
  value : BitVec 128
  data : List UInt8
  deriving DecidableEq

def encodeEip1559Unsigned (tx : Eip1559TxFields) : List UInt8 :=
  0x02 :: encodeList [encodeU64 tx.chainId, encodeU64 tx.nonce, encodeU64 tx.maxPriorityFeePerGas,
    encodeU64 tx.maxFeePerGas, encodeU64 tx.gasLimit, encodeAddress tx.toAddress, encodeU128 tx.value,
    encodeBytes tx.data, encodeList []]

def encodeEip1559Signed (tx : Eip1559TxFields) (yParity : UInt64) (r s : Word) : List UInt8 :=
  0x02 :: encodeList [encodeU64 tx.chainId, encodeU64 tx.nonce, encodeU64 tx.maxPriorityFeePerGas,
    encodeU64 tx.maxFeePerGas, encodeU64 tx.gasLimit, encodeAddress tx.toAddress, encodeU128 tx.value,
    encodeBytes tx.data, encodeList [], encodeU64 yParity, encodeU256 r, encodeU256 s]

/-! ## What the encoders write -/

section Encoders

variable {data payload : List UInt8}

theorem fromFirstNonzero_eq (be : List UInt8) : fromFirstNonzero be = trim be := by
  unfold fromFirstNonzero trim
  induction be with
  | nil => rfl
  | cons b be ih =>
    rw [List.findIdx?_cons, List.dropWhile_cons]
    by_cases hb : b = 0
    · subst hb
      simp only [bne_self_eq_false, beq_self_eq_true, if_true, List.length_cons]
      rw [← ih]
      cases be.findIdx? (· != 0) <;> rfl
    · simp [hb]

theorem toBeBytesTrimmed_eq (val : UInt64) : toBeBytesTrimmed val = trim (toBeBytes 8 val.toNat) :=
  fromFirstNonzero_eq _

theorem length_toBeBytesTrimmed (val : UInt64) : (toBeBytesTrimmed val).length ≤ 8 := by
  rw [toBeBytesTrimmed_eq]
  exact (length_trim_le _).trans (length_toBeBytes 8 _).le

theorem fromBeBytes_trimmed {n : Nat} (h : n < 2 ^ 64) :
    fromBeBytes (toBeBytesTrimmed (.ofNat n)) = n := by
  rw [toBeBytesTrimmed_eq, fromBeBytes_trim, UInt64.toNat_ofNat_of_lt' h, fromBeBytes_toBeBytes_of_lt h]

/-- The encoding of a string reads back. -/
theorem reads_encodeBytes (h : data.length < 2 ^ 64) : Reads string (encodeBytes data) data := by
  unfold encodeBytes
  by_cases hone : data.length = 1 ∧ data.headD 0 ≤ 0x7f
  · rw [if_pos hone]
    obtain ⟨b, rfl⟩ := List.length_eq_one_iff.1 hone.1
    have hb : b.toNat ≤ 0x7f := UInt8.le_iff_toNat_le.1 hone.2
    exact reads_string_single (by
      show b.toNat < 0x80
      omega)
  · rw [if_neg hone]
    by_cases hshort : data.length ≤ 55
    · rw [if_pos hshort]
      exact reads_string_short hshort
    · rw [if_neg hshort]
      have hlen := fromBeBytes_trimmed h
      refine reads_string_long (List.length_pos_iff.2 fun hnil => ?_) (length_toBeBytesTrimmed _) hlen
      rw [hnil] at hlen
      change 0 = data.length at hlen
      omega

/-- The head of a list declares the length of what comes after it, if a `u64` holds it. -/
theorem wrapList_cut (payload : List UInt8) :
    ∃ head n, wrapList payload = head ++ payload ∧ Reads listHead head n ∧
      (n = payload.length ∨ 2 ^ 64 ≤ payload.length) := by
  unfold wrapList
  by_cases hshort : payload.length ≤ 55
  · rw [if_pos hshort]
    exact ⟨_, _, rfl, reads_listHead_short hshort, .inl rfl⟩
  · rw [if_neg hshort]
    rcases Nat.lt_or_ge payload.length (2 ^ 64) with hlt | hge
    · have hlen := fromBeBytes_trimmed hlt
      have hpos : 0 < (toBeBytesTrimmed (.ofNat payload.length)).length := by
        refine List.length_pos_iff.2 fun hnil => ?_
        rw [hnil] at hlen
        change 0 = payload.length at hlen
        omega
      exact ⟨_, _, rfl, reads_listHead_long hpos (length_toBeBytesTrimmed _), .inl hlen⟩
    · rcases Nat.eq_zero_or_pos (toBeBytesTrimmed (.ofNat payload.length)).length with hnil | hpos
      -- no byte is left of a length of 0, which looks like a short list of 55 bytes
      · rw [List.length_eq_zero_iff.1 hnil]
        exact ⟨_, _, rfl, reads_listHead_short (n := 55) (by decide), .inr hge⟩
      · exact ⟨_, _, rfl, reads_listHead_long hpos (length_toBeBytesTrimmed _), .inr hge⟩

theorem list_encodeList {α : Type} {p : Reader α} {items : List (List UInt8)} {a : α}
    (h : Reads p items.flatten a) : list p (encodeList items) = some a := by
  obtain ⟨head, n, hcut, hhead, hn⟩ := wrapList_cut items.flatten
  unfold encodeList
  rw [hcut]
  exact list_append hhead hn h

/-- An integer without leading zeros, in which zero is the empty string. -/
def Canonical (enc : List UInt8) (n : Nat) : Prop :=
  ∃ bytes, enc = encodeBytes bytes ∧ bytes.length ≤ 32 ∧ fromBeBytes bytes = n ∧ bytes.head? ≠ some 0 ∧
    (bytes = [] ↔ n = 0)

theorem canonical_trim (be : List UInt8) (h : be.length ≤ 32) :
    Canonical (encodeBytes (trim be)) (fromBeBytes be) :=
  ⟨trim be, rfl, (length_trim_le be).trans h, fromBeBytes_trim be, head_trim be, trim_eq_nil_iff be⟩

theorem canonical_encodeU64 (val : UInt64) : Canonical (encodeU64 val) val.toNat := by
  have hval : fromBeBytes (toBeBytes 8 val.toNat) = val.toNat := fromBeBytes_toBeBytes_of_lt val.toNat_lt
  have henc : encodeU64 val = encodeBytes (trim (toBeBytes 8 val.toNat)) := by
    unfold encodeU64
    by_cases h0 : val = 0
    · subst h0
      rfl
    · rw [if_neg h0, toBeBytesTrimmed_eq]
  have h := canonical_trim (toBeBytes 8 val.toNat) (by simp [length_toBeBytes])
  rwa [hval, ← henc] at h

theorem canonical_encodeU128 (val : BitVec 128) : Canonical (encodeU128 val) val.toNat := by
  have hval : fromBeBytes (toBeBytes 16 val.toNat) = val.toNat := fromBeBytes_toBeBytes_of_lt val.isLt
  have henc : encodeU128 val = encodeBytes (trim (toBeBytes 16 val.toNat)) := by
    unfold encodeU128
    by_cases h0 : val = 0
    · subst h0
      rfl
    · rw [if_neg h0, fromFirstNonzero_eq]
  have h := canonical_trim (toBeBytes 16 val.toNat) (by simp [length_toBeBytes])
  rwa [hval, ← henc] at h

theorem canonical_encodeU256 (val : Word) : Canonical (encodeU256 val) (fromBeBytes val.toList) := by
  have hlen := val.length_toList
  have htrim : val.toList.drop ((val.toList.findIdx? (· != 0)).getD 32) = trim val.toList := by
    have h := fromFirstNonzero_eq val.toList
    unfold fromFirstNonzero at h
    rwa [hlen] at h
  have henc : encodeU256 val = encodeBytes (trim val.toList) := by
    unfold encodeU256
    dsimp only
    split
    · next hstart =>
      rw [← htrim, hstart, List.drop_eq_nil_of_le hlen.le]
    · rw [htrim]
  have h := canonical_trim val.toList hlen.le
  rwa [← henc] at h

theorem reads_canonical {enc : List UInt8} {n : Nat} (h : Canonical enc n) : Reads number enc n := by
  obtain ⟨bytes, rfl, hlen, rfl, hzero, -⟩ := h
  exact reads_number (reads_encodeBytes (by omega)) hzero

theorem reads_encodeU64 (val : UInt64) : Reads uint64 (encodeU64 val) val :=
  reads_uint64 (reads_canonical (canonical_encodeU64 val))

theorem reads_encodeU128 (val : BitVec 128) : Reads (uint 128) (encodeU128 val) val :=
  reads_uint (reads_canonical (canonical_encodeU128 val))

theorem reads_encodeU256 (val : Word) : Reads (padded 32) (encodeU256 val) val :=
  reads_padded (reads_canonical (canonical_encodeU256 val))

theorem reads_encodeAddress (addr : Address) : Reads (fixed 20) (encodeAddress addr) addr :=
  reads_fixed (reads_encodeBytes (by rw [addr.length_toList]; decide))

theorem reads_encodeEmpty : Reads uint64 encodeEmpty 0 := reads_encodeU64 0

end Encoders

/-! ## Decoders -/

def decodeLegacyUnsigned : List UInt8 → Option LegacyTxFields := list do
  let nonce ← uint64
  let gasPrice ← uint64
  let gasLimit ← uint64
  let toAddress ← fixed 20
  let value ← uint 128
  let data ← string
  let chainId ← uint64
  let _ ← uint64
  let _ ← uint64
  return { nonce, gasPrice, gasLimit, toAddress, value, data, chainId }

/-- The chain id of a `v`, which is `2 * chain_id + 35` or one more. -/
def chainIdOf (v : UInt64) : UInt64 := .ofNat ((v.toNat - 35) / 2)

def decodeLegacySigned : List UInt8 → Option (LegacyTxFields × UInt64 × Word × Word) := list do
  let nonce ← uint64
  let gasPrice ← uint64
  let gasLimit ← uint64
  let toAddress ← fixed 20
  let value ← uint 128
  let data ← string
  let v ← uint64
  let r ← padded 32
  let s ← padded 32
  return ({ nonce, gasPrice, gasLimit, toAddress, value, data, chainId := chainIdOf v }, v, r, s)

/-- The type of the transaction in front of the list. -/
def typed {α : Type} (decode : List UInt8 → Option α) : List UInt8 → Option α
  | 0x02 :: rlp => decode rlp
  | _ => none

def decodeEip1559Unsigned : List UInt8 → Option Eip1559TxFields := typed <| list do
  let chainId ← uint64
  let nonce ← uint64
  let maxPriorityFeePerGas ← uint64
  let maxFeePerGas ← uint64
  let gasLimit ← uint64
  let toAddress ← fixed 20
  let value ← uint 128
  let data ← string
  emptyList
  return { chainId, nonce, maxPriorityFeePerGas, maxFeePerGas, gasLimit, toAddress, value, data }

def decodeEip1559Signed : List UInt8 → Option (Eip1559TxFields × UInt64 × Word × Word) := typed <| list do
  let chainId ← uint64
  let nonce ← uint64
  let maxPriorityFeePerGas ← uint64
  let maxFeePerGas ← uint64
  let gasLimit ← uint64
  let toAddress ← fixed 20
  let value ← uint 128
  let data ← string
  emptyList
  let yParity ← uint64
  let r ← padded 32
  let s ← padded 32
  return ({ chainId, nonce, maxPriorityFeePerGas, maxFeePerGas, gasLimit, toAddress, value, data },
    yParity, r, s)

section Decoders

variable {tx : LegacyTxFields} {tx₁ : Eip1559TxFields}

theorem decode_encodeLegacyUnsigned (h : tx.data.length < 2 ^ 64) :
    decodeLegacyUnsigned (encodeLegacyUnsigned tx) = some tx :=
  list_encodeList <|
    (reads_encodeU64 tx.nonce).bind <|
    (reads_encodeU64 tx.gasPrice).bind <|
    (reads_encodeU64 tx.gasLimit).bind <|
    (reads_encodeAddress tx.toAddress).bind <|
    (reads_encodeU128 tx.value).bind <|
    (reads_encodeBytes h).bind <|
    (reads_encodeU64 tx.chainId).bind <|
    reads_encodeEmpty.bind <|
    reads_encodeEmpty.bind <| Reads.pure tx

theorem decode_encodeLegacySigned (h : tx.data.length < 2 ^ 64) (v : UInt64) (r s : Word) :
    decodeLegacySigned (encodeLegacySigned tx v r s) = some ({ tx with chainId := chainIdOf v }, v, r, s) :=
  list_encodeList <|
    (reads_encodeU64 tx.nonce).bind <|
    (reads_encodeU64 tx.gasPrice).bind <|
    (reads_encodeU64 tx.gasLimit).bind <|
    (reads_encodeAddress tx.toAddress).bind <|
    (reads_encodeU128 tx.value).bind <|
    (reads_encodeBytes h).bind <|
    (reads_encodeU64 v).bind <|
    (reads_encodeU256 r).bind <|
    (reads_encodeU256 s).bind <| Reads.pure ({ tx with chainId := chainIdOf v }, v, r, s)

theorem decode_encodeEip1559Unsigned (h : tx₁.data.length < 2 ^ 64) :
    decodeEip1559Unsigned (encodeEip1559Unsigned tx₁) = some tx₁ :=
  list_encodeList <|
    (reads_encodeU64 tx₁.chainId).bind <|
    (reads_encodeU64 tx₁.nonce).bind <|
    (reads_encodeU64 tx₁.maxPriorityFeePerGas).bind <|
    (reads_encodeU64 tx₁.maxFeePerGas).bind <|
    (reads_encodeU64 tx₁.gasLimit).bind <|
    (reads_encodeAddress tx₁.toAddress).bind <|
    (reads_encodeU128 tx₁.value).bind <|
    (reads_encodeBytes h).bind <|
    reads_emptyList.bind <| Reads.pure tx₁

theorem decode_encodeEip1559Signed (h : tx₁.data.length < 2 ^ 64) (yParity : UInt64) (r s : Word) :
    decodeEip1559Signed (encodeEip1559Signed tx₁ yParity r s) = some (tx₁, yParity, r, s) :=
  list_encodeList <|
    (reads_encodeU64 tx₁.chainId).bind <|
    (reads_encodeU64 tx₁.nonce).bind <|
    (reads_encodeU64 tx₁.maxPriorityFeePerGas).bind <|
    (reads_encodeU64 tx₁.maxFeePerGas).bind <|
    (reads_encodeU64 tx₁.gasLimit).bind <|
    (reads_encodeAddress tx₁.toAddress).bind <|
    (reads_encodeU128 tx₁.value).bind <|
    (reads_encodeBytes h).bind <|
    reads_emptyList.bind <|
    (reads_encodeU64 yParity).bind <|
    (reads_encodeU256 r).bind <|
    (reads_encodeU256 s).bind <| Reads.pure (tx₁, yParity, r, s)

/-- The `v` of EIP-155 tells the chain id. -/
theorem chainIdOf_eip155 {chainId v : UInt64} (parity : Nat) (hp : parity < 2)
    (hv : v.toNat = 2 * chainId.toNat + 35 + parity) : chainIdOf v = chainId := by
  have hdiv : (v.toNat - 35) / 2 = chainId.toNat := by omega
  rw [chainIdOf, hdiv, UInt64.ofNat_toNat]

/-- A list begins with a byte of `0xc0` or more. -/
theorem encodeList_head (items : List (List UInt8)) :
    ∃ b rest, encodeList items = b :: rest ∧ 0xc0 ≤ b.toNat := by
  unfold encodeList wrapList
  by_cases hshort : items.flatten.length ≤ 55
  · rw [if_pos hshort]
    refine ⟨_, _, rfl, ?_⟩
    rw [toNat_add_ofNat (by
      show 0xc0 + _ < 256
      omega)]
    exact Nat.le_add_right _ _
  · rw [if_neg hshort]
    have hlen := length_toBeBytesTrimmed (.ofNat items.flatten.length)
    refine ⟨_, _, rfl, ?_⟩
    rw [toNat_add_ofNat (by
      show 0xf7 + _ < 256
      omega)]
    show 0xc0 ≤ 0xf7 + _
    omega

/-- A list is no transaction with a type. -/
theorem encodeList_ne_typed (items items' : List (List UInt8)) : encodeList items ≠ 0x02 :: encodeList items' := by
  obtain ⟨b, rest, hb, hle⟩ := encodeList_head items
  rw [hb]
  intro heq
  have h2 : b = 0x02 := (List.cons.inj heq).1
  rw [h2] at hle
  exact absurd hle (by decide)

end Decoders

/-- The encodings of valid values can be read back as far as `fields` goes, so they differ where the
fields do. -/
structure Decodable {α β : Type} (valid : α → Prop) (encode : α → List UInt8) (fields : α → β) : Prop where
  decodes : ∃ decode : List UInt8 → Option β, ∀ a, valid a → decode (encode a) = some (fields a)
  injective : ∀ a b, valid a → valid b → encode a = encode b → fields a = fields b

theorem Decodable.of_decode {α β : Type} {valid : α → Prop} {encode : α → List UInt8} {fields : α → β}
    (decode : List UInt8 → Option β) (h : ∀ a, valid a → decode (encode a) = some (fields a)) :
    Decodable valid encode fields where
  decodes := ⟨decode, h⟩
  injective a b ha hb heq := by
    have hdec := h a ha
    rw [heq, h b hb] at hdec
    exact (Option.some.inj hdec).symm

/-- A transaction with its signature; for EIP-1559 the `v` is the parity. -/
structure Signed (τ : Type) where
  tx : τ
  v : UInt64
  r : Word
  s : Word

def Signed.encodeLegacy (t : Signed LegacyTxFields) : List UInt8 := encodeLegacySigned t.tx t.v t.r t.s

def Signed.encodeEip1559 (t : Signed Eip1559TxFields) : List UInt8 := encodeEip1559Signed t.tx t.v t.r t.s

/-- What a signed legacy transaction holds. -/
def Signed.withoutChainId (t : Signed LegacyTxFields) : Signed LegacyTxFields :=
  { t with tx := { t.tx with chainId := 0 } }

/-- `v` is that of EIP-155 for the chain of the transaction. -/
def Signed.Eip155 (t : Signed LegacyTxFields) : Prop :=
  t.v.toNat = 2 * t.tx.chainId.toNat + 35 ∨ t.v.toNat = 2 * t.tx.chainId.toNat + 36

/-- All four encodings can be read back, the legacy ones are not those of type 2, and their integers have
no leading zeros.  A signed legacy transaction holds no chain id, but a `v` of EIP-155 tells it. -/
theorem encodings_decodable :
    Decodable (fun tx => tx.data.length < 2 ^ 64) encodeLegacyUnsigned (fun tx => tx) ∧
    Decodable (fun t => t.tx.data.length < 2 ^ 64) Signed.encodeLegacy Signed.withoutChainId ∧
    Decodable (fun t => t.tx.data.length < 2 ^ 64 ∧ t.Eip155) Signed.encodeLegacy (fun t => t) ∧
    Decodable (fun tx => tx.data.length < 2 ^ 64) encodeEip1559Unsigned (fun tx => tx) ∧
    Decodable (fun t => t.tx.data.length < 2 ^ 64) Signed.encodeEip1559 (fun t => t) ∧
    (∀ val, Canonical (encodeU64 val) val.toNat) ∧ (∀ val, Canonical (encodeU128 val) val.toNat) ∧
    (∀ val, Canonical (encodeU256 val) (fromBeBytes val.toList)) ∧
    (∀ tx tx₁, encodeLegacyUnsigned tx ≠ encodeEip1559Unsigned tx₁) ∧
    (∀ tx t₁, encodeLegacyUnsigned tx ≠ Signed.encodeEip1559 t₁) ∧
    (∀ t tx₁, Signed.encodeLegacy t ≠ encodeEip1559Unsigned tx₁) ∧
    ∀ t t₁, Signed.encodeLegacy t ≠ Signed.encodeEip1559 t₁ := by
  refine ⟨?_, ?_, ?_, ?_, ?_, canonical_encodeU64, canonical_encodeU128, canonical_encodeU256,
    fun _ _ => encodeList_ne_typed _ _, fun _ _ => encodeList_ne_typed _ _,
    fun _ _ => encodeList_ne_typed _ _, fun _ _ => encodeList_ne_typed _ _⟩
  · exact .of_decode decodeLegacyUnsigned fun tx h => decode_encodeLegacyUnsigned h
  · refine .of_decode (fun b => (decodeLegacySigned b).map fun (tx, v, r, s) =>
      Signed.withoutChainId ⟨tx, v, r, s⟩) fun t h => ?_
    exact congrArg (Option.map _) (decode_encodeLegacySigned h t.v t.r t.s)
  · refine .of_decode (fun b => (decodeLegacySigned b).map fun (tx, v, r, s) => ⟨tx, v, r, s⟩) ?_
    rintro t ⟨h, hv⟩
    have hchain : chainIdOf t.v = t.tx.chainId := by
      rcases hv with hv | hv
      · exact chainIdOf_eip155 0 (by decide) hv
      · exact chainIdOf_eip155 1 (by decide) hv
    have hdec := decode_encodeLegacySigned h t.v t.r t.s
    rw [hchain] at hdec
    exact congrArg (Option.map _) hdec
  · exact .of_decode decodeEip1559Unsigned fun tx h => decode_encodeEip1559Unsigned h
  · refine .of_decode (fun b => (decodeEip1559Signed b).map fun (tx, v, r, s) => ⟨tx, v, r, s⟩) fun t h => ?_
    exact congrArg (Option.map _) (decode_encodeEip1559Signed h t.v t.r t.s)

/-- A transfer on some chain. -/
def chainDemo (chainId : UInt64) : Signed LegacyTxFields :=
  ⟨⟨0, 1, 21000, .replicate 20 0x11, 0, [], chainId⟩, 37, .replicate 32 0xAA, .replicate 32 0xBB⟩

/-- Two signed transactions for different chains have the same encoding. -/
theorem chainId_lost :
    ¬ Decodable (fun t : Signed LegacyTxFields => t.tx.data.length < 2 ^ 64) Signed.encodeLegacy (fun t => t) := by
  intro h
  have heq := h.injective (chainDemo 1) (chainDemo 2) (by decide) (by decide) rfl
  have hchain : (chainDemo 1).tx.chainId = (chainDemo 2).tx.chainId := congrArg (·.tx.chainId) heq
  exact absurd hchain (by decide)

end IntentX.Rlp
