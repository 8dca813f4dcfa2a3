import IntentX.Rlp

/-!
# Legacy signatures

`sign_legacy_tx` and `verify_legacy_tx` of `src/wallet/eth_sign.rs`, over the secp256k1 of `k256` and the
Keccak-256 of `sha3`.

The `v` of a legacy signature is twice the chain id, plus 35, plus the recovery id.  Signing overflows for
the chain ids from `2 ^ 63 - 18` on.  Verifying takes the recovery id back out of a `v` that comes from
outside: it underflows below `35` plus twice the chain id, and it keeps only the low byte above, so that
every 256th `v` passes for the same recovery id.
-/

namespace IntentX.EthSign

open Lib Rlp

/-- What is used of `k256` and `sha3`. -/
structure K256 where
  SigningKey : Type
  VerifyingKey : Type
  Signature : Type
  RecoveryId : Type
  keccak256 : List UInt8 → Word
  signingKeyFromBytes : Word → Except String SigningKey
  signPrehashRecoverable : SigningKey → Word → Except String (Signature × RecoveryId)
  verifyingKey : SigningKey → VerifyingKey
  recoverFromPrehash : Word → Signature → RecoveryId → Except String VerifyingKey
  signatureToBytes : Signature → Vector UInt8 64
  signatureFromSlice : Vector UInt8 64 → Except String Signature
  recoveryIdToByte : RecoveryId → UInt8
  recoveryIdFromByte : UInt8 → Option RecoveryId
  /-- Not compressed. -/
  toEncodedPoint : VerifyingKey → Vector UInt8 65

/-- A signature gives back the key it was made with, and a recovery id of 0 or 1 goes with it. -/
structure K256.Inverse (k : K256) : Prop where
  recover : ∀ {key hash sig recid}, k.signPrehashRecoverable key hash = .ok (sig, recid) →
    k.recoverFromPrehash hash sig recid = .ok (k.verifyingKey key)
  parity : ∀ {key hash sig recid}, k.signPrehashRecoverable key hash = .ok (sig, recid) →
    (k.recoveryIdToByte recid).toNat ≤ 1
  signature : ∀ sig, k.signatureFromSlice (k.signatureToBytes sig) = .ok sig
  recoveryId : ∀ recid, k.recoveryIdFromByte (k.recoveryIdToByte recid) = some recid

/-! ## Arithmetic that is checked for overflow -/

def mul? (a b : UInt64) : Option UInt64 := if a.toNat * b.toNat < 2 ^ 64 then some (a * b) else none

def add? (a b : UInt64) : Option UInt64 := if a.toNat + b.toNat < 2 ^ 64 then some (a + b) else none

def sub? (a b : UInt64) : Option UInt64 := if b ≤ a then some (a - b) else none

/-! ## Signing -/

section Source

variable (k : K256)

def signHash (hash privateKey : Word) : Except String (Word × Word × UInt8) := do
  let signingKey ← (k.signingKeyFromBytes privateKey).mapError ("invalid key: " ++ ·)
  let (sig, recid) ← (k.signPrehashRecoverable signingKey hash).mapError ("signing failed: " ++ ·)
  let sigBytes := k.signatureToBytes sig
  return (sigBytes.take 32, sigBytes.drop 32, k.recoveryIdToByte recid)

def pubkeyToAddress (vk : k.VerifyingKey) : Address :=
  (k.keccak256 ((k.toEncodedPoint vk).drop 1).toList).drop 12

def privateKeyToAddress (privateKey : Word) : Except String Address := do
  let signingKey ← (k.signingKeyFromBytes privateKey).mapError ("invalid key: " ++ ·)
  return pubkeyToAddress k (k.verifyingKey signingKey)

def ecrecover (hash : Word) (recoveryId : UInt8) (r s : Word) : Except String Address := do
  let sig ← (k.signatureFromSlice (r ++ s)).mapError ("invalid signature: " ++ ·)
  let recid ← (k.recoveryIdFromByte recoveryId).elim (.error "invalid recovery id") .ok
  let vk ← (k.recoverFromPrehash hash sig recid).mapError ("ecrecover failed: " ++ ·)
  return pubkeyToAddress k vk

/-- The hash that is signed. -/
def signingHash (tx : LegacyTxFields) : Word := k.keccak256 (encodeLegacyUnsigned tx)

/-- `none` is an overflow, as it is for `verify_legacy_tx`. -/
def signLegacyTx (tx : LegacyTxFields) (privateKey : Word) : Option (Except String (List UInt8)) :=
  match signHash k (signingHash k tx) privateKey with
  | .error e => some (.error e)
  | .ok (r, s, recoveryId) => do
    let v ← add? (← add? (← mul? tx.chainId 2) 35) recoveryId.toUInt64
    return .ok (encodeLegacySigned tx v r s)

def verifyLegacyTx (tx : LegacyTxFields) (v : UInt64) (r s : Word) (expectedAddress : Address) :
    Option (Except String Bool) := do
  let recoveryId := (← sub? (← sub? v (← mul? tx.chainId 2)) 35).toUInt8
  return (ecrecover k (signingHash k tx) recoveryId r s).map (· == expectedAddress)

end Source

/-! ## What the functions give -/

section Checked

variable {a b c : UInt64}

theorem mul?_eq_some_iff : mul? a b = some c ↔ c.toNat = a.toNat * b.toNat := by
  unfold mul?
  by_cases h : a.toNat * b.toNat < 2 ^ 64
  · rw [if_pos h, Option.some.injEq, ← UInt64.toNat_inj, UInt64.toNat_mul, Nat.mod_eq_of_lt h, eq_comm]
  · have := c.toNat_lt
    simp only [if_neg h, reduceCtorEq, false_iff]
    omega

theorem add?_eq_some_iff : add? a b = some c ↔ c.toNat = a.toNat + b.toNat := by
  unfold add?
  by_cases h : a.toNat + b.toNat < 2 ^ 64
  · rw [if_pos h, Option.some.injEq, ← UInt64.toNat_inj, UInt64.toNat_add, Nat.mod_eq_of_lt h, eq_comm]
  · have := c.toNat_lt
    simp only [if_neg h, reduceCtorEq, false_iff]
    omega

theorem sub?_eq_some_iff : sub? a b = some c ↔ c.toNat + b.toNat = a.toNat := by
  unfold sub?
  by_cases h : b ≤ a
  · have hle := UInt64.le_iff_toNat_le.1 h
    rw [if_pos h, Option.some.injEq, ← UInt64.toNat_inj, UInt64.toNat_sub_of_le _ _ h]
    omega
  · have hlt := mt UInt64.le_iff_toNat_le.2 h
    simp only [if_neg h, reduceCtorEq, false_iff]
    omega

/-- The `v` of a signature. -/
theorem add_add_mul_eq_some_iff {recid v : UInt64} :
    (do add? (← add? (← mul? a 2) 35) recid) = some v ↔ v.toNat = 2 * a.toNat + 35 + recid.toNat := by
  have h2 : (2 : UInt64).toNat = 2 := rfl
  have h35 : (35 : UInt64).toNat = 35 := rfl
  simp only [Option.bind_eq_bind, Option.bind_eq_some_iff, mul?_eq_some_iff, add?_eq_some_iff, h2, h35]
  constructor
  · rintro ⟨x, hx, y, hy, hv⟩
    omega
  · intro hv
    have hlt := v.toNat_lt
    refine ⟨.ofNat (2 * a.toNat), ?_, .ofNat (2 * a.toNat + 35), ?_, ?_⟩
    · rw [UInt64.toNat_ofNat_of_lt' (by simp only [UInt64.size]; omega), Nat.mul_comm]
    · rw [UInt64.toNat_ofNat_of_lt' (by simp only [UInt64.size]; omega),
        UInt64.toNat_ofNat_of_lt' (by simp only [UInt64.size]; omega)]
    · rw [UInt64.toNat_ofNat_of_lt' (by simp only [UInt64.size]; omega), hv]

/-- The recovery id of a `v`. -/
theorem sub_sub_mul_eq_some_iff {recid v : UInt64} :
    (do sub? (← sub? v (← mul? a 2)) 35) = some recid ↔ recid.toNat + (2 * a.toNat + 35) = v.toNat := by
  have h2 : (2 : UInt64).toNat = 2 := rfl
  have h35 : (35 : UInt64).toNat = 35 := rfl
  simp only [Option.bind_eq_bind, Option.bind_eq_some_iff, mul?_eq_some_iff, sub?_eq_some_iff, h2, h35]
  constructor
  · rintro ⟨x, hx, y, hy, hv⟩
    omega
  · intro hv
    have hlt := v.toNat_lt
    refine ⟨.ofNat (2 * a.toNat), ?_, .ofNat (recid.toNat + 35), ?_, ?_⟩
    · rw [UInt64.toNat_ofNat_of_lt' (by simp only [UInt64.size]; omega), Nat.mul_comm]
    · rw [UInt64.toNat_ofNat_of_lt' (by simp only [UInt64.size]; omega),
        UInt64.toNat_ofNat_of_lt' (by simp only [UInt64.size]; omega)]
      omega
    · rw [UInt64.toNat_ofNat_of_lt' (by simp only [UInt64.size]; omega)]

end Checked

theorem bind_eq_ok_iff {α β : Type} {x : Except String α} {f : α → Except String β} {b : β} :
    x >>= f = .ok b ↔ ∃ a, x = .ok a ∧ f a = .ok b := by
  cases x with
  | error e => simp [bind, Except.bind]
  | ok a => simp [bind, Except.bind]

theorem mapError_eq_ok_iff {α : Type} {x : Except String α} {f : String → String} {a : α} :
    x.mapError f = .ok a ↔ x = .ok a := by
  cases x <;> simp [Except.mapError]

section Facts

variable {k : K256} {tx : LegacyTxFields} {hash key r s : Word} {recid : UInt8} {v : UInt64} {addr : Address}

theorem take_append_drop (x : Vector UInt8 64) : ((x.take 32 : Word) ++ (x.drop 32 : Word)) = x := by
  refine Vector.toList_inj.1 (Vector.toList_append.trans ?_)
  exact (congrArg₂ (· ++ ·) Vector.toList_take Vector.toList_drop).trans (List.take_append_drop 32 _)

/-- The address of the signer is recovered from what he has signed. -/
theorem ecrecover_signHash (h : k.Inverse) (hs : signHash k hash key = .ok (r, s, recid)) :
    recid.toNat ≤ 1 ∧ ∃ signer, privateKeyToAddress k key = .ok signer ∧
      ecrecover k hash recid r s = .ok signer := by
  simp only [signHash, bind_eq_ok_iff, mapError_eq_ok_iff, Prod.exists] at hs
  obtain ⟨signingKey, hkey, sig, rid, hsig, hret⟩ := hs
  cases hret
  refine ⟨h.parity hsig, pubkeyToAddress k (k.verifyingKey signingKey), ?_, ?_⟩
  · rw [privateKeyToAddress, hkey]
    rfl
  · rw [ecrecover, take_append_drop, h.signature, h.recoveryId]
    simp only [bind_eq_ok_iff, mapError_eq_ok_iff]
    exact ⟨sig, rfl, rid, rfl, _, h.recover hsig, rfl⟩

theorem signLegacyTx_eq (hs : signHash k (signingHash k tx) key = .ok (r, s, recid)) :
    signLegacyTx k tx key = (do add? (← add? (← mul? tx.chainId 2) 35) recid.toUInt64).map fun v =>
      .ok (encodeLegacySigned tx v r s) := by
  simp only [signLegacyTx, hs, Option.map_eq_bind, Option.bind_eq_bind, Option.bind_assoc]
  rfl

theorem verifyLegacyTx_eq :
    verifyLegacyTx k tx v r s addr = (do sub? (← sub? v (← mul? tx.chainId 2)) 35).map fun recid : UInt64 =>
      (ecrecover k (signingHash k tx) recid.toUInt8 r s).map (· == addr) := by
  simp only [verifyLegacyTx, Option.map_eq_bind, Option.bind_eq_bind, Option.bind_assoc]
  rfl

theorem map_beq_eq_true_iff {x : Except String Address} : x.map (· == addr) = .ok true ↔ x = .ok addr := by
  cases x <;> simp [Except.map]

/-- Signing overflows exactly when there is no room for the `v`. -/
theorem signLegacyTx_eq_some_iff {rawTx : Except String (List UInt8)}
    (hs : signHash k (signingHash k tx) key = .ok (r, s, recid)) :
    signLegacyTx k tx key = some rawTx ↔
      ∃ v : UInt64, v.toNat = 2 * tx.chainId.toNat + 35 + recid.toNat ∧
        .ok (encodeLegacySigned tx v r s) = rawTx := by
  have hrecid : recid.toUInt64.toNat = recid.toNat := rfl
  rw [signLegacyTx_eq hs, Option.map_eq_some_iff]
  simp only [add_add_mul_eq_some_iff, hrecid]

/-- Verifying looks at the low byte of what is left of the `v`, and underflows when nothing is left. -/
theorem verifyLegacyTx_eq_some_iff {verdict : Except String Bool} :
    verifyLegacyTx k tx v r s addr = some verdict ↔ 2 * tx.chainId.toNat + 35 ≤ v.toNat ∧
      (ecrecover k (signingHash k tx) (.ofNat (v.toNat - 2 * tx.chainId.toNat - 35)) r s).map
        (· == addr) = verdict := by
  have hlt := v.toNat_lt
  have hbyte (recid : UInt64) : recid.toUInt8 = .ofNat recid.toNat := rfl
  rw [verifyLegacyTx_eq, Option.map_eq_some_iff]
  simp only [sub_sub_mul_eq_some_iff, hbyte]
  constructor
  · rintro ⟨recid, hrecid, rfl⟩
    have hrest : v.toNat - 2 * tx.chainId.toNat - 35 = recid.toNat := by omega
    rw [hrest]
    exact ⟨by omega, rfl⟩
  · rintro ⟨hle, rfl⟩
    have hrest : (UInt64.ofNat (v.toNat - 2 * tx.chainId.toNat - 35)).toNat =
        v.toNat - 2 * tx.chainId.toNat - 35 := UInt64.toNat_ofNat_of_lt' (by simp only [UInt64.size]; omega)
    exact ⟨_, by rw [hrest]; omega, by rw [hrest]⟩

theorem verifyLegacyTx_true_iff :
    verifyLegacyTx k tx v r s addr = some (.ok true) ↔ 2 * tx.chainId.toNat + 35 ≤ v.toNat ∧
      ecrecover k (signingHash k tx) (.ofNat (v.toNat - 2 * tx.chainId.toNat - 35)) r s = .ok addr := by
  rw [verifyLegacyTx_eq_some_iff, map_beq_eq_true_iff]

/-- Every 256th `v` passes for the same recovery id. -/
theorem verifyLegacyTx_add_256 (h : verifyLegacyTx k tx v r s addr = some (.ok true))
    (hv : v.toNat + 256 < 2 ^ 64) : verifyLegacyTx k tx (v + 256) r s addr = some (.ok true) := by
  have hadd : (v + 256).toNat = v.toNat + 256 := by
    rw [UInt64.toNat_add]
    exact Nat.mod_eq_of_lt hv
  rw [verifyLegacyTx_true_iff] at h ⊢
  have hrest : v.toNat + 256 - 2 * tx.chainId.toNat - 35 = v.toNat - 2 * tx.chainId.toNat - 35 + 256 := by
    omega
  have hbyte : UInt8.ofNat (v.toNat - 2 * tx.chainId.toNat - 35 + 256) =
      .ofNat (v.toNat - 2 * tx.chainId.toNat - 35) := by
    rw [← UInt8.toNat_inj, UInt8.toNat_ofNat', UInt8.toNat_ofNat', Nat.add_mod_right]
  rw [hadd, hrest, hbyte]
  exact ⟨by omega, h.2⟩

/-- What is signed with `key` is accepted for its address, and of what comes from outside nothing but the
two values of EIP-155 is. -/
structure SignaturesExact (k : K256) (tx : LegacyTxFields) (key : Word) (v : UInt64) (r s : Word)
    (addr : Address) : Prop where
  noOverflow : signLegacyTx k tx key ≠ none
  accepted : ∀ r s recid, signHash k (signingHash k tx) key = .ok (r, s, recid) → ∃ v signer,
    signLegacyTx k tx key = some (.ok (encodeLegacySigned tx v r s)) ∧
      privateKeyToAddress k key = .ok signer ∧ verifyLegacyTx k tx v r s signer = some (.ok true)
  noPanic : verifyLegacyTx k tx v r s addr ≠ none
  eip155 : verifyLegacyTx k tx v r s addr = some (.ok true) →
    v.toNat = 2 * tx.chainId.toNat + 35 ∨ v.toNat = 2 * tx.chainId.toNat + 36

theorem verifyLegacyTx_signed (h : k.Inverse) (hs : signHash k (signingHash k tx) key = .ok (r, s, recid))
    (hv : v.toNat = 2 * tx.chainId.toNat + 35 + recid.toNat) :
    ∃ signer, privateKeyToAddress k key = .ok signer ∧
      verifyLegacyTx k tx v r s signer = some (.ok true) := by
  obtain ⟨-, signer, haddr, hrec⟩ := ecrecover_signHash h hs
  have hrest : v.toNat - 2 * tx.chainId.toNat - 35 = recid.toNat := by omega
  refine ⟨signer, haddr, verifyLegacyTx_true_iff.2 ⟨by omega, ?_⟩⟩
  rw [hrest, UInt8.ofNat_toNat]
  exact hrec

/-- Signing and verifying are exact if and only if the `v` of the signature fits into a `u64`, the `v` that
is verified is not below those of EIP-155, and one above them does not come down, cut to a byte, to an id
under which `r` and `s` recover the address. -/
theorem signaturesExact_iff (h : k.Inverse) (tx : LegacyTxFields) (key : Word) (v : UInt64) (r s : Word)
    (addr : Address) : SignaturesExact k tx key v r s addr ↔
      (∀ r s recid, signHash k (signingHash k tx) key = .ok (r, s, recid) →
        2 * tx.chainId.toNat + 35 + recid.toNat < 2 ^ 64) ∧
      2 * tx.chainId.toNat + 35 ≤ v.toNat ∧
      (v.toNat ≤ 2 * tx.chainId.toNat + 36 ∨
        ecrecover k (signingHash k tx) (.ofNat (v.toNat - 2 * tx.chainId.toNat - 35)) r s ≠ .ok addr) := by
  constructor
  · intro hexact
    obtain ⟨verdict, hverdict⟩ := Option.ne_none_iff_exists'.1 hexact.noPanic
    have hle := (verifyLegacyTx_eq_some_iff.1 hverdict).1
    refine ⟨fun r s recid hs => ?_, hle, ?_⟩
    · obtain ⟨v, -, hsign, -⟩ := hexact.accepted r s recid hs
      obtain ⟨v, hv, -⟩ := (signLegacyTx_eq_some_iff hs).1 hsign
      have := v.toNat_lt
      omega
    · by_contra hcon
      rw [not_or, not_not] at hcon
      have := hexact.eip155 (verifyLegacyTx_true_iff.2 ⟨hle, hcon.2⟩)
      omega
  · rintro ⟨hfits, hle, hid⟩
    have hsigned : ∀ r s recid, signHash k (signingHash k tx) key = .ok (r, s, recid) →
        ∃ v signer, signLegacyTx k tx key = some (.ok (encodeLegacySigned tx v r s)) ∧
          privateKeyToAddress k key = .ok signer ∧
          verifyLegacyTx k tx v r s signer = some (.ok true) := by
      intro r s recid hs
      have hv : (UInt64.ofNat (2 * tx.chainId.toNat + 35 + recid.toNat)).toNat =
          2 * tx.chainId.toNat + 35 + recid.toNat := UInt64.toNat_ofNat_of_lt' (hfits r s recid hs)
      obtain ⟨signer, haddr, hverify⟩ := verifyLegacyTx_signed h hs hv
      exact ⟨_, signer, (signLegacyTx_eq_some_iff hs).2 ⟨_, hv, rfl⟩, haddr, hverify⟩
    refine ⟨?_, hsigned, ?_, fun hv => ?_⟩
    · cases hs : signHash k (signingHash k tx) key with
      | error e => simp [signLegacyTx, hs]
      | ok p =>
        obtain ⟨v, -, hsign, -⟩ := hsigned _ _ _ hs
        simp [hsign]
    · rw [verifyLegacyTx_eq_some_iff.2 ⟨hle, rfl⟩]
      exact Option.some_ne_none _
    · rcases hid with hid | hid
      · omega
      · exact absurd (verifyLegacyTx_true_iff.1 hv).2 hid

end Facts

/-! ## The example of EIP-155 -/

section Eip155

open Text

def word (n : Nat) : Word := ⟨(toBeBytes 32 n).toArray, by simp [Bytes.length_toBeBytes]⟩

def eip155TestTx : LegacyTxFields where
  nonce := 9
  gasPrice := 20000000000
  gasLimit := 21000
  toAddress := .replicate 20 0x35
  value := 1000000000000000000
  data := []
  chainId := 1

def eip155Key : Word := .replicate 32 0x46

def eip155Hash : Word := word 0xdaf5a779ae972f972197303d7b574746c7ef83eadac0f2791ad23db92e4c8e53

def eip155R : Word := word 0x28ef61340bd939bc2195fe537567866003e1a15d3c71ff63e1590620aa636276

def eip155S : Word := word 0x67cbe9d8997f761aecb703304b3800ccf555c9f3dc64214b297fb1966a3b6d83

def eip155Point : Vector UInt8 65 :=
  #v[(4 : UInt8)] ++ word 0x4bc2a31265153f07e70e0bab08724e6b85e217f8cd628ceb62974247bb493382 ++
    word 0xce28cab79ad7119ee1ad3ebcdb98a16805211530ecc6cfefa1b88e6dff99232a

def eip155Signer : Address := (word 0x9cead80a9d0a0951cdbf966b9d8a62f656a8d1615c1294fd71e9cfb3e4855a4f).drop 12

/-- Signs one hash with one key. -/
def eip155K256 : K256 where
  SigningKey := Word
  VerifyingKey := Vector UInt8 65
  Signature := Vector UInt8 64
  RecoveryId := Fin 4
  keccak256 data :=
    if data = encodeLegacyUnsigned eip155TestTx then eip155Hash
    else if data = (eip155Point.drop 1).toList then
      word 0x9cead80a9d0a0951cdbf966b9d8a62f656a8d1615c1294fd71e9cfb3e4855a4f
    else word 0
  signingKeyFromBytes key := .ok key
  signPrehashRecoverable key hash :=
    if key = eip155Key ∧ hash = eip155Hash then .ok (eip155R ++ eip155S, 0) else .error "signature error"
  verifyingKey _ := eip155Point
  recoverFromPrehash hash sig recid :=
    if hash = eip155Hash ∧ sig = eip155R ++ eip155S ∧ recid = 0 then .ok eip155Point
    else .error "signature error"
  signatureToBytes sig := sig
  signatureFromSlice bytes := .ok bytes
  recoveryIdToByte recid := .ofNat recid
  recoveryIdFromByte b := if h : b.toNat < 4 then some ⟨b.toNat, h⟩ else none
  toEncodedPoint vk := vk

theorem inverse_eip155K256 : eip155K256.Inverse where
  recover := by
    intro key hash sig recid h
    simp only [eip155K256] at h ⊢
    split at h
    · rename_i hk
      cases h
      rw [if_pos ⟨hk.2, rfl, rfl⟩]
    · cases h
  parity := by
    intro key hash sig recid h
    simp only [eip155K256] at h
    split at h
    · cases h
      decide
    · cases h
  signature _ := rfl
  recoveryId recid := by
    have h (i : Fin 4) : (if h : (UInt8.ofNat i).toNat < 4 then some (⟨(UInt8.ofNat i).toNat, h⟩ : Fin 4)
        else none) = some i := by
      revert i
      decide
    exact h recid

/-- One below, the verifier underflows; 256 above, it accepts. -/
theorem verifyLegacyTx_eip155 :
    ¬ SignaturesExact eip155K256 eip155TestTx eip155Key 36 eip155R eip155S eip155Signer ∧
      ¬ SignaturesExact eip155K256 eip155TestTx eip155Key 293 eip155R eip155S eip155Signer := by
  constructor
  · intro h
    exact h.noPanic (by decide +kernel)
  · intro h
    exact absurd (h.eip155 (by decide +kernel)) (by decide)

theorem signaturesExact_eip155 :
    SignaturesExact eip155K256 eip155TestTx eip155Key 37 eip155R eip155S eip155Signer :=
  (signaturesExact_iff inverse_eip155K256 _ _ _ _ _ _).2
    ⟨fun r s recid hs => by
      have hp := (ecrecover_signHash inverse_eip155K256 hs).1
      have hc : eip155TestTx.chainId.toNat = 1 := rfl
      omega, by decide, .inl (by decide)⟩

end Eip155

end IntentX.EthSign
