import IntentX.SolanaPrivileges

/-!
# The signatures of a Solana transaction

`SignedTransaction::sign` and `to_bytes` of `src/wallet/solana_tx.rs`, over the Ed25519 of `ed25519_dalek`.

`serialise` decides the order of the account keys, and `sign` makes the signatures in the order of the seeds
it is given.  The `i`-th signature belongs to the `i`-th key if and only if the seeds come in the order of
the keys, and their number is counted in a byte.
-/

namespace IntentX.SolanaTx

open Lib Bytes ShortVec

/-- What is used of `ed25519_dalek`; `verify` is `verify_strict`. -/
structure Ed25519 where
  publicKey : Vector UInt8 32 → Pubkey
  sign : Vector UInt8 32 → List UInt8 → Vector UInt8 64
  verify : Pubkey → List UInt8 → Vector UInt8 64 → Bool

/-- A signature verifies under the key of the signer. -/
def Ed25519.Verifies (e : Ed25519) : Prop :=
  ∀ seed message, e.verify (e.publicKey seed) message (e.sign seed message) = true

/-- It verifies under no other key. -/
def Ed25519.Exclusive (e : Ed25519) : Prop :=
  ∀ seed message key, e.verify key message (e.sign seed message) = true → key = e.publicKey seed

/-! ## Signing -/

structure SignedTransaction where
  signatures : List (Vector UInt8 64)
  message : List UInt8

section Source

variable (e : Ed25519)

/-- `solana_signing::sign` -/
def sign (seed : Vector UInt8 32) (message : List UInt8) : Except String (List UInt8) :=
  .ok (e.sign seed message).toList

/-- `sig_bytes.try_into()` -/
def toSignature (sigBytes : List UInt8) : Except String (Vector UInt8 64) :=
  if h : sigBytes.length = 64 then .ok ⟨sigBytes.toArray, by simpa using h⟩
  else .error "Signature not 64 bytes"

def SignedTransaction.sign (message : TransactionMessage) (signers : List (Vector UInt8 32)) :
    Except String SignedTransaction := do
  let serialised := message.serialise
  let signatures ← signers.mapM fun seed => do toSignature (← SolanaTx.sign e seed serialised)
  return ⟨signatures, serialised⟩

/-- `[sig_count][signatures][message]` -/
def SignedTransaction.toBytes (self : SignedTransaction) : List UInt8 :=
  encodeCompactU16 (.ofNat self.signatures.length) ++ self.signatures.flatMap (·.toList) ++ self.message

end Source

/-! ## What is signed -/

section Signed

variable {e : Ed25519} {msg : TransactionMessage} {seeds : List (Vector UInt8 32)}

theorem toSignature_toList (sig : Vector UInt8 64) : toSignature sig.toList = .ok sig := by
  have h : sig.toList.length = 64 := sig.length_toList
  rw [toSignature, dif_pos h]
  rfl

/-- One signature for each seed, in the order of the seeds. -/
theorem sign_eq (e : Ed25519) (msg : TransactionMessage) (seeds : List (Vector UInt8 32)) :
    SignedTransaction.sign e msg seeds =
      .ok ⟨seeds.map fun seed => e.sign seed msg.serialise, msg.serialise⟩ := by
  have hsignatures : (seeds.mapM fun seed => do toSignature (← SolanaTx.sign e seed msg.serialise)) =
      .ok (seeds.map fun seed => e.sign seed msg.serialise) := by
    induction seeds with
    | nil => rfl
    | cons seed seeds ih =>
      rw [List.mapM_cons, ih]
      show (toSignature (e.sign seed msg.serialise).toList >>= _) = _
      rw [toSignature_toList]
      rfl
  unfold SignedTransaction.sign
  dsimp only
  rw [hsignatures]
  rfl

/-- The keys of the message that have to sign: the fee payer, and what some instruction lists as a signer. -/
def TransactionMessage.SignedBy (msg : TransactionMessage) (keys : List Pubkey) : Prop :=
  keys.Nodup ∧ ∀ key, key ∈ keys ↔ msg.Lists (·.isSigner) key

/-- The `i`-th signature is one under the `i`-th key of the message, for as many keys as the header says. -/
structure LinedUp (e : Ed25519) (msg : TransactionMessage) (signed : SignedTransaction) : Prop where
  count : signed.signatures.length = msg.header.numRequiredSignatures.toNat
  verifies : ∀ (i : Nat) (sig : Vector UInt8 64), signed.signatures[i]? = some sig →
    ∃ key, msg.accountKeys[i]? = some key ∧ e.verify key signed.message sig = true

/-- The keys that are first mentioned as signers, the writable ones first. -/
def TransactionMessage.signerKeys (msg : TransactionMessage) : List Pubkey :=
  msg.groupKeys true true ++ msg.groupKeys true false

theorem accountKeys_eq_append (msg : TransactionMessage) : msg.accountKeys =
    msg.signerKeys ++ (msg.groupKeys false true ++ msg.groupKeys false false) :=
  accountKeys_eq_groups msg

theorem numRequiredSignatures_eq (msg : TransactionMessage) :
    msg.header.numRequiredSignatures.toNat = msg.signerKeys.length % 256 := by
  rw [header_eq, UInt8.toNat_ofNat', TransactionMessage.signerKeys, List.length_append,
    TransactionMessage.groupKeys, TransactionMessage.groupKeys, List.length_map, List.length_map]

/-- What is first mentioned as a signer has to sign. -/
theorem signerKeys_listed {key : Pubkey} (h : key ∈ msg.signerKeys) : msg.Lists (·.isSigner) key := by
  have hgroup : ∀ writable, key ∈ msg.groupKeys true writable → msg.Lists (·.isSigner) key := by
    intro writable hmem
    obtain ⟨a, ha, rfl⟩ := List.mem_map.1 hmem
    obtain ⟨hfirst, hflags⟩ := List.mem_filter.1 ha
    rw [Bool.and_eq_true, beq_iff_eq] at hflags
    exact signer_listed hfirst hflags.1
  rcases List.mem_append.1 h with h | h
  · exact hgroup true h
  · exact hgroup false h

theorem length_signerKeys_le {keys : List Pubkey} (h : msg.SignedBy keys) :
    msg.signerKeys.length ≤ keys.length := by
  have hnodup : msg.signerKeys.Nodup := by
    have hall := nodup_accountKeys msg
    rw [accountKeys_eq_append] at hall
    exact (List.nodup_append.1 hall).1
  have hsub : msg.signerKeys ⊆ keys := by
    intro key hkey
    exact (h.2 key).2 (signerKeys_listed hkey)
  exact (List.Nodup.subperm hnodup hsub).length_le

theorem linedUp_of_order (hverifies : e.Verifies) (horder : seeds.map e.publicKey = msg.signerKeys)
    (hcount : seeds.length ≤ 255) :
    LinedUp e msg ⟨seeds.map fun seed => e.sign seed msg.serialise, msg.serialise⟩ := by
  have hlen : msg.signerKeys.length = seeds.length := by
    rw [← horder, List.length_map]
  refine ⟨?_, ?_⟩
  · rw [List.length_map, numRequiredSignatures_eq, hlen]
    omega
  · intro i sig hsig
    obtain ⟨seed, hseed, rfl⟩ := Option.map_eq_some_iff.1 ((List.getElem?_map).symm.trans hsig)
    refine ⟨e.publicKey seed, ?_, hverifies seed _⟩
    have hlt : i < msg.signerKeys.length := hlen ▸ (List.getElem?_eq_some_iff.1 hseed).1
    rw [accountKeys_eq_append, List.getElem?_append_left hlt, ← horder, List.getElem?_map, hseed]
    rfl

theorem order_of_linedUp (hexclusive : e.Exclusive) (hseeds : msg.SignedBy (seeds.map e.publicKey))
    (h : LinedUp e msg ⟨seeds.map fun seed => e.sign seed msg.serialise, msg.serialise⟩) :
    seeds.map e.publicKey = msg.signerKeys ∧ seeds.length ≤ 255 := by
  have hcount := h.count
  have hle := length_signerKeys_le hseeds
  rw [List.length_map] at hcount hle
  rw [numRequiredSignatures_eq] at hcount
  have hlen : msg.signerKeys.length = seeds.length := by omega
  refine ⟨?_, by omega⟩
  apply List.ext_getElem?
  intro i
  cases hseed : seeds[i]? with
  | none =>
    have hge := List.getElem?_eq_none_iff.1 hseed
    rw [List.getElem?_map, hseed, List.getElem?_eq_none (by omega)]
    rfl
  | some seed =>
    have hlt := (List.getElem?_eq_some_iff.1 hseed).1
    obtain ⟨key, hkey, hverify⟩ := h.verifies i (e.sign seed msg.serialise) (by
      rw [List.getElem?_map, hseed]
      rfl)
    rw [accountKeys_eq_append, List.getElem?_append_left (by omega)] at hkey
    rw [List.getElem?_map, hseed, hkey, hexclusive seed _ key hverify]
    rfl

/-- Whatever seeds are given for the keys that have to sign, in whatever order: the signatures line up with
the keys if the seeds are in the order of the first mentions, the writable ones first, and at most 255; and,
as a signature verifies under no other key, only if they are. -/
theorem linedUp_iff (hverifies : e.Verifies) (hseeds : msg.SignedBy (seeds.map e.publicKey)) :
    ∃ signed, SignedTransaction.sign e msg seeds = .ok signed ∧
      (seeds.map e.publicKey = msg.signerKeys ∧ seeds.length ≤ 255 → LinedUp e msg signed) ∧
      (e.Exclusive →
        (LinedUp e msg signed ↔ seeds.map e.publicKey = msg.signerKeys ∧ seeds.length ≤ 255)) := by
  have hif := fun h : seeds.map e.publicKey = msg.signerKeys ∧ seeds.length ≤ 255 =>
    linedUp_of_order hverifies h.1 h.2
  refine ⟨_, sign_eq e msg seeds, hif, ?_⟩
  intro hexclusive
  exact ⟨order_of_linedUp hexclusive hseeds, hif⟩

/-- A transaction of at most 65535 signatures is read as its signatures and its message. -/
theorem SignedTransaction.reads_toBytes {signed : SignedTransaction} {m : Message}
    (hcount : signed.signatures.length < 65536) (hmessage : Reads SolanaTx.message signed.message m) :
    Reads (do return (← vec (array 64), ← SolanaTx.message)) signed.toBytes (signed.signatures, m) := by
  have hsignatures : Reads (vec (array 64)) (encodeCompactU16 (.ofNat signed.signatures.length) ++
      signed.signatures.flatMap (·.toList)) (signed.signatures.map fun sig => sig) :=
    reads_vec _ (reads_encodeCompactU16 hcount) fun sig _ => reads_array sig
  rw [List.map_id'] at hsignatures
  exact hsignatures.bind <| hmessage.bind_nil <| Reads.pure _

end Signed

/-! ## A transfer that another pays for -/

section Demo

/-- The `n` bytes of a number. -/
def bytesOf (n value : Nat) : Vector UInt8 n := ⟨(Text.toBeBytes n value).toArray, by simp [length_toBeBytes]⟩

/-- The key of the seed of ones. -/
def payerKey : Pubkey := bytesOf 32 0x8a88e3dd7409f195fd52db2d3cba5d72ca6709bf1d94121bf3748801b40f6f5c

/-- The key of the seed of sevens. -/
def authorityKey : Pubkey := bytesOf 32 0xea4a6c63e29c520abef5507b132ec5f9954776aebebe7b92421eea691446d22c

def paidTransfer : TransactionMessage :=
  .new payerKey (.replicate 32 2)
    [splTransferInstruction (.replicate 32 3) (.replicate 32 4) authorityKey 100]

/-- The payer's signature of the transfer. -/
def payerSignature : Vector UInt8 64 := bytesOf 64
  (0xb95bdee2306f31e79a5e910d9c4f7de33389c759d4a7d53865bd99b9524848f9 * 256 ^ 32 +
    0x46b7adc5fbe605f30f5548ddd2bb1f5a68f46b0bdfa9f1db7cc6f42e3c2f300b)

/-- The authority's. -/
def authoritySignature : Vector UInt8 64 := bytesOf 64
  (0xb1a404876ec454487f221f056e63d6fe00ab5f0bd12f1f727ddf719cc15ef22f * 256 ^ 32 +
    0xb917b65b552e8a418b1f03d27f6aabef805dbaf12ad484db897cea8275a00000)

/-- What is not the transfer, or not under these keys, is signed by writing the key. -/
def demoSignature (key : Pubkey) (message : List UInt8) : Vector UInt8 64 :=
  if message = paidTransfer.serialise ∧ key = payerKey then payerSignature
  else if message = paidTransfer.serialise ∧ key = authorityKey then authoritySignature
  else key ++ (.replicate 32 0 : Vector UInt8 32)

def demoPublicKey (seed : Vector UInt8 32) : Pubkey :=
  if seed = .replicate 32 1 then payerKey else if seed = .replicate 32 7 then authorityKey else seed

def demoEd25519 : Ed25519 where
  publicKey := demoPublicKey
  sign seed message := demoSignature (demoPublicKey seed) message
  verify key message sig := sig == demoSignature key message

theorem demo_verifies : demoEd25519.Verifies := by
  intro seed message
  exact beq_self_eq_true _

/-- The last byte but two tells which of the three it is. -/
theorem demoSignature_getElem (key : Pubkey) (message : List UInt8) : (demoSignature key message)[61] =
    if message = paidTransfer.serialise ∧ key = payerKey then 47
    else if message = paidTransfer.serialise ∧ key = authorityKey then 160 else 0 := by
  unfold demoSignature
  split_ifs
  · show payerSignature[61] = 47
    decide +kernel
  · show authoritySignature[61] = 160
    decide +kernel
  · rw [Vector.getElem_append_right]
    · exact Vector.getElem_replicate _
    · omega

theorem demoSignature_inj {key key' : Pubkey} {message : List UInt8}
    (h : demoSignature key message = demoSignature key' message) : key = key' := by
  have hbyte : (demoSignature key message)[61] = (demoSignature key' message)[61] := by rw [h]
  rw [demoSignature_getElem, demoSignature_getElem] at hbyte
  split_ifs at hbyte with h₁ h₂ _ h₄ _ h₆ h₇ h₈
  · exact h₁.2.trans h₂.2.symm
  · exact absurd hbyte (by decide)
  · exact absurd hbyte (by decide)
  · exact absurd hbyte (by decide)
  · exact h₄.2.trans h₆.2.symm
  · exact absurd hbyte (by decide)
  · exact absurd hbyte (by decide)
  · exact absurd hbyte (by decide)
  · unfold demoSignature at h
    rw [if_neg h₁, if_neg h₄, if_neg h₇, if_neg h₈] at h
    exact (Vector.append_inj h).1

theorem demo_exclusive : demoEd25519.Exclusive := by
  intro seed message key h
  exact (demoSignature_inj (beq_iff_eq.1 h)).symm

theorem paidTransfer_signedBy {keys : List Pubkey} (h : keys.Perm [payerKey, authorityKey]) :
    paidTransfer.SignedBy keys := by
  refine ⟨h.nodup_iff.2 (by decide +kernel), ?_⟩
  intro key
  rw [h.mem_iff]
  constructor
  · intro hkey
    simp only [List.mem_cons, List.not_mem_nil, or_false] at hkey
    rcases hkey with rfl | rfl
    · exact .inl rfl
    · exact .inr ⟨_, List.mem_singleton.2 rfl, ⟨authorityKey, true, false⟩, by simp [splTransferInstruction],
        rfl, rfl⟩
  · rintro (rfl | ⟨ix, hix, acc, hacc, rfl, hflag⟩)
    · exact List.mem_cons_self
    · obtain rfl := List.mem_singleton.1 hix
      simp only [splTransferInstruction, List.mem_cons, List.not_mem_nil, or_false] at hacc
      rcases hacc with rfl | rfl | rfl
      · cases hflag
      · cases hflag
      · exact List.mem_cons_of_mem _ List.mem_cons_self

/-- With the seed of the payer first the signatures line up. -/
theorem paidTransfer_linedUp : ∃ signed, SignedTransaction.sign demoEd25519 paidTransfer
    [.replicate 32 1, .replicate 32 7] = .ok signed ∧ LinedUp demoEd25519 paidTransfer signed := by
  have hkeys : paidTransfer.SignedBy ([.replicate 32 1, .replicate 32 7].map demoEd25519.publicKey) :=
    paidTransfer_signedBy (.refl _)
  obtain ⟨signed, hsigned, -, hiff⟩ := linedUp_iff demo_verifies hkeys
  exact ⟨signed, hsigned, (hiff demo_exclusive).2 ⟨by decide +kernel, by decide⟩⟩

/-- With the seed of the authority first they do not. -/
theorem paidTransfer_not_linedUp : demoEd25519.Verifies ∧
    paidTransfer.SignedBy ([.replicate 32 7, .replicate 32 1].map demoEd25519.publicKey) ∧
    ∃ signed, SignedTransaction.sign demoEd25519 paidTransfer [.replicate 32 7, .replicate 32 1] = .ok signed ∧
      ¬ LinedUp demoEd25519 paidTransfer signed := by
  have hsigned : paidTransfer.SignedBy ([.replicate 32 7, .replicate 32 1].map demoEd25519.publicKey) :=
    paidTransfer_signedBy (.swap _ _ _)
  refine ⟨demo_verifies, hsigned, _, sign_eq _ _ _, ?_⟩
  intro h
  have horder := (order_of_linedUp demo_exclusive hsigned h).1
  exact absurd horder (by decide +kernel)

end Demo

end IntentX.SolanaTx
