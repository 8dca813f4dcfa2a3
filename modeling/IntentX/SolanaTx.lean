import IntentX.Lib.Keyed
import IntentX.Lib.ShortVec
import Mathlib.Data.Finset.Card

/-!
# Solana messages

`TransactionMessage::serialise` of `src/wallet/solana_tx.rs`, and the reader of the wire format.

The accounts of a message are its mentions in order, of each key the first one, in a stable sort by
privilege: the four classes of the header, one after the other.  With at most 255 keys the reader gets all
of it back.
-/

namespace IntentX.SolanaTx

open Lib Bytes ShortVec

/-! ## Messages -/

/-- `[u8; 32]` -/
abbrev Pubkey := Vector UInt8 32

structure AccountMeta where
  pubkey : Pubkey
  isSigner : Bool
  isWritable : Bool
  deriving DecidableEq

structure Instruction where
  programId : Pubkey
  accounts : List AccountMeta
  data : List UInt8
  deriving DecidableEq

structure TransactionMessage where
  recentBlockhash : Pubkey
  instructions : List Instruction
  feePayer : Pubkey
  deriving DecidableEq

def TransactionMessage.new (feePayer recentBlockhash : Pubkey) (instructions : List Instruction) :
    TransactionMessage where
  feePayer := feePayer
  recentBlockhash := recentBlockhash
  instructions := instructions

/-! ## Serialisation -/

/-- Flags and key.  Bit 1 is that of a signer, bit 0 that of a writable account. -/
abbrev Account := UInt8 × Pubkey

def signerBit (a : Account) : UInt8 := (a.1 >>> 1) &&& 1

def writableBit (a : Account) : UInt8 := a.1 &&& 1

/-- The two variables of the loop over the instructions. -/
structure Collected where
  accounts : List Account
  seen : List Pubkey

def Collected.add (c : Collected) (flags : UInt8) (key : Pubkey) : Collected :=
  if key ∈ c.seen then c else ⟨c.accounts ++ [(flags, key)], key :: c.seen⟩

def AccountMeta.flags (acc : AccountMeta) : UInt8 := (acc.isSigner.toUInt8 <<< 1) ||| acc.isWritable.toUInt8

def Collected.addInstruction (c : Collected) (ix : Instruction) : Collected :=
  (ix.accounts.foldl (fun c acc => c.add acc.flags acc.pubkey) c).add 0b00 ix.programId

def TransactionMessage.collect (self : TransactionMessage) : Collected :=
  self.instructions.foldl Collected.addInstruction ⟨[(0b11, self.feePayer)], [self.feePayer]⟩

/-- Signers first, then by writable. -/
def cmpAccounts (a b : Account) : Ordering :=
  (compare (signerBit b) (signerBit a)).then (compare (writableBit b) (writableBit a))

/-- Ensures that the fee payer is at index 0. -/
def feePayerFirst (feePayer : Pubkey) (accounts : List Account) : List Account :=
  match accounts.findIdx? (·.2 == feePayer) with
  | none => accounts
  | some pos => if pos = 0 then accounts else accounts[pos]?.toList ++ accounts.eraseIdx pos

def TransactionMessage.accounts (self : TransactionMessage) : List Account :=
  feePayerFirst self.feePayer (self.collect.accounts.insertionSort fun a b => cmpAccounts a b ≠ .gt)

structure Header where
  numRequiredSignatures : UInt8
  numReadonlySigned : UInt8
  numReadonlyUnsigned : UInt8
  deriving DecidableEq

def headerOf (accounts : List Account) : Header where
  numRequiredSignatures := .ofNat (accounts.filter fun a => signerBit a = 1).length
  numReadonlySigned := .ofNat (accounts.filter fun a => signerBit a = 1 ∧ writableBit a = 0).length
  numReadonlyUnsigned := .ofNat (accounts.filter fun a => signerBit a = 0 ∧ writableBit a = 0).length

def indexOf (accountKeys : List Pubkey) (pubkey : Pubkey) : UInt8 :=
  .ofNat ((accountKeys.findIdx? (· == pubkey)).getD 0)

def encodeCompactU16 (val : UInt16) : List UInt8 :=
  if val < 0x80 then [val.toUInt8]
  else if val < 0x4000 then [((val &&& 0x7f) ||| 0x80).toUInt8, (val >>> 7).toUInt8]
  else [((val &&& 0x7f) ||| 0x80).toUInt8, (((val >>> 7) &&& 0x7f) ||| 0x80).toUInt8, (val >>> 14).toUInt8]

def Instruction.encode (accountKeys : List Pubkey) (ix : Instruction) : List UInt8 :=
  indexOf accountKeys ix.programId ::
    (encodeCompactU16 (.ofNat ix.accounts.length) ++ ix.accounts.map (fun acc => indexOf accountKeys acc.pubkey) ++
      encodeCompactU16 (.ofNat ix.data.length) ++ ix.data)

def TransactionMessage.header (self : TransactionMessage) : Header := headerOf self.accounts

def TransactionMessage.accountKeys (self : TransactionMessage) : List Pubkey := self.accounts.map (·.2)

def TransactionMessage.serialise (self : TransactionMessage) : List UInt8 :=
  [self.header.numRequiredSignatures, self.header.numReadonlySigned, self.header.numReadonlyUnsigned] ++
    encodeCompactU16 (.ofNat self.accountKeys.length) ++ self.accountKeys.flatMap (·.toList) ++
    self.recentBlockhash.toList ++
    encodeCompactU16 (.ofNat self.instructions.length) ++
    self.instructions.flatMap (·.encode self.accountKeys)

/-! ## The wire format -/

structure CompiledInstruction where
  programIdIndex : UInt8
  accounts : List UInt8
  data : List UInt8
  deriving DecidableEq

structure Message where
  header : Header
  accountKeys : List Pubkey
  recentBlockhash : Pubkey
  instructions : List CompiledInstruction
  deriving DecidableEq

def header : Reader Header := do return ⟨← byte, ← byte, ← byte⟩

def compiledInstruction : Reader CompiledInstruction := do return ⟨← byte, ← vec byte, ← vec byte⟩

def message : Reader Message := do
  return ⟨← header, ← vec (array 32), ← array 32, ← vec compiledInstruction⟩

/-- The key an index stands for. -/
def Message.resolve (m : Message) (index : UInt8) : Option Pubkey := m.accountKeys[index.toNat]?

/-- The first accounts sign. -/
def Header.Signer (h : Header) (i : Nat) : Prop := i < h.numRequiredSignatures.toNat

/-- Of `n` accounts, the last signers and the last of the others are readonly. -/
def Header.Writable (h : Header) (n i : Nat) : Prop :=
  if i < h.numRequiredSignatures.toNat then
    i < h.numRequiredSignatures.toNat - h.numReadonlySigned.toNat
  else i < n - h.numReadonlyUnsigned.toNat

/-! ## The accounts of a message -/

section Accounts

variable {msg : TransactionMessage} {c : Collected} {ms : List AccountMeta} {a b : AccountMeta}

/-- The fee payer, and for every instruction its accounts and its program. -/
def TransactionMessage.mentions (msg : TransactionMessage) : List AccountMeta :=
  ⟨msg.feePayer, true, true⟩ ::
    msg.instructions.flatMap fun ix => ix.accounts ++ [⟨ix.programId, false, false⟩]

def TransactionMessage.keys (msg : TransactionMessage) : Finset Pubkey :=
  (msg.mentions.map (·.pubkey)).toFinset

/-- The first mentions of the keys. -/
def TransactionMessage.firstMentions (msg : TransactionMessage) : List AccountMeta :=
  firsts (·.pubkey) msg.mentions

def AccountMeta.account (a : AccountMeta) : Account := (a.flags, a.pubkey)

/-- What the loop holds are the accounts of `ms`. -/
def Collected.Holds (c : Collected) (ms : List AccountMeta) : Prop :=
  c.accounts = ms.map (·.account) ∧ ∀ key, key ∈ c.seen ↔ key ∈ ms.map (·.pubkey)

theorem holds_add (h : c.Holds ms) (a : AccountMeta) :
    (c.add a.flags a.pubkey).Holds (addFirst (·.pubkey) ms a) := by
  unfold Collected.add addFirst
  by_cases hmem : a.pubkey ∈ ms.map (·.pubkey)
  · rw [if_pos hmem, if_pos ((h.2 _).2 hmem)]
    exact h
  · rw [if_neg hmem, if_neg (mt (h.2 _).1 hmem)]
    constructor
    · rw [h.1, List.map_append]
      rfl
    · intro key
      rw [List.mem_cons, h.2, List.map_append, List.mem_append, List.map_singleton, List.mem_singleton,
        or_comm]

theorem holds_foldl_add (h : c.Holds ms) (as : List AccountMeta) :
    (as.foldl (fun c a => c.add a.flags a.pubkey) c).Holds (as.foldl (addFirst (·.pubkey)) ms) := by
  induction as generalizing c ms with
  | nil => exact h
  | cons a as ih => exact ih (holds_add h a)

/-- A program is mentioned with neither flag. -/
theorem addInstruction_eq (c : Collected) (ix : Instruction) :
    c.addInstruction ix = (ix.accounts ++ [(⟨ix.programId, false, false⟩ : AccountMeta)]).foldl
      (fun c a => c.add a.flags a.pubkey) c := by
  have hflags : (⟨ix.programId, false, false⟩ : AccountMeta).flags = 0b00 := by
    show ((false.toUInt8 <<< 1) ||| false.toUInt8 : UInt8) = 0b00
    decide
  rw [List.foldl_append, List.foldl_cons, List.foldl_nil, hflags]
  rfl

/-- The loop takes up the first mentions. -/
theorem collect_accounts (msg : TransactionMessage) :
    msg.collect.accounts = msg.firstMentions.map (·.account) := by
  have hstart : Collected.Holds ⟨[(0b11, msg.feePayer)], [msg.feePayer]⟩ [⟨msg.feePayer, true, true⟩] :=
    have hflags : (0b11 : UInt8) = (true.toUInt8 <<< 1) ||| true.toUInt8 := by decide
    ⟨congrArg (fun flags : UInt8 => [(flags, msg.feePayer)]) hflags, fun _ => Iff.rfl⟩
  have hfold : msg.collect =
      (msg.instructions.flatMap fun ix => ix.accounts ++ [(⟨ix.programId, false, false⟩ : AccountMeta)]).foldl
        (fun c a => c.add a.flags a.pubkey) ⟨[(0b11, msg.feePayer)], [msg.feePayer]⟩ := by
    rw [List.foldl_flatMap]
    exact List.foldl_ext _ _ _ fun c ix _ => addInstruction_eq c ix
  have hend := holds_foldl_add hstart
    (msg.instructions.flatMap fun ix => ix.accounts ++ [⟨ix.programId, false, false⟩])
  rw [hfold, hend.1, foldl_addFirst, TransactionMessage.firstMentions, TransactionMessage.mentions, firsts]
  refine congrArg (List.map _ <| _ :: ·) (List.filter_congr fun a _ => ?_)
  rw [List.map_singleton]
  exact decide_eq_decide.2 (not_congr List.mem_singleton)

/-! ### Privileges -/

/-- Three to zero. -/
def AccountMeta.rank (a : AccountMeta) : Nat := 2 * a.isSigner.toNat + a.isWritable.toNat

theorem signerBit_account (a : AccountMeta) : signerBit a.account = a.isSigner.toUInt8 := by
  have h : ∀ s w : Bool, (((s.toUInt8 <<< 1) ||| w.toUInt8) >>> 1) &&& 1 = s.toUInt8 := by decide
  exact h a.isSigner a.isWritable

theorem writableBit_account (a : AccountMeta) : writableBit a.account = a.isWritable.toUInt8 := by
  have h : ∀ s w : Bool, ((s.toUInt8 <<< 1) ||| w.toUInt8) &&& 1 = w.toUInt8 := by decide
  exact h a.isSigner a.isWritable

theorem cmpAccounts_account (a b : AccountMeta) :
    cmpAccounts a.account b.account ≠ .gt ↔ b.rank ≤ a.rank := by
  rw [cmpAccounts, signerBit_account, signerBit_account, writableBit_account, writableBit_account,
    AccountMeta.rank, AccountMeta.rank]
  cases a.isSigner <;> cases b.isSigner <;> cases a.isWritable <;> cases b.isWritable <;> decide

theorem rank_le (a : AccountMeta) : a.rank ≤ 3 := by
  unfold AccountMeta.rank
  cases a.isSigner <;> cases a.isWritable <;> decide

theorem isSigner_of_rank_le (h : b.rank ≤ a.rank) (hb : b.isSigner) : a.isSigner := by
  revert h hb
  unfold AccountMeta.rank
  cases a.isSigner <;> cases b.isSigner <;> cases a.isWritable <;> cases b.isWritable <;> decide

theorem isWritable_of_rank_le (hs : b.isSigner = a.isSigner) (h : b.rank ≤ a.rank) (hb : b.isWritable) :
    a.isWritable := by
  revert h hb
  unfold AccountMeta.rank
  rw [hs]
  cases a.isSigner <;> cases a.isWritable <;> cases b.isWritable <;> decide

/-- The first mentions of a privilege. -/
def TransactionMessage.group (msg : TransactionMessage) (signer writable : Bool) : List AccountMeta :=
  msg.firstMentions.filter fun a => a.isSigner == signer && a.isWritable == writable

/-- The first mentions in the order of the wire. -/
def TransactionMessage.placed (msg : TransactionMessage) : List AccountMeta :=
  msg.firstMentions.insertionSort fun a b => b.rank ≤ a.rank

/-- The fee payer is sorted to the front, and moving it there does nothing. -/
theorem placed_cons (msg : TransactionMessage) : ∃ rest, msg.placed = ⟨msg.feePayer, true, true⟩ :: rest :=
  ⟨_, List.insertionSort_cons_of_forall_rel _ fun b _ => rank_le b⟩

theorem accounts_eq (msg : TransactionMessage) : msg.accounts = msg.placed.map (·.account) := by
  have hsort : msg.collect.accounts.insertionSort (fun a b => cmpAccounts a b ≠ .gt) =
      msg.placed.map (·.account) := by
    rw [collect_accounts, TransactionMessage.placed]
    exact (List.map_insertionSort _ _ _ _ fun a _ b _ => (cmpAccounts_account a b).symm).symm
  obtain ⟨rest, hrest⟩ := placed_cons msg
  rw [TransactionMessage.accounts, hsort, hrest, List.map_cons, feePayerFirst, List.findIdx?_cons]
  simp [AccountMeta.account]

/-- The accounts are the four classes of the header. -/
theorem placed_eq_groups (msg : TransactionMessage) :
    msg.placed = msg.group true true ++ msg.group true false ++
      (msg.group false true ++ msg.group false false) := by
  have hpair : msg.placed.Pairwise fun a b => b.rank ≤ a.rank :=
    List.pairwise_insertionSort _ msg.firstMentions
  have hsigner : msg.placed.Pairwise fun a b => b.isSigner → a.isSigner :=
    hpair.imp fun {a b} h => isSigner_of_rank_le h
  have hwritable (s : Bool) : (msg.placed.filter fun a => a.isSigner == s).Pairwise fun a b =>
      b.isWritable → a.isWritable := by
    refine (hpair.filter fun a => a.isSigner == s).imp_of_mem fun {a b} ha hb h => ?_
    have hs : b.isSigner = a.isSigner :=
      (eq_of_beq (List.mem_filter.1 hb).2).trans (eq_of_beq (List.mem_filter.1 ha).2).symm
    exact isWritable_of_rank_le hs h
  -- within a class the sort keeps the order of the first mentions
  have hgroup (s w : Bool) :
      (msg.placed.filter fun a => a.isSigner == s).filter (fun a => a.isWritable == w) = msg.group s w := by
    have hstable : msg.placed.filter (fun a => a.isSigner == s && a.isWritable == w) = msg.group s w := by
      refine filter_insertionSort (r := fun a b : AccountMeta => b.rank ≤ a.rank) fun a b ha hb => ?_
      simp only [Bool.and_eq_true, beq_iff_eq] at ha hb
      rw [AccountMeta.rank, AccountMeta.rank, ha.1, ha.2, hb.1, hb.2]
    rw [← hstable, List.filter_filter]
    exact List.filter_congr fun a _ => Bool.and_comm _ _
  have hsplit (s : Bool) :
      (msg.placed.filter fun a => a.isSigner == s) = msg.group s true ++ msg.group s false := by
    have h := eq_filter_append_filter (hwritable s)
    rw [h, ← hgroup, ← hgroup]
    simp
  have h := eq_filter_append_filter hsigner
  have htrue := hsplit true
  have hfalse := hsplit false
  simp only [beq_true, beq_false] at htrue hfalse
  rw [h, htrue, hfalse]

theorem accountKeys_eq (msg : TransactionMessage) : msg.accountKeys = msg.placed.map (·.pubkey) := by
  rw [TransactionMessage.accountKeys, accounts_eq, List.map_map]
  rfl

theorem perm_accountKeys (msg : TransactionMessage) :
    msg.accountKeys.Perm (msg.firstMentions.map (·.pubkey)) := by
  rw [accountKeys_eq]
  exact (List.perm_insertionSort _ _).map _

theorem nodup_accountKeys (msg : TransactionMessage) : msg.accountKeys.Nodup :=
  (perm_accountKeys msg).nodup_iff.2 nodup_firsts

theorem mem_accountKeys {key : Pubkey} : key ∈ msg.accountKeys ↔ key ∈ msg.keys := by
  rw [(perm_accountKeys msg).mem_iff, TransactionMessage.keys, List.mem_toFinset]
  exact mem_map_firsts

theorem length_accountKeys (msg : TransactionMessage) : msg.accountKeys.length = msg.keys.card := by
  rw [← List.toFinset_card_of_nodup (nodup_accountKeys msg)]
  congr 1
  ext key
  rw [List.mem_toFinset, mem_accountKeys]

/-- How many accounts have flags of a kind. -/
theorem length_filter_accounts (msg : TransactionMessage) (p : Account → Bool) (q : Bool → Bool → Bool)
    (hp : ∀ a : AccountMeta, p a.account = q a.isSigner a.isWritable) :
    (msg.accounts.filter p).length =
      (bif q true true then (msg.group true true).length else 0) +
        (bif q true false then (msg.group true false).length else 0) +
        ((bif q false true then (msg.group false true).length else 0) +
          (bif q false false then (msg.group false false).length else 0)) := by
  have hgroup (s w : Bool) : ((msg.group s w).filter fun a => p a.account).length =
      bif q s w then (msg.group s w).length else 0 := by
    have hall : ∀ a ∈ msg.group s w, p a.account = q s w := by
      intro a ha
      have h := (List.mem_filter.1 ha).2
      simp only [Bool.and_eq_true, beq_iff_eq] at h
      rw [hp, h.1, h.2]
    cases hq : q s w with
    | true => rw [List.filter_eq_self.2 fun a ha => by rw [hall a ha, hq], cond_true]
    | false =>
      rw [List.filter_eq_nil_iff.2 fun a ha => by simp [hall a ha, hq], cond_false]
      rfl
  rw [accounts_eq, List.filter_map, List.length_map, placed_eq_groups]
  simp only [List.filter_append, List.length_append, Function.comp_def, hgroup]

/-- The header counts the classes. -/
theorem header_eq (msg : TransactionMessage) : msg.header =
    { numRequiredSignatures := .ofNat ((msg.group true true).length + (msg.group true false).length)
      numReadonlySigned := .ofNat (msg.group true false).length
      numReadonlyUnsigned := .ofNat (msg.group false false).length } := by
  have hone : ∀ s : Bool, decide (s.toUInt8 = 1) = s := by decide
  have hzero : ∀ s : Bool, decide (s.toUInt8 = 0) = !s := by decide
  have h₁ := length_filter_accounts msg (fun a => signerBit a = 1) (fun s _ => s) fun a => by
    rw [signerBit_account, hone]
  have h₂ := length_filter_accounts msg (fun a => signerBit a = 1 ∧ writableBit a = 0) (fun s w => s && !w)
    fun a => by rw [signerBit_account, writableBit_account, Bool.decide_and, hone, hzero]
  have h₃ := length_filter_accounts msg (fun a => signerBit a = 0 ∧ writableBit a = 0) (fun s w => !s && !w)
    fun a => by rw [signerBit_account, writableBit_account, Bool.decide_and, hzero, hzero]
  simp only [TransactionMessage.header, headerOf, h₁, h₂, h₃, Bool.not_true, Bool.not_false, Bool.and_true,
    Bool.and_false, Bool.and_self, cond_true, cond_false, Nat.add_zero, Nat.zero_add]

end Accounts

/-! ## Reading it back -/

section Reading

/-- Seven bits and the sign that more follow. -/
theorem toNat_continue (val : UInt16) : (((val &&& 0x7f) ||| 0x80).toUInt8).toNat = val.toNat % 128 + 128 := by
  have h7f : (0x7f : UInt16).toNat = 2 ^ 7 - 1 := rfl
  have h80 : (0x80 : UInt16).toNat = 2 ^ 7 * 1 := rfl
  have hlow : val.toNat % 2 ^ 7 < 2 ^ 7 := Nat.mod_lt _ (by decide)
  rw [UInt16.toNat_toUInt8, UInt16.toNat_or, UInt16.toNat_and, h7f, h80, Nat.and_two_pow_sub_one_eq_mod,
    Nat.or_comm, ← Nat.two_pow_add_eq_or_of_lt hlow]
  omega

theorem toNat_shiftRight_seven (val : UInt16) : (val >>> 7).toNat = val.toNat / 128 := by
  rw [UInt16.toNat_shiftRight, Nat.shiftRight_eq_div_pow]
  rfl

theorem toNat_shiftRight_fourteen (val : UInt16) : (val >>> 14).toNat = val.toNat / 16384 := by
  rw [UInt16.toNat_shiftRight, Nat.shiftRight_eq_div_pow]
  rfl

/-- A length below `2 ^ 16` reads back. -/
theorem reads_encodeCompactU16 {n : Nat} (h : n < 65536) : Reads len (encodeCompactU16 (.ofNat n)) n := by
  have hn : (UInt16.ofNat n).toNat = n := UInt16.toNat_ofNat_of_lt' h
  have hb₀ := toNat_continue (.ofNat n)
  rw [hn] at hb₀
  unfold encodeCompactU16
  by_cases h₁ : UInt16.ofNat n < 0x80
  · have hlt : n < 0x80 := hn ▸ UInt16.lt_iff_toNat_lt.1 h₁
    rw [if_pos h₁]
    refine reads_len_one ?_ hlt
    rw [UInt16.toNat_toUInt8, hn]
    omega
  · have hge : 0x80 ≤ n := hn ▸ UInt16.le_iff_toNat_le.1 (UInt16.not_lt.1 h₁)
    rw [if_neg h₁]
    by_cases h₂ : UInt16.ofNat n < 0x4000
    · have hlt : n < 0x4000 := hn ▸ UInt16.lt_iff_toNat_lt.1 h₂
      rw [if_pos h₂]
      refine reads_len_two hb₀ ?_ hge hlt
      rw [UInt16.toNat_toUInt8, toNat_shiftRight_seven, hn]
      omega
    · have hge' : 0x4000 ≤ n := hn ▸ UInt16.le_iff_toNat_le.1 (UInt16.not_lt.1 h₂)
      have hb₁ := toNat_continue (UInt16.ofNat n >>> 7)
      rw [toNat_shiftRight_seven, hn] at hb₁
      rw [if_neg h₂]
      refine reads_len_three hb₀ hb₁ ?_ hge' h
      rw [UInt16.toNat_toUInt8, toNat_shiftRight_fourteen, hn]
      omega

variable {msg : TransactionMessage} {keys : List Pubkey} {key : Pubkey} {ix : Instruction}

/-- What is left of an instruction in a message. -/
def Instruction.compile (accountKeys : List Pubkey) (ix : Instruction) : CompiledInstruction where
  programIdIndex := indexOf accountKeys ix.programId
  accounts := ix.accounts.map fun acc => indexOf accountKeys acc.pubkey
  data := ix.data

theorem reads_encode (keys : List Pubkey) (hacc : ix.accounts.length < 65536) (hdata : ix.data.length < 65536) :
    Reads compiledInstruction (ix.encode keys) (ix.compile keys) := by
  have haccounts : Reads (vec byte) (encodeCompactU16 (.ofNat ix.accounts.length) ++
      ix.accounts.map fun acc => indexOf keys acc.pubkey) _ :=
    reads_vec_byte (by rw [List.length_map]; exact reads_encodeCompactU16 hacc)
  have hbytes := reads_vec_byte (reads_encodeCompactU16 hdata)
  have hparts : ix.encode keys = [indexOf keys ix.programId] ++
      ((encodeCompactU16 (.ofNat ix.accounts.length) ++ ix.accounts.map (fun acc => indexOf keys acc.pubkey)) ++
        (encodeCompactU16 (.ofNat ix.data.length) ++ ix.data)) := by
    simp [Instruction.encode]
  rw [hparts]
  exact (reads_byte _).bind <| haccounts.bind <| hbytes.bind_nil <| Reads.pure _

theorem reads_header (h : Header) :
    Reads header [h.numRequiredSignatures, h.numReadonlySigned, h.numReadonlyUnsigned] h :=
  Reads.byte_bind <| Reads.byte_bind <| Reads.byte_bind <| Reads.pure _

/-- The message of `serialise`. -/
def TransactionMessage.compile (msg : TransactionMessage) : Message where
  header := msg.header
  accountKeys := msg.accountKeys
  recentBlockhash := msg.recentBlockhash
  instructions := msg.instructions.map (·.compile msg.accountKeys)

theorem reads_serialise (hkeys : msg.accountKeys.length < 65536) (hix : msg.instructions.length < 65536)
    (hacc : ∀ ix ∈ msg.instructions, ix.accounts.length < 65536)
    (hdata : ∀ ix ∈ msg.instructions, ix.data.length < 65536) :
    Reads message msg.serialise msg.compile := by
  have haccountKeys : Reads (vec (array 32)) (encodeCompactU16 (.ofNat msg.accountKeys.length) ++
      msg.accountKeys.flatMap (·.toList)) (msg.accountKeys.map fun key => key) :=
    reads_vec _ (reads_encodeCompactU16 hkeys) fun key _ => reads_array key
  have hinstructions : Reads (vec compiledInstruction) (encodeCompactU16 (.ofNat msg.instructions.length) ++
      msg.instructions.flatMap (·.encode msg.accountKeys)) (msg.instructions.map (·.compile msg.accountKeys)) :=
    reads_vec _ (reads_encodeCompactU16 hix) fun ix h => reads_encode _ (hacc ix h) (hdata ix h)
  have hparts : msg.serialise =
      [msg.header.numRequiredSignatures, msg.header.numReadonlySigned, msg.header.numReadonlyUnsigned] ++
        ((encodeCompactU16 (.ofNat msg.accountKeys.length) ++ msg.accountKeys.flatMap (·.toList)) ++
          (msg.recentBlockhash.toList ++ (encodeCompactU16 (.ofNat msg.instructions.length) ++
            msg.instructions.flatMap (·.encode msg.accountKeys)))) := by
    simp [TransactionMessage.serialise]
  rw [List.map_id'] at haccountKeys
  rw [hparts]
  exact (reads_header _).bind <| haccountKeys.bind <| (reads_array _).bind <| hinstructions.bind_nil <|
    Reads.pure _

/-- An index stands for the key it was made for, as long as an index fits into a byte. -/
theorem getElem?_indexOf (hlen : keys.length ≤ 256) (h : key ∈ keys) :
    keys[(indexOf keys key).toNat]? = some key := by
  cases hfind : keys.findIdx? (· == key) with
  | none => exact absurd (List.findIdx?_eq_none_iff.1 hfind key h) (by simp)
  | some i =>
    obtain ⟨hi, hkey, -⟩ := List.findIdx?_eq_some_iff_getElem.1 hfind
    have hindex : (indexOf keys key).toNat = i := by
      rw [indexOf, hfind, Option.getD_some, UInt8.toNat_ofNat']
      omega
    rw [hindex, List.getElem?_eq_getElem hi, eq_of_beq hkey]

/-- An instruction of the wire stands for `ix`. -/
structure Message.Resolves (m : Message) (c : CompiledInstruction) (ix : Instruction) : Prop where
  programId : m.resolve c.programIdIndex = some ix.programId
  accounts : c.accounts.map m.resolve = ix.accounts.map fun acc => some acc.pubkey
  data : c.data = ix.data

theorem mem_keys_of_mention {a : AccountMeta} (h : a ∈ msg.mentions) : a.pubkey ∈ msg.keys :=
  List.mem_toFinset.2 (List.mem_map_of_mem h)

theorem resolves_compile (hlen : msg.accountKeys.length ≤ 256) (h : ix ∈ msg.instructions) :
    msg.compile.Resolves (ix.compile msg.accountKeys) ix := by
  have hmentions : ∀ a ∈ ix.accounts ++ [⟨ix.programId, false, false⟩], a ∈ msg.mentions := fun a ha =>
    List.mem_cons_of_mem _ (List.mem_flatMap.2 ⟨ix, h, ha⟩)
  have hindex : ∀ a ∈ ix.accounts ++ [⟨ix.programId, false, false⟩],
      msg.accountKeys[(indexOf msg.accountKeys a.pubkey).toNat]? = some a.pubkey := fun a ha =>
    getElem?_indexOf hlen (mem_accountKeys.2 (mem_keys_of_mention (hmentions a ha)))
  refine ⟨?_, ?_, rfl⟩
  · exact hindex ⟨ix.programId, false, false⟩ (List.mem_append_right _ List.mem_cons_self)
  · rw [Instruction.compile, List.map_map]
    exact List.map_congr_left fun acc hacc => hindex acc (List.mem_append_left _ hacc)

/-- The keys of a class. -/
def TransactionMessage.groupKeys (msg : TransactionMessage) (signer writable : Bool) : List Pubkey :=
  (msg.group signer writable).map (·.pubkey)

/-- The keys are in the four classes, one after the other, and the header counts them. -/
structure Message.Ordered (m : Message) (msg : TransactionMessage) : Prop where
  accountKeys : m.accountKeys = msg.groupKeys true true ++ msg.groupKeys true false ++
    (msg.groupKeys false true ++ msg.groupKeys false false)
  numRequiredSignatures : m.header.numRequiredSignatures.toNat =
    (msg.groupKeys true true).length + (msg.groupKeys true false).length
  numReadonlySigned : m.header.numReadonlySigned.toNat = (msg.groupKeys true false).length
  numReadonlyUnsigned : m.header.numReadonlyUnsigned.toNat = (msg.groupKeys false false).length

theorem accountKeys_eq_groups (msg : TransactionMessage) :
    msg.accountKeys = msg.groupKeys true true ++ msg.groupKeys true false ++
      (msg.groupKeys false true ++ msg.groupKeys false false) := by
  rw [accountKeys_eq, placed_eq_groups, List.map_append, List.map_append, List.map_append]
  rfl

theorem ordered_compile (hlen : msg.accountKeys.length ≤ 255) : msg.compile.Ordered msg := by
  have hkeys := accountKeys_eq_groups msg
  have hsum : (msg.group true true).length + (msg.group true false).length +
      ((msg.group false true).length + (msg.group false false).length) ≤ 255 := by
    rw [hkeys] at hlen
    simpa [TransactionMessage.groupKeys, Nat.add_assoc] using hlen
  have hheader : msg.compile.header = _ := header_eq msg
  refine ⟨hkeys, ?_, ?_, ?_⟩
  all_goals
    rw [hheader, UInt8.toNat_ofNat_of_lt' (by simp only [UInt8.size]; omega)]
    simp only [TransactionMessage.groupKeys, List.length_map]

/-- A message of at most 255 keys can be read back: the fee payer comes first, no key comes twice, the keys
are in the order the header tells, and every index stands for its key. -/
theorem serialise_decodable (hkeys : msg.keys.card ≤ 255) (hix : msg.instructions.length < 65536)
    (hacc : ∀ ix ∈ msg.instructions, ix.accounts.length < 65536)
    (hdata : ∀ ix ∈ msg.instructions, ix.data.length < 65536) :
    ∃ m, message.whole msg.serialise = some m ∧ m.accountKeys.Nodup ∧
      m.accountKeys.head? = some msg.feePayer ∧ m.Ordered msg ∧
      m.recentBlockhash = msg.recentBlockhash ∧ List.Forall₂ m.Resolves m.instructions msg.instructions := by
  rw [← length_accountKeys] at hkeys
  refine ⟨msg.compile, (reads_serialise (by omega) hix hacc hdata).whole, nodup_accountKeys msg, ?_,
    ordered_compile hkeys, rfl, ?_⟩
  · obtain ⟨rest, hrest⟩ := placed_cons msg
    show msg.accountKeys.head? = _
    rw [accountKeys_eq, hrest]
    rfl
  · show List.Forall₂ _ (msg.instructions.map _) msg.instructions
    rw [List.forall₂_map_left_iff, List.forall₂_same]
    exact fun ix h => resolves_compile (by omega) h

end Reading

/-! ## A transfer -/

/-- The transfer of the tests: the fee payer signs for it too. -/
def transferMessage : TransactionMessage :=
  .new (.replicate 32 1) (.replicate 32 2)
    [{ programId := .replicate 32 6
       accounts := [⟨.replicate 32 3, false, true⟩, ⟨.replicate 32 4, false, true⟩, ⟨.replicate 32 1, true, false⟩]
       data := [3, 100, 0, 0, 0, 0, 0, 0, 0] }]

theorem transferMessage_decodable :
    ∃ m, message.whole transferMessage.serialise = some m ∧ m.accountKeys.Nodup ∧
      m.accountKeys.head? = some transferMessage.feePayer ∧ m.Ordered transferMessage ∧
      m.recentBlockhash = transferMessage.recentBlockhash ∧
      List.Forall₂ m.Resolves m.instructions transferMessage.instructions :=
  serialise_decodable (by decide) (by decide) (by decide) (by decide)

end IntentX.SolanaTx
