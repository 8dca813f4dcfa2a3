import IntentX.SolanaTx
import IntentX.Lib.Text

/-!
# The privileges of the accounts of a Solana message

Whether an account signs and whether it is written is told by its place and the header.  `serialise` places
an account by its first mention, and a later mention with more flags is lost.

A transfer that creates the account of the receiver mentions the receiver without flags before the authority
signs, so a transfer to oneself that another pays for goes without the signature.
-/

namespace IntentX.SolanaTx

open Lib

section Privileges

variable {msg : TransactionMessage} {flag : AccountMeta → Bool} {key : Pubkey} {a : AccountMeta} {i : Nat}

/-- The fee payer, or some instruction lists it with the flag. -/
def TransactionMessage.Lists (msg : TransactionMessage) (flag : AccountMeta → Bool) (key : Pubkey) : Prop :=
  key = msg.feePayer ∨ ∃ ix ∈ msg.instructions, ∃ acc ∈ ix.accounts, acc.pubkey = key ∧ flag acc

/-- Every key has its place by all of its mentions. -/
def TransactionMessage.Merged (msg : TransactionMessage) : Prop :=
  ∀ i key, msg.accountKeys[i]? = some key →
    (msg.header.Signer i ↔ msg.Lists (·.isSigner) key) ∧
      (msg.header.Writable msg.accountKeys.length i ↔ msg.Lists (·.isWritable) key)

/-- A flag that the fee payer has and a program has not. -/
theorem lists_iff (hpayer : ∀ key, flag ⟨key, true, true⟩) (hprogram : ∀ key, flag ⟨key, false, false⟩ = false) :
    msg.Lists flag key ↔ ∃ a ∈ msg.mentions, a.pubkey = key ∧ flag a := by
  constructor
  · rintro (rfl | ⟨ix, hix, acc, hacc, hkey, hflag⟩)
    · exact ⟨_, List.mem_cons_self, rfl, hpayer _⟩
    · exact ⟨acc, List.mem_cons_of_mem _ (List.mem_flatMap.2 ⟨ix, hix, List.mem_append_left _ hacc⟩), hkey,
        hflag⟩
  · rintro ⟨a, ha, hkey, hflag⟩
    rcases List.mem_cons.1 ha with rfl | ha
    · exact .inl hkey.symm
    · obtain ⟨ix, hix, ha⟩ := List.mem_flatMap.1 ha
      rcases List.mem_append.1 ha with ha | ha
      · exact .inr ⟨ix, hix, a, ha, hkey, hflag⟩
      · rw [List.mem_singleton.1 ha, hprogram] at hflag
        cases hflag

theorem lists_of_firstMention (ha : a ∈ msg.firstMentions) (hflag : flag a)
    (hpayer : ∀ key, flag ⟨key, true, true⟩) (hprogram : ∀ key, flag ⟨key, false, false⟩ = false) :
    msg.Lists flag a.pubkey :=
  (lists_iff hpayer hprogram).2 ⟨a, firsts_sublist.subset ha, rfl, hflag⟩

theorem signer_listed (ha : a ∈ msg.firstMentions) (h : a.isSigner) : msg.Lists (·.isSigner) a.pubkey :=
  lists_of_firstMention ha h (fun _ => rfl) fun _ => rfl

theorem writable_listed (ha : a ∈ msg.firstMentions) (h : a.isWritable) : msg.Lists (·.isWritable) a.pubkey :=
  lists_of_firstMention ha h (fun _ => rfl) fun _ => rfl

theorem getElem?_append_eq_some_iff {α : Type} {l₁ l₂ : List α} {a : α} :
    (l₁ ++ l₂)[i]? = some a ↔ l₁[i]? = some a ∨ l₁.length ≤ i ∧ l₂[i - l₁.length]? = some a := by
  rcases Nat.lt_or_ge i l₁.length with hi | hi
  · rw [List.getElem?_append_left hi, or_iff_left fun h => absurd h.1 (Nat.not_le_of_lt hi)]
  · rw [List.getElem?_append_right hi, List.getElem?_eq_none hi]
    simp [hi]

theorem of_group {s w : Bool} (h : (msg.group s w)[i]? = some a) :
    i < (msg.group s w).length ∧ a.isSigner = s ∧ a.isWritable = w := by
  have hmem := (List.mem_filter.1 (List.mem_of_getElem? h)).2
  rw [Bool.and_eq_true, beq_iff_eq, beq_iff_eq] at hmem
  exact ⟨(List.getElem?_eq_some_iff.1 h).1, hmem⟩

/-- Signers are in front, among them and among the others the writable ones, and what has neither flag comes
last, in the order of the first mentions. -/
theorem placed_at (h : msg.placed[i]? = some a) :
    (a.isSigner ↔ i < (msg.group true true).length + (msg.group true false).length) ∧
    (a.isSigner → (a.isWritable ↔ i < (msg.group true true).length)) ∧
    (¬ a.isSigner → ¬ a.isWritable → (msg.group true true).length + (msg.group true false).length +
      (msg.group false true).length ≤ i ∧ (msg.group false false)[i - ((msg.group true true).length +
        (msg.group true false).length + (msg.group false true).length)]? = some a) ∧
    (¬ a.isSigner → a.isWritable → i < (msg.group true true).length + (msg.group true false).length +
      (msg.group false true).length) := by
  rw [placed_eq_groups] at h
  simp only [getElem?_append_eq_some_iff, List.length_append] at h
  rcases h with (h | ⟨hle, h⟩) | ⟨hle, h | ⟨hle', h⟩⟩
  all_goals
    obtain ⟨hlt, hs, hw⟩ := of_group h
    simp only [hs, hw, Bool.false_eq_true, not_true_eq_false, not_false_eq_true, true_iff, false_iff,
      IsEmpty.forall_iff, forall_const, and_true, true_and]
  · exact ⟨by omega, hlt⟩
  · exact ⟨by omega, by omega⟩
  · exact ⟨by omega, by omega⟩
  · have hrest : i - ((msg.group true true).length + (msg.group true false).length) -
        (msg.group false true).length = i - ((msg.group true true).length + (msg.group true false).length +
          (msg.group false true).length) := by omega
    rw [hrest] at h
    exact ⟨by omega, by omega, h⟩

/-- What is first mentioned with neither flag comes last. -/
theorem placed_readonly (h : (msg.group false false)[i]? = some a) :
    msg.placed[(msg.group true true).length + (msg.group true false).length +
      (msg.group false true).length + i]? = some a ∧ i < (msg.group false false).length := by
  refine ⟨?_, (of_group h).1⟩
  have hlen : (msg.group true true ++ msg.group true false ++ msg.group false true).length =
      (msg.group true true).length + (msg.group true false).length + (msg.group false true).length := by
    rw [List.length_append, List.length_append]
  rw [placed_eq_groups, ← List.append_assoc, ← hlen, List.getElem?_append_right (Nat.le_add_right _ _),
    Nat.add_sub_cancel_left]
  exact h

/-- A key has one place, that of its first mention. -/
theorem accountKeys_getElem?_iff :
    msg.accountKeys[i]? = some key ↔ ∃ a, msg.placed[i]? = some a ∧ a.pubkey = key := by
  rw [accountKeys_eq, List.getElem?_map, Option.map_eq_some_iff]

theorem exists_placed (ha : a ∈ msg.firstMentions) : ∃ i : Nat, msg.placed[i]? = some a :=
  List.mem_iff_getElem?.1 ((List.mem_insertionSort _).2 ha)

theorem firstMention_of_placed (h : msg.placed[i]? = some a) : a ∈ msg.firstMentions :=
  (List.mem_insertionSort _).1 (List.mem_of_getElem? h)

theorem merged_iff_placed : msg.Merged ↔ ∀ i a, msg.placed[i]? = some a →
    (msg.header.Signer i ↔ msg.Lists (·.isSigner) a.pubkey) ∧
      (msg.header.Writable msg.accountKeys.length i ↔ msg.Lists (·.isWritable) a.pubkey) := by
  unfold TransactionMessage.Merged
  simp only [accountKeys_getElem?_iff]
  constructor
  · intro h i a ha
    exact h i _ ⟨a, ha, rfl⟩
  · rintro h i _ ⟨a, ha, rfl⟩
    exact h i a ha

/-- The first mention of a key carries its flags.  What is first mentioned with neither is counted in a byte:
past 255 of it the count starts anew, and what comes before is taken for writable. -/
structure TransactionMessage.FirstMentionsCarry (msg : TransactionMessage) : Prop where
  signers : (msg.group true true).length + (msg.group true false).length ≤ 255
  signer : ∀ a ∈ msg.firstMentions, msg.Lists (·.isSigner) a.pubkey → a.isSigner
  writableSigner : ∀ a ∈ msg.firstMentions, a.isSigner → msg.Lists (·.isWritable) a.pubkey → a.isWritable
  readonly : ∀ i a, (msg.group false false)[i]? = some a → (msg.Lists (·.isWritable) a.pubkey ↔
    i < (msg.group false false).length - (msg.group false false).length % 256)

theorem length_placed : msg.accountKeys.length = (msg.group true true).length + (msg.group true false).length +
    (msg.group false true).length + (msg.group false false).length := by
  rw [accountKeys_eq, placed_eq_groups]
  simp [Nat.add_assoc]

theorem signer_iff : msg.header.Signer i ↔
    i < ((msg.group true true).length + (msg.group true false).length) % 256 := by
  rw [Header.Signer, header_eq, UInt8.toNat_ofNat']

/-- What the header says with at most 255 signers. -/
theorem writable_iff (h : (msg.group true true).length + (msg.group true false).length ≤ 255) :
    msg.header.Writable msg.accountKeys.length i ↔
      i < (msg.group true true).length ∨ (msg.group true true).length + (msg.group true false).length ≤ i ∧
        i < msg.accountKeys.length - (msg.group false false).length % 256 := by
  rw [Header.Writable, header_eq, UInt8.toNat_ofNat', UInt8.toNat_ofNat', UInt8.toNat_ofNat']
  split <;> omega

/-- Of more than 255 signers the last one is past what a byte counts. -/
theorem signers_le (h : ∀ i a, msg.placed[i]? = some a → msg.Lists (·.isSigner) a.pubkey → msg.header.Signer i) :
    (msg.group true true).length + (msg.group true false).length ≤ 255 := by
  by_contra hcon
  have hlast : (msg.group true true).length + (msg.group true false).length - 1 < msg.placed.length := by
    rw [placed_eq_groups]
    simp only [List.length_append]
    omega
  have hget := List.getElem?_eq_getElem hlast
  have hs := (placed_at hget).1.2 (by omega)
  have hplace := signer_iff.1 (h _ _ hget (signer_listed (firstMention_of_placed hget) hs))
  omega

theorem merged_iff_carry : msg.Merged ↔ msg.FirstMentionsCarry := by
  rw [merged_iff_placed]
  constructor
  · intro h
    have hsigners := signers_le fun i a hi => (h i a hi).1.2
    refine ⟨hsigners, ?_, ?_, ?_⟩
    · intro a ha hlisted
      obtain ⟨i, hi⟩ := exists_placed ha
      have hplace := signer_iff.1 ((h i a hi).1.2 hlisted)
      rw [Nat.mod_eq_of_lt (by omega)] at hplace
      exact (placed_at hi).1.2 hplace
    · intro a ha hs hlisted
      obtain ⟨i, hi⟩ := exists_placed ha
      have hlt := (placed_at hi).1.1 hs
      have hplace := (writable_iff hsigners).1 ((h i a hi).2.2 hlisted)
      exact ((placed_at hi).2.1 hs).2 (by omega)
    · intro i a hi
      obtain ⟨hget, hlt⟩ := placed_readonly hi
      rw [← (h _ a hget).2, writable_iff hsigners, length_placed]
      omega
  · rintro ⟨hsigners, hsigner, hwritable, hreadonly⟩ i a hi
    have ha := firstMention_of_placed hi
    obtain ⟨hs, hsw, hro, hw⟩ := placed_at hi
    constructor
    · rw [signer_iff, Nat.mod_eq_of_lt (by omega), ← hs]
      exact ⟨signer_listed ha, hsigner a ha⟩
    · rw [writable_iff hsigners, length_placed]
      by_cases hsigner' : a.isSigner
      · have hlt := hs.1 hsigner'
        constructor
        · intro hplace
          exact writable_listed ha ((hsw hsigner').2 (by omega))
        · intro hlisted
          exact .inl ((hsw hsigner').1 (hwritable a ha hsigner' hlisted))
      · have hge := mt hs.2 hsigner'
        by_cases hw' : a.isWritable
        · have hlt := hw hsigner' hw'
          exact ⟨fun _ => writable_listed ha hw', fun _ => .inr (by omega)⟩
        · obtain ⟨hle, hget⟩ := hro hsigner' hw'
          rw [hreadonly _ a hget]
          omega

/-- With at most 255 keys: no mention has a flag that the first of its key has not. -/
theorem merged_iff_of_card_le (h : msg.keys.card ≤ 255) : msg.Merged ↔
    ∀ a ∈ msg.firstMentions, ∀ b ∈ msg.mentions, b.pubkey = a.pubkey →
      (b.isSigner → a.isSigner) ∧ (b.isWritable → a.isWritable) := by
  rw [← length_accountKeys, length_placed] at h
  have hzero : (msg.group false false).length - (msg.group false false).length % 256 = 0 := by omega
  have hsigner (key : Pubkey) : msg.Lists (·.isSigner) key ↔ ∃ b ∈ msg.mentions, b.pubkey = key ∧ b.isSigner :=
    lists_iff (fun _ => rfl) fun _ => rfl
  have hwritable (key : Pubkey) :
      msg.Lists (·.isWritable) key ↔ ∃ b ∈ msg.mentions, b.pubkey = key ∧ b.isWritable :=
    lists_iff (fun _ => rfl) fun _ => rfl
  rw [merged_iff_carry]
  constructor
  · intro hcarry a ha b hb hkey
    refine ⟨fun hs => hcarry.signer a ha ((hsigner _).2 ⟨b, hb, hkey, hs⟩), fun hw => ?_⟩
    have hlisted := (hwritable _).2 ⟨b, hb, hkey, hw⟩
    by_cases hs : a.isSigner
    · exact hcarry.writableSigner a ha hs hlisted
    · by_contra haw
      have hmem : a ∈ msg.group false false :=
        List.mem_filter.2 ⟨ha, by simp [Bool.not_eq_true _ ▸ hs, Bool.not_eq_true _ ▸ haw]⟩
      obtain ⟨i, hi⟩ := List.mem_iff_getElem?.1 hmem
      have hlt := (hcarry.readonly i a hi).1 hlisted
      omega
  · intro hmentions
    refine ⟨by omega, fun a ha hlisted => ?_, fun a ha _ hlisted => ?_, fun i a hi => ?_⟩
    · obtain ⟨b, hb, hkey, hs⟩ := (hsigner _).1 hlisted
      exact (hmentions a ha b hb hkey).1 hs
    · obtain ⟨b, hb, hkey, hw⟩ := (hwritable _).1 hlisted
      exact (hmentions a ha b hb hkey).2 hw
    · obtain ⟨-, -, haw⟩ := of_group hi
      rw [hzero]
      refine iff_of_false (fun hlisted => ?_) (Nat.not_lt_zero i)
      obtain ⟨b, hb, hkey, hw⟩ := (hwritable _).1 hlisted
      have hw' := (hmentions a (List.mem_filter.1 (List.mem_of_getElem? hi)).1 b hb hkey).2 hw
      rw [haw] at hw'
      cases hw'

end Privileges

/-! ## A transfer that creates the account of the receiver -/

section Transfer

def splTokenProgram : Pubkey := ⟨#[
  6, 221, 246, 225, 215, 101, 161, 147, 217, 203, 225, 70, 206, 235, 121, 172,
  28, 180, 133, 237, 95, 91, 55, 145, 58, 140, 245, 133, 126, 255, 0, 169], rfl⟩

def associatedTokenProgram : Pubkey := ⟨#[
  140, 151, 37, 143, 78, 36, 137, 241, 187, 61, 16, 41, 20, 142, 13, 131,
  11, 90, 19, 153, 218, 255, 16, 132, 4, 142, 123, 216, 219, 233, 248, 89], rfl⟩

def systemProgram : Pubkey := .replicate 32 0

def splTransferInstruction (source destination authority : Pubkey) (amount : UInt64) : Instruction where
  programId := splTokenProgram
  accounts := [⟨source, false, true⟩, ⟨destination, false, true⟩, ⟨authority, true, false⟩]
  data := 3 :: (Text.toBeBytes 8 amount.toNat).reverse

def isLikelyOnCurve (bytes : Pubkey) : Bool := bytes == .replicate 32 0

variable (sha256 : List UInt8 → Pubkey)

/-- The bumps are tried from 255 down. -/
def findProgramAddress (seeds : List (List UInt8)) (programId : Pubkey) : Pubkey × UInt8 :=
  let hash (bump : UInt8) :=
    sha256 (seeds.flatten ++ [bump] ++ programId.toList ++ "ProgramDerivedAddress".toUTF8.toList)
  match ((List.range 256).reverse.map UInt8.ofNat).find? fun bump => !isLikelyOnCurve (hash bump) with
  | some bump => (hash bump, bump)
  | none => (.replicate 32 0, 0)

def deriveAta (owner mint : Pubkey) : Pubkey :=
  (findProgramAddress sha256 [owner.toList, splTokenProgram.toList, mint.toList] associatedTokenProgram).1

def buildCreateAtaInstruction (payer owner mint : Pubkey) : Instruction where
  programId := associatedTokenProgram
  accounts := [⟨payer, true, true⟩, ⟨deriveAta sha256 owner mint, false, true⟩, ⟨owner, false, false⟩,
    ⟨mint, false, false⟩, ⟨systemProgram, false, false⟩, ⟨splTokenProgram, false, false⟩]
  data := [1]

def splTransferWithAta (sourceAta destOwner mint authority : Pubkey) (amount : UInt64) (payer : Pubkey) :
    List Instruction :=
  let destAta := deriveAta sha256 destOwner mint
  [buildCreateAtaInstruction sha256 payer destOwner mint,
    splTransferInstruction sourceAta destAta authority amount]

/-- The first that `p` holds of has the flag. -/
theorem find?_cons_has {p flag : AccountMeta → Bool} {b : AccountMeta} {l : List AccountMeta} :
    (∃ a, (b :: l).find? p = some a ∧ flag a) ↔
      p b ∧ flag b ∨ ¬ p b ∧ ∃ a, l.find? p = some a ∧ flag a := by
  rw [List.find?_cons]
  cases p b <;> simp

theorem forall_firsts_iff {l : List AccountMeta} :
    (∀ a, l.find? (fun b => b.pubkey = a.pubkey) = some a → ∀ b ∈ l, b.pubkey = a.pubkey →
      (b.isSigner → a.isSigner) ∧ (b.isWritable → a.isWritable)) ↔
      ∀ b ∈ l, (b.isSigner → ∃ a, l.find? (fun c => c.pubkey = b.pubkey) = some a ∧ a.isSigner) ∧
        (b.isWritable → ∃ a, l.find? (fun c => c.pubkey = b.pubkey) = some a ∧ a.isWritable) := by
  constructor
  · intro h b hb
    obtain ⟨a, ha⟩ := Option.isSome_iff_exists.1
      (List.find?_isSome.2 ⟨b, hb, decide_eq_true rfl⟩ : (l.find? fun c => c.pubkey = b.pubkey).isSome)
    have hkey : a.pubkey = b.pubkey := by
      simpa using List.find?_some ha
    have hflags := h a (by rw [hkey]; exact ha) b hb hkey.symm
    exact ⟨fun hs => ⟨a, ha, hflags.1 hs⟩, fun hw => ⟨a, ha, hflags.2 hw⟩⟩
  · intro h a ha b hb hkey
    rw [← hkey] at ha
    refine ⟨fun hs => ?_, fun hw => ?_⟩
    · obtain ⟨a', ha', hs'⟩ := (h b hb).1 hs
      rw [ha] at ha'
      cases ha'
      exact hs'
    · obtain ⟨a', ha', hw'⟩ := (h b hb).2 hw
      rw [ha] at ha'
      cases ha'
      exact hw'

/-- The flags are merged unless the authority comes in before it signs, or the source before it is written. -/
theorem transfer_merged_iff (feePayer blockhash source owner mint authority payer : Pubkey) (amount : UInt64) :
    (TransactionMessage.new feePayer blockhash
      (splTransferWithAta sha256 source owner mint authority amount payer)).Merged ↔
      (authority ∈ [feePayer, payer] ∨ authority ∉ [deriveAta sha256 owner mint, owner, mint, systemProgram,
        splTokenProgram, associatedTokenProgram, source]) ∧
      (source ∈ [feePayer, payer, deriveAta sha256 owner mint] ∨
        source ∉ [owner, mint, systemProgram, splTokenProgram, associatedTokenProgram]) := by
  have hmentions : (TransactionMessage.new feePayer blockhash
      (splTransferWithAta sha256 source owner mint authority amount payer)).mentions =
      [⟨feePayer, true, true⟩, ⟨payer, true, true⟩, ⟨deriveAta sha256 owner mint, false, true⟩,
        ⟨owner, false, false⟩, ⟨mint, false, false⟩, ⟨systemProgram, false, false⟩,
        ⟨splTokenProgram, false, false⟩, ⟨associatedTokenProgram, false, false⟩, ⟨source, false, true⟩,
        ⟨deriveAta sha256 owner mint, false, true⟩, ⟨authority, true, false⟩,
        ⟨splTokenProgram, false, false⟩] := rfl
  have hcard : (TransactionMessage.new feePayer blockhash
      (splTransferWithAta sha256 source owner mint authority amount payer)).keys.card ≤ 255 := by
    rw [TransactionMessage.keys, hmentions]
    refine (List.toFinset_card_le _).trans ?_
    show 12 ≤ 255
    decide
  rw [merged_iff_of_card_le hcard, TransactionMessage.firstMentions, hmentions]
  simp only [mem_firsts_iff]
  generalize deriveAta sha256 owner mint = ata
  rw [forall_firsts_iff]
  simp only [List.forall_mem_cons, find?_cons_has, decide_eq_true_eq, Bool.false_eq_true, false_implies,
    and_true, and_false, false_or, true_or, true_implies, not_true_eq_false, false_and]
  simp only [List.mem_cons, List.not_mem_nil, or_false, false_implies, implies_true, true_and, and_true,
    Classical.em, not_or]
  rw [and_comm]
  refine and_congr ?_ ?_
  · clear hmentions hcard
    grind
  · clear hmentions hcard
    grind

/-- The flags of the accounts are merged if and only if their first mentions carry them, and what that is for
a transfer. -/
theorem merged_iff : (∀ msg : TransactionMessage, msg.Merged ↔ msg.FirstMentionsCarry) ∧
    ∀ (feePayer blockhash source owner mint authority payer : Pubkey) (amount : UInt64),
      (TransactionMessage.new feePayer blockhash
        (splTransferWithAta sha256 source owner mint authority amount payer)).Merged ↔
        (authority ∈ [feePayer, payer] ∨ authority ∉ [deriveAta sha256 owner mint, owner, mint, systemProgram,
          splTokenProgram, associatedTokenProgram, source]) ∧
        (source ∈ [feePayer, payer, deriveAta sha256 owner mint] ∨
          source ∉ [owner, mint, systemProgram, splTokenProgram, associatedTokenProgram]) :=
  ⟨fun _ => merged_iff_carry, transfer_merged_iff sha256⟩

/-- The hash of the one account that is derived below. -/
def selfTransferSha256 (data : List UInt8) : Pubkey :=
  if data = List.replicate 32 4 ++ splTokenProgram.toList ++ List.replicate 32 3 ++ [255] ++
      associatedTokenProgram.toList ++ "ProgramDerivedAddress".toUTF8.toList then
    ⟨(Text.toBeBytes 32 0x787c363bb2b1821d10ac80d7762c95e024ad7b03dc1d0fbfe51196b428b9fbab).toArray,
      by simp [Bytes.length_toBeBytes]⟩
  else .replicate 32 0

/-- Account 4 moves tokens into its own account, and account 1 pays. -/
def selfTransfer : TransactionMessage :=
  .new (.replicate 32 1) (.replicate 32 2) (splTransferWithAta selfTransferSha256 (.replicate 32 5)
    (.replicate 32 4) (.replicate 32 3) (.replicate 32 4) 1000 (.replicate 32 1))

/-- The authority is listed as a signer, and its place is not among the signers. -/
theorem selfTransfer_not_merged : ¬ selfTransfer.Merged := by
  intro h
  have hkey : selfTransfer.accountKeys[3]? = some (.replicate 32 4) := by decide +kernel
  have hlisted : selfTransfer.Lists (·.isSigner) (.replicate 32 4) :=
    .inr ⟨_, List.mem_cons_of_mem _ List.mem_cons_self, ⟨.replicate 32 4, true, false⟩,
      List.mem_cons_of_mem _ (List.mem_cons_of_mem _ List.mem_cons_self), rfl, rfl⟩
  have hheader : selfTransfer.header.numRequiredSignatures.toNat = 1 := by decide +kernel
  have hplace := (h 3 _ hkey).1.2 hlisted
  rw [Header.Signer, hheader] at hplace
  exact absurd hplace (by decide)

end Transfer

end IntentX.SolanaTx
