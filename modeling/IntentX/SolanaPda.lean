import IntentX.SolanaSign

/-!
# The derived addresses of Solana

`find_program_address` and `derive_ata` of `src/wallet/solana_tx.rs` against the canonical bump: the largest
one whose hash is not a point of the curve.  The search takes every hash for off the curve that is not zero,
so it ends at bump 255, whatever its hash is.
-/

namespace IntentX.SolanaTx

open Lib

/-! ## The canonical address -/

section Canonical

variable (sha256 : List UInt8 → Pubkey) (seeds : List (List UInt8)) (programId : Pubkey)

/-- The hash of the seeds, the bump, the program and the marker. -/
def bumpHash (bump : UInt8) : Pubkey :=
  sha256 (seeds.flatten ++ [bump] ++ programId.toList ++ "ProgramDerivedAddress".toUTF8.toList)

variable (onCurve : Pubkey → Prop)

/-- The largest bump whose hash is not on the curve. -/
structure CanonicalBump (bump : UInt8) : Prop where
  off : ¬ onCurve (bumpHash sha256 seeds programId bump)
  largest : ∀ larger, bump < larger → onCurve (bumpHash sha256 seeds programId larger)

/-- The canonical address with its bump. -/
structure Canonical (result : Pubkey × UInt8) : Prop where
  address : result.1 = bumpHash sha256 seeds programId result.2
  bump : CanonicalBump sha256 seeds programId onCurve result.2

/-- The associated-token program takes an account of its owner and mint at the canonical address only. -/
def Accepted (owner mint address : Pubkey) : Prop :=
  ∃ bump, Canonical sha256 [owner.toList, splTokenProgram.toList, mint.toList] associatedTokenProgram onCurve
    (address, bump)

/-- Some bump hashes off the curve, and every larger one to zeros. -/
def ZerosBefore : Prop :=
  ∃ bump, ¬ onCurve (bumpHash sha256 seeds programId bump) ∧
    ∀ larger, bump < larger → bumpHash sha256 seeds programId larger = .replicate 32 0

end Canonical

/-! ## The search -/

section Search

variable {sha256 : List UInt8 → Pubkey} {seeds : List (List UInt8)} {programId : Pubkey}

theorem find?_range_reverse {n : Nat} {p : Nat → Bool} {k : Nat} :
    (List.range n).reverse.find? p = some k ↔ k < n ∧ p k ∧ ∀ i, k < i → i < n → p i = false := by
  induction n with
  | zero => simp
  | succ n ih =>
    rw [List.range_succ, List.reverse_append, List.reverse_singleton, List.singleton_append, List.find?_cons]
    cases hp : p n with
    | true =>
      constructor
      · rintro ⟨⟩
        exact ⟨Nat.lt_succ_self _, hp, fun i hlo hhi => by omega⟩
      · rintro ⟨hk, hpk, hlarger⟩
        rcases Nat.lt_succ_iff_lt_or_eq.1 hk with hlt | rfl
        · exact absurd (hlarger n hlt (Nat.lt_succ_self n)) (by simp [hp])
        · rfl
    | false =>
      show (List.range n).reverse.find? p = some k ↔ _
      rw [ih]
      constructor
      · rintro ⟨hk, hpk, hlarger⟩
        refine ⟨by omega, hpk, fun i hlo hhi => ?_⟩
        rcases Nat.lt_succ_iff_lt_or_eq.1 hhi with hlt | rfl
        · exact hlarger i hlo hlt
        · exact hp
      · rintro ⟨hk, hpk, hlarger⟩
        refine ⟨?_, hpk, fun i hlo hhi => hlarger i hlo (by omega)⟩
        rcases Nat.lt_succ_iff_lt_or_eq.1 hk with hlt | rfl
        · exact hlt
        · exact absurd (hpk.symm.trans hp) (by decide)

/-- The search ends at the largest bump whose hash is not zeros, or it finds none. -/
theorem findProgramAddress_cases (sha256 : List UInt8 → Pubkey) (seeds : List (List UInt8)) (programId : Pubkey) :
    (∃ bump, findProgramAddress sha256 seeds programId = (bumpHash sha256 seeds programId bump, bump) ∧
      bumpHash sha256 seeds programId bump ≠ .replicate 32 0 ∧
      ∀ larger, bump < larger → bumpHash sha256 seeds programId larger = .replicate 32 0) ∨
    findProgramAddress sha256 seeds programId = (.replicate 32 0, 0) ∧
      ∀ bump, bumpHash sha256 seeds programId bump = .replicate 32 0 := by
  have hsearch : findProgramAddress sha256 seeds programId =
      (((List.range 256).reverse.map UInt8.ofNat).find? fun bump =>
        !isLikelyOnCurve (bumpHash sha256 seeds programId bump)).elim (.replicate 32 0, 0)
          fun bump => (bumpHash sha256 seeds programId bump, bump) := by
    unfold findProgramAddress bumpHash
    dsimp only
    generalize List.find? _ _ = found
    cases found <;> rfl
  rw [hsearch, List.find?_map]
  cases hfind : (List.range 256).reverse.find?
      ((fun bump => !isLikelyOnCurve (bumpHash sha256 seeds programId bump)) ∘ UInt8.ofNat) with
  | some k =>
    obtain ⟨hk, hoff, hlarger⟩ := find?_range_reverse.1 hfind
    refine .inl ⟨.ofNat k, rfl, ?_, ?_⟩
    · simpa [isLikelyOnCurve] using hoff
    · intro larger hlt
      have hlt' : k < larger.toNat := by
        rw [UInt8.lt_iff_toNat_lt, UInt8.toNat_ofNat_of_lt' hk] at hlt
        exact hlt
      have hzero := hlarger larger.toNat hlt' larger.toNat_lt
      rw [Function.comp_apply, UInt8.ofNat_toNat] at hzero
      simpa [isLikelyOnCurve] using hzero
  | none =>
    refine .inr ⟨rfl, ?_⟩
    intro bump
    have hnone := List.find?_eq_none.1 hfind bump.toNat (by simpa using bump.toNat_lt)
    rw [Function.comp_apply, UInt8.ofNat_toNat] at hnone
    simpa [isLikelyOnCurve] using hnone

variable {onCurve : Pubkey → Prop}

theorem canonical_of_zerosBefore (hzero : onCurve (.replicate 32 0))
    (h : ZerosBefore sha256 seeds programId onCurve) :
    Canonical sha256 seeds programId onCurve (findProgramAddress sha256 seeds programId) := by
  obtain ⟨bump, hoff, hzeros⟩ := h
  have hne : bumpHash sha256 seeds programId bump ≠ .replicate 32 0 := by
    intro heq
    exact hoff (heq ▸ hzero)
  rcases findProgramAddress_cases sha256 seeds programId with ⟨found, heq, hfound, hlarger⟩ | ⟨-, hall⟩
  · have hsame : found = bump := by
      rcases Nat.lt_trichotomy found.toNat bump.toNat with hlt | hsame | hlt
      · exact absurd (hlarger bump (UInt8.lt_iff_toNat_lt.2 hlt)) hne
      · exact UInt8.toNat_inj.1 hsame
      · exact absurd (hzeros found (UInt8.lt_iff_toNat_lt.2 hlt)) hfound
    subst hsame
    rw [heq]
    exact ⟨rfl, hoff, fun larger hlt => by rw [hzeros larger hlt]; exact hzero⟩
  · exact absurd (hall bump) hne

/-- Wherever the canonical bump is, the address that is found is canonical only there. -/
theorem zerosBefore_of_address {bump : UInt8} (hzero : onCurve (.replicate 32 0))
    (hcanonical : CanonicalBump sha256 seeds programId onCurve bump)
    (h : (findProgramAddress sha256 seeds programId).1 = bumpHash sha256 seeds programId bump) :
    ZerosBefore sha256 seeds programId onCurve := by
  have hne : bumpHash sha256 seeds programId bump ≠ .replicate 32 0 := by
    intro heq
    exact hcanonical.off (heq ▸ hzero)
  rcases findProgramAddress_cases sha256 seeds programId with ⟨found, heq, -, hlarger⟩ | ⟨heq, -⟩
  · rw [heq] at h
    refine ⟨found, ?_, hlarger⟩
    rw [show bumpHash sha256 seeds programId found = _ from h]
    exact hcanonical.off
  · rw [heq] at h
    exact absurd h.symm hne

/-- The address that is found is the canonical one, with its bump, if and only if every bump above a hash off
the curve hashes to zeros; and so it is with the associated token account that the program takes. -/
theorem canonical_iff (hzero : onCurve (.replicate 32 0)) :
    (∀ seeds programId,
      Canonical sha256 seeds programId onCurve (findProgramAddress sha256 seeds programId) ↔
        ZerosBefore sha256 seeds programId onCurve) ∧
    ∀ owner mint, Accepted sha256 onCurve owner mint (deriveAta sha256 owner mint) ↔
      ZerosBefore sha256 [owner.toList, splTokenProgram.toList, mint.toList] associatedTokenProgram onCurve := by
  refine ⟨fun seeds programId => ⟨?_, canonical_of_zerosBefore hzero⟩, fun owner mint => ⟨?_, ?_⟩⟩
  · intro h
    exact zerosBefore_of_address hzero h.bump h.address
  · rintro ⟨bump, h⟩
    exact zerosBefore_of_address hzero h.bump h.address
  · intro h
    exact ⟨_, canonical_of_zerosBefore hzero h⟩

end Search

/-! ## Two accounts -/

section Demo

def fieldPrime : Nat := 2 ^ 255 - 19

/-- `base ^ e`, of as many bits as are given. -/
def powMod (base : Nat) : Nat → Nat → Nat
  | 0, _ => 1
  | bits + 1, e =>
    let half := powMod base bits (e / 2)
    half * half % fieldPrime * (if e % 2 = 1 then base else 1) % fieldPrime

/-- The point is decompressed: with `y` from the lower 255 bits, `(y² - 1) / (d y² + 1)` is a square. -/
def decompresses (key : Pubkey) : Bool :=
  let y := Text.fromBeBytes key.toList.reverse % 2 ^ 255
  let u := (y * y + fieldPrime - 1) % fieldPrime
  let d := 37095705934669439343138083508754565189542113879843219016388785533085940283555
  let v := (d * (y * y) + 1) % fieldPrime
  powMod (u * v % fieldPrime) 255 ((fieldPrime - 1) / 2) ≤ 1

/-- What is hashed for the account of the ones and a mint. -/
def ataPreimage (mint : Pubkey) (bump : UInt8) : List UInt8 :=
  List.replicate 32 1 ++ splTokenProgram.toList ++ mint.toList ++ [bump] ++ associatedTokenProgram.toList ++
    "ProgramDerivedAddress".toUTF8.toList

/-- The hashes for two mints, up to the first off the curve. -/
def ataSha256 (data : List UInt8) : Pubkey :=
  if data = ataPreimage (.replicate 32 2) 255 then
    bytesOf 32 0xb0637fe98337d49a714c7f159ae0a3abb5525a699707f7cb7444b952e0f6853c
  else if data = ataPreimage (.replicate 32 3) 255 then
    bytesOf 32 0x052696c28f42d61fc5b401bfff76e3c1d15e45df7b0dd2b5b395be340f1a1529
  else if data = ataPreimage (.replicate 32 3) 254 then
    bytesOf 32 0xfb9dfd4c4841568a4f85fec796e9a2c1b4c3eb3dd7ed981e3cbf6fe26c176bcf
  else .replicate 32 0

theorem decompresses_zero : decompresses (.replicate 32 0) = true := by decide +kernel

/-- Bump 255 hashes off the curve for the mint of twos. -/
theorem ata_accepted : Accepted ataSha256 (decompresses · = true) (.replicate 32 1) (.replicate 32 2)
    (deriveAta ataSha256 (.replicate 32 1) (.replicate 32 2)) := by
  refine ((canonical_iff decompresses_zero).2 _ _).2 ⟨255, by decide +kernel, ?_⟩
  intro larger hlt
  exact absurd hlt (UInt8.not_lt.2 (UInt8.le_iff_toNat_le.2 (Nat.le_of_lt_succ larger.toNat_lt)))

/-- For the mint of threes it hashes to a point. -/
theorem ata_not_accepted :
    decompresses (.replicate 32 0) = true ∧
    ¬ Canonical ataSha256 [List.replicate 32 1, splTokenProgram.toList, List.replicate 32 3] associatedTokenProgram
      (decompresses · = true) (findProgramAddress ataSha256
        [List.replicate 32 1, splTokenProgram.toList, List.replicate 32 3] associatedTokenProgram) ∧
    ¬ Accepted ataSha256 (decompresses · = true) (.replicate 32 1) (.replicate 32 3)
      (deriveAta ataSha256 (.replicate 32 1) (.replicate 32 3)) := by
  have hhash : decompresses (bumpHash ataSha256 [List.replicate 32 1, splTokenProgram.toList,
      List.replicate 32 3] associatedTokenProgram 255) = true := by decide +kernel
  have hzeros : ¬ ZerosBefore ataSha256 [List.replicate 32 1, splTokenProgram.toList, List.replicate 32 3]
      associatedTokenProgram (decompresses · = true) := by
    rintro ⟨bump, hoff, hlarger⟩
    by_cases h255 : bump = 255
    · exact hoff (h255 ▸ hhash)
    · have hlt : bump < 255 := by
        have hne : bump.toNat ≠ 255 := fun h => h255 (UInt8.toNat_inj.1 h)
        have hle := bump.toNat_lt
        exact UInt8.lt_iff_toNat_lt.2 (show bump.toNat < 255 by omega)
      exact absurd (hlarger 255 hlt) (by decide +kernel)
  refine ⟨decompresses_zero, fun h => ?_, ?_⟩
  · exact hzeros (zerosBefore_of_address decompresses_zero h.bump h.address)
  · rintro ⟨bump, h⟩
    exact hzeros (zerosBefore_of_address decompresses_zero h.bump h.address)

end Demo

end IntentX.SolanaTx
