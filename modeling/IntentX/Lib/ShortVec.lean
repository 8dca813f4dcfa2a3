import IntentX.Lib.Bytes

/-!
# Lists with a compact length

The length of a list as Solana writes it: seven bits to a byte, the lowest first, in at most three bytes.
A length has one encoding only: the last byte is not zero unless it is the only one, and what does not fit
into sixteen bits is refused.
-/

namespace Lib.ShortVec

open Bytes

/-- A length. -/
def len : Reader Nat := do
  let b₀ ← byte
  if b₀.toNat < 0x80 then pure b₀.toNat
  else do
    let b₁ ← byte
    if b₁ = 0 then failure
    else if b₁.toNat < 0x80 then pure (b₀.toNat % 0x80 + 0x80 * b₁.toNat)
    else do
      let b₂ ← byte
      if b₂ = 0 ∨ 4 ≤ b₂.toNat then failure
      else pure (b₀.toNat % 0x80 + 0x80 * (b₁.toNat % 0x80) + 0x4000 * b₂.toNat)

/-- A length, and as many values. -/
def vec {α : Type} (p : Reader α) : Reader (List α) := do many p (← len)

section Rules

variable {b₀ b₁ b₂ : UInt8} {n : Nat}

theorem reads_len_one (h₀ : b₀.toNat = n) (hn : n < 0x80) : Reads len [b₀] n := by
  subst h₀
  refine Reads.byte_bind ?_
  rw [if_pos hn]
  exact Reads.pure _

theorem reads_len_two (h₀ : b₀.toNat = n % 0x80 + 0x80) (h₁ : b₁.toNat = n / 0x80) (hlo : 0x80 ≤ n)
    (hhi : n < 0x4000) : Reads len [b₀, b₁] n := by
  have hb₁ : b₁ ≠ 0 := by
    rintro rfl
    rw [UInt8.toNat_zero] at h₁
    omega
  have hval : b₀.toNat % 0x80 + 0x80 * b₁.toNat = n := by omega
  refine Reads.byte_bind ?_
  rw [if_neg (by omega)]
  refine Reads.byte_bind ?_
  rw [if_neg hb₁, if_pos (by omega), hval]
  exact Reads.pure _

theorem reads_len_three (h₀ : b₀.toNat = n % 0x80 + 0x80) (h₁ : b₁.toNat = n / 0x80 % 0x80 + 0x80)
    (h₂ : b₂.toNat = n / 0x4000) (hlo : 0x4000 ≤ n) (hhi : n < 0x10000) : Reads len [b₀, b₁, b₂] n := by
  have hb₁ : b₁ ≠ 0 := by
    rintro rfl
    rw [UInt8.toNat_zero] at h₁
    omega
  have hb₂ : ¬ (b₂ = 0 ∨ 4 ≤ b₂.toNat) := by
    rintro (rfl | h)
    · rw [UInt8.toNat_zero] at h₂
      omega
    · omega
  have hval : b₀.toNat % 0x80 + 0x80 * (b₁.toNat % 0x80) + 0x4000 * b₂.toNat = n := by omega
  refine Reads.byte_bind ?_
  rw [if_neg (by omega)]
  refine Reads.byte_bind ?_
  rw [if_neg hb₁, if_neg (by omega)]
  refine Reads.byte_bind ?_
  rw [if_neg hb₂, hval]
  exact Reads.pure _

theorem reads_vec {α β : Type} {p : Reader α} {enc : β → List UInt8} {g : β → α} {head : List UInt8}
    (l : List β) (hlen : Reads len head l.length) (h : ∀ c ∈ l, Reads p (enc c) (g c)) :
    Reads (vec p) (head ++ l.flatMap enc) (l.map g) :=
  hlen.bind (reads_many l h)

theorem reads_vec_byte {head bytes : List UInt8} (hlen : Reads len head bytes.length) :
    Reads (vec byte) (head ++ bytes) bytes := by
  have h : Reads (vec byte) (head ++ bytes.flatMap fun b => [b]) (bytes.map fun b => b) :=
    reads_vec bytes hlen fun b _ => reads_byte b
  rwa [List.flatMap_singleton', List.map_id'] at h

end Rules

end Lib.ShortVec
