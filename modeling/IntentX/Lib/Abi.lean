import IntentX.Lib.Bytes

/-!
# Words of a contract call

Arguments stand in words of 32 bytes.  A number is written big-endian, an address and what else is shorter is
padded with zeros in front.  Bytes of any length stand behind the words, with a word for their length in front
and zeros up to the next word, and the word in their place holds the offset where they begin.

`uint`, `address` and `take 32` read a word off the front; `bytesAt` reads bytes at their offset, which has to
lie within the data.
-/

namespace Lib.Abi

open Text Bytes

/-- A number in a word. -/
def word (n : Nat) : List UInt8 := toBeBytes 32 n

/-- Bytes with zeros in front, up to a word. -/
def padLeft (bs : List UInt8) : List UInt8 := List.replicate (32 - bs.length) 0 ++ bs

/-- The zeros behind so many bytes, up to the next word. -/
def padding (n : Nat) : Nat := (32 - n % 32) % 32

/-- Bytes of any length. -/
def dynamic (bs : List UInt8) : List UInt8 := word bs.length ++ bs ++ List.replicate (padding bs.length) 0

/-- A number of so many bits. -/
def uint (bits : Nat) : Reader Nat := do
  let w ← take 32
  if fromBeBytes w < 2 ^ bits then pure (fromBeBytes w) else failure

/-- An address of 20 bytes. -/
def address : Reader (List UInt8) := do
  let w ← take 32
  if w.take 12 = List.replicate 12 0 then pure (w.drop 12) else failure

/-- The bytes that begin at an offset. -/
def bytesAt (data : List UInt8) (offset : Nat) : Option (List UInt8) := do
  let (n, rest) ← (uint 256).run (data.drop offset)
  (take n).run rest |>.map (·.1)

section Words

variable {bs front rest : List UInt8} {n bits : Nat}

@[simp] theorem length_word (n : Nat) : (word n).length = 32 := length_toBeBytes 32 n

theorem fromBeBytes_word (h : n < 2 ^ 256) : fromBeBytes (word n) = n :=
  fromBeBytes_toBeBytes_of_lt (h.trans_eq (by rfl))

theorem fromBeBytes_zeros_append (k : Nat) (bs : List UInt8) :
    fromBeBytes (List.replicate k 0 ++ bs) = fromBeBytes bs := by
  induction k with
  | zero => rfl
  | succ k ih =>
    rw [List.replicate_succ, List.cons_append, fromBeBytes_zero_cons]
    exact ih

/-- A number of fewer bytes, padded. -/
theorem padLeft_toBeBytes {k : Nat} (hn : n < 256 ^ k) (hk : k ≤ 32) : padLeft (toBeBytes k n) = word n := by
  have hlen : (padLeft (toBeBytes k n)).length = 32 := by
    rw [padLeft, List.length_append, List.length_replicate, length_toBeBytes]
    omega
  have hvalue : fromBeBytes (padLeft (toBeBytes k n)) = n := by
    rw [padLeft, fromBeBytes_zeros_append, fromBeBytes_toBeBytes_of_lt hn]
  have hback := toBeBytes_fromBeBytes (padLeft (toBeBytes k n))
  rw [hlen, hvalue] at hback
  exact hback.symm

theorem length_padLeft (h : bs.length ≤ 32) : (padLeft bs).length = 32 := by
  rw [padLeft, List.length_append, List.length_replicate]
  omega

theorem length_dynamic (bs : List UInt8) : (dynamic bs).length = 32 + bs.length + padding bs.length := by
  simp [dynamic, Nat.add_assoc]

theorem reads_uint (h : n < 2 ^ bits) (hbits : bits ≤ 256) : Reads (uint bits) (word n) n := by
  have hn : fromBeBytes (word n) = n := fromBeBytes_word (h.trans_le (Nat.pow_le_pow_right (by decide) hbits))
  refine (reads_take (length_word n)).bind_nil ?_
  rw [hn, if_pos h]
  exact Reads.pure n

/-- What a number is read from. -/
theorem uint_run (h : (uint bits).run front = some (n, rest)) :
    32 ≤ front.length ∧ n = fromBeBytes (front.take 32) ∧ rest = front.drop 32 := by
  unfold uint at h
  rw [StateT.run_bind] at h
  obtain ⟨⟨w, rest'⟩, htake, h⟩ := Option.bind_eq_some_iff.1 h
  have hlen : 32 ≤ front.length ∧ w = front.take 32 ∧ rest' = front.drop 32 := by
    change (if 32 ≤ front.length then _ else _) = _ at htake
    split at htake
    · next hle =>
      cases htake
      exact ⟨hle, rfl, rfl⟩
    · cases htake
  obtain ⟨hle, rfl, rfl⟩ := hlen
  dsimp only at h
  split at h
  · cases h
    exact ⟨hle, rfl, rfl⟩
  · cases h

theorem reads_address (h : bs.length = 20) : Reads address (padLeft bs) bs := by
  have hpad : padLeft bs = List.replicate 12 0 ++ bs := by rw [padLeft, h]
  have htake : (padLeft bs).take 12 = List.replicate 12 0 := by
    rw [hpad, List.take_left' List.length_replicate]
  have hdrop : (padLeft bs).drop 12 = bs := by
    rw [hpad, List.drop_left' List.length_replicate]
  refine (reads_take (length_padLeft (by omega))).bind_nil ?_
  rw [if_pos htake, hdrop]
  exact Reads.pure bs

/-- Bytes are found where they were put. -/
theorem bytesAt_append (h : bs.length < 2 ^ 256) : bytesAt (front ++ (dynamic bs ++ rest)) front.length = some bs := by
  have hsplit : dynamic bs ++ rest = word bs.length ++ (bs ++ (List.replicate (padding bs.length) 0 ++ rest)) := by
    simp [dynamic]
  unfold bytesAt
  rw [List.drop_left, hsplit, reads_uint h (Nat.le_refl _)]
  show Option.map _ ((take bs.length).run _) = _
  rw [reads_take rfl]
  rfl

/-- There is nothing at the end of the data. -/
theorem bytesAt_length (data : List UInt8) : bytesAt data data.length = none := by
  unfold bytesAt
  rw [List.drop_length]
  rfl

end Words

end Lib.Abi
