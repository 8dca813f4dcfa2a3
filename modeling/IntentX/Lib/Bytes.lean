import IntentX.Lib.Radix
import IntentX.Lib.Text
import Mathlib.Data.List.DropRight

/-!
# Bytes: big-endian numbers, and reading values off the front

A number is written in so many bytes, the most significant one first, and read back
(`fromBeBytes_toBeBytes`, `toBeBytes_fromBeBytes`).  `trim` drops the leading zeros, which changes
nothing about the number.

`slice?` and `from?` are the slices of a list, which fail out of bounds.

A `Reader` takes a value off the front of a list of bytes.  `Reads p bs a` says that `p` takes `bs`,
and no byte more, for the value `a`, whatever follows, and reading goes on after it (`Reads.bind`).
-/

namespace Lib.Bytes

open Text

/-! ## Big-endian numbers -/

section BigEndian

variable {bs cs : List UInt8} {b : UInt8} {width n : Nat}

theorem length_toBeBytes (width n : Nat) : (toBeBytes width n).length = width := by
  simp [toBeBytes]

theorem toBeBytes_succ (width n : Nat) :
    toBeBytes (width + 1) n = toBeBytes width (n / 256) ++ [.ofNat n] := by
  unfold toBeBytes
  rw [List.range_succ, List.map_append, List.map_singleton, Nat.add_sub_cancel, Nat.sub_self,
    Nat.pow_zero, Nat.div_one]
  congr 1
  apply List.map_congr_left
  intro i hi
  have hlt : i < width := List.mem_range.1 hi
  rw [Nat.div_div_eq_div_mul, ← Nat.pow_succ']
  congr 3
  omega

theorem fromBeBytes_append_singleton (bs : List UInt8) (b : UInt8) :
    fromBeBytes (bs ++ [b]) = 256 * fromBeBytes bs + b.toNat := by
  simp [fromBeBytes, List.foldl_append]

theorem fromBeBytes_toBeBytes (width n : Nat) : fromBeBytes (toBeBytes width n) = n % 256 ^ width := by
  induction width generalizing n with
  | zero =>
    rw [Nat.pow_zero, Nat.mod_one]
    rfl
  | succ width ih =>
    rw [toBeBytes_succ, fromBeBytes_append_singleton, ih, Nat.pow_succ', Nat.mod_mul]
    show _ + n % 256 = _
    omega

theorem fromBeBytes_toBeBytes_of_lt (h : n < 256 ^ width) : fromBeBytes (toBeBytes width n) = n := by
  rw [fromBeBytes_toBeBytes, Nat.mod_eq_of_lt h]

@[simp] theorem ofBeBytes_u16 (v : UInt16) : UInt16.ofNat (fromBeBytes (toBeBytes 2 v.toNat)) = v := by
  rw [fromBeBytes_toBeBytes_of_lt v.toNat_lt, UInt16.ofNat_toNat]

@[simp] theorem ofBeBytes_u64 (v : UInt64) : UInt64.ofNat (fromBeBytes (toBeBytes 8 v.toNat)) = v := by
  rw [fromBeBytes_toBeBytes_of_lt v.toNat_lt, UInt64.ofNat_toNat]

theorem toBeBytes_fromBeBytes (bs : List UInt8) : toBeBytes bs.length (fromBeBytes bs) = bs := by
  induction bs using List.reverseRecOn with
  | nil => rfl
  | append_singleton bs b ih =>
    have hb := b.toNat_lt
    have hdiv : (256 * fromBeBytes bs + b.toNat) / 256 = fromBeBytes bs := by omega
    rw [List.length_append, List.length_singleton, toBeBytes_succ, fromBeBytes_append_singleton, hdiv, ih]
    congr 2
    apply UInt8.toNat_inj.1
    show (256 * fromBeBytes bs + b.toNat) % 256 = b.toNat
    omega

theorem fromBeBytes_eq_value (bs : List UInt8) : fromBeBytes bs = Radix.value 256 (bs.map (·.toNat)) := by
  rw [Radix.value, List.foldl_map]
  rfl

theorem fromBeBytes_append (bs cs : List UInt8) :
    fromBeBytes (bs ++ cs) = fromBeBytes bs * 256 ^ cs.length + fromBeBytes cs := by
  rw [fromBeBytes_eq_value, List.map_append, Radix.value_append, List.length_map, ← fromBeBytes_eq_value,
    ← fromBeBytes_eq_value]

/-- The last eight bytes are what is left of the number in 64 bits. -/
theorem ofBeBytes_drop {bs : List UInt8} {n : Nat} (h : bs.length = n + 8) :
    UInt64.ofNat (fromBeBytes (bs.drop n)) = .ofNat (fromBeBytes bs) := by
  have hlen : (bs.drop n).length = 8 := by
    rw [List.length_drop]
    omega
  have hsplit := fromBeBytes_append (bs.take n) (bs.drop n)
  rw [List.take_append_drop, hlen] at hsplit
  apply UInt64.toNat_inj.1
  rw [hsplit, UInt64.toNat_ofNat', UInt64.toNat_ofNat']
  omega

theorem fromBeBytes_zero_cons (bs : List UInt8) : fromBeBytes (0 :: bs) = fromBeBytes bs := rfl

/-- The bytes without the leading zeros. -/
def trim (bs : List UInt8) : List UInt8 := bs.dropWhile (· == 0)

theorem fromBeBytes_trim (bs : List UInt8) : fromBeBytes (trim bs) = fromBeBytes bs := by
  induction bs with
  | nil => rfl
  | cons b bs ih =>
    unfold trim
    rw [List.dropWhile_cons]
    split
    · next hb =>
      obtain rfl : b = 0 := by simpa using hb
      exact ih.trans (fromBeBytes_zero_cons bs).symm
    · rfl

theorem head_trim (bs : List UInt8) : (trim bs).head? ≠ some 0 := by
  intro h
  have hhead := List.head?_dropWhile_not (· == (0 : UInt8)) bs
  rw [show bs.dropWhile (· == 0) = trim bs from rfl, h] at hhead
  simp at hhead

theorem length_trim_le (bs : List UInt8) : (trim bs).length ≤ bs.length :=
  (List.dropWhile_suffix _).length_le

/-- Nothing is left of zero, and of zero only. -/
theorem trim_eq_nil_iff (bs : List UInt8) : trim bs = [] ↔ fromBeBytes bs = 0 := by
  constructor
  · intro h
    rw [← fromBeBytes_trim, h]
    rfl
  · intro h
    have hbs := toBeBytes_fromBeBytes bs
    rw [h] at hbs
    apply List.dropWhile_eq_nil_iff.2
    intro b hb
    rw [← hbs] at hb
    obtain ⟨i, -, rfl⟩ := List.mem_map.1 hb
    simp

end BigEndian

/-! ## Slices -/

section Slices

variable {α : Type} {as bs cs : List α} {lo hi : Nat}

/-- `as[lo..hi]`, which there is only within bounds. -/
def slice? (as : List α) (lo hi : Nat) : Option (List α) :=
  if lo ≤ hi ∧ hi ≤ as.length then some ((as.take hi).drop lo) else none

/-- `as[lo..]` -/
def from? (as : List α) (lo : Nat) : Option (List α) := slice? as lo as.length

theorem slice?_of_le (hlo : lo ≤ hi) (hhi : hi ≤ as.length) :
    slice? as lo hi = some ((as.take hi).drop lo) :=
  if_pos ⟨hlo, hhi⟩

theorem from?_of_le (h : lo ≤ as.length) : from? as lo = some (as.drop lo) := by
  rw [from?, slice?_of_le h (Nat.le_refl _), List.take_length]

variable (lo) in
/-- A list that is long enough has a front of any length. -/
theorem exists_append (h : lo ≤ as.length) : ∃ front rest, front.length = lo ∧ as = front ++ rest :=
  ⟨as.take lo, as.drop lo, List.length_take_of_le h, (List.take_append_drop lo as).symm⟩

/-- A part in the middle. -/
theorem slice?_append (ha : as.length = lo) (hb : lo + bs.length = hi) :
    slice? (as ++ (bs ++ cs)) lo hi = some bs := by
  subst ha hb
  rw [slice?_of_le (Nat.le_add_right _ _), ← List.append_assoc, ← List.length_append, List.take_left,
    List.drop_left]
  simp only [List.length_append]
  omega

theorem getElem?_append_cons {a : α} (h : as.length = lo) : (as ++ a :: bs)[lo]? = some a := by
  subst h
  rw [List.getElem?_append_right (Nat.le_refl _), Nat.sub_self]
  rfl

theorem from?_append (ha : as.length = lo) : from? (as ++ bs) lo = some bs := by
  subst ha
  rw [from?_of_le, List.drop_left]
  rw [List.length_append]
  exact Nat.le_add_right _ _

/-- Blocks of one width, one after the other: the `j`-th element of the `i`-th block. -/
theorem getElem?_blocks {β : Type} {f : β → List α} {l : List β} {w i j : Nat}
    (hw : ∀ b, (f b).length = w) (hj : j < w) :
    (l.flatMap f)[i * w + j]? = l[i]?.bind fun b => (f b)[j]? := by
  induction l generalizing i with
  | nil => rfl
  | cons b l ih =>
    rw [List.flatMap_cons]
    cases i with
    | zero =>
      rw [Nat.zero_mul, Nat.zero_add, List.getElem?_append_left (by rw [hw]; exact hj)]
      rfl
    | succ i =>
      have hskip : (i + 1) * w + j - (f b).length = i * w + j := by
        rw [hw, Nat.succ_mul]
        omega
      rw [List.getElem?_append_right (by rw [hw, Nat.succ_mul]; omega), hskip, ih]
      rfl

end Slices

/-! ## Reading off the front -/

/-- Takes a value off the front of a list of bytes, or fails. -/
abbrev Reader (α : Type) := StateT (List UInt8) Option α

/-- `p` takes exactly `bs` for `a`, whatever follows. -/
def Reads {α : Type} (p : Reader α) (bs : List UInt8) (a : α) : Prop :=
  ∀ rest, p.run (bs ++ rest) = some (a, rest)

/-- One byte. -/
def byte : Reader UInt8 := fun
  | [] => none
  | b :: rest => some (b, rest)

/-- `n` bytes. -/
def take (n : Nat) : Reader (List UInt8) := fun bs =>
  if n ≤ bs.length then some (bs.take n, bs.drop n) else none

/-- `n` bytes as an array. -/
def array (n : Nat) : Reader (Vector UInt8 n) := fun bs =>
  if h : n ≤ bs.length then some (⟨(bs.take n).toArray, by simpa using h⟩, bs.drop n) else none

/-- `n` values, one after the other. -/
def many {α : Type} (p : Reader α) : Nat → Reader (List α)
  | 0 => pure []
  | n + 1 => do
    let a ← p
    let as ← many p n
    return a :: as

/-- The value of the whole list of bytes. -/
def Reader.whole {α : Type} (p : Reader α) (bs : List UInt8) : Option α :=
  match p.run bs with
  | some (a, []) => some a
  | _ => none

section Reads

variable {α β : Type} {p : Reader α} {f : α → Reader β} {bs cs : List UInt8} {a a' : α} {b : β}

theorem Reads.pure (a : α) : Reads (Pure.pure a) [] a := fun _ => rfl

theorem Reads.bind (hp : Reads p bs a) (hf : Reads (f a) cs b) : Reads (p >>= f) (bs ++ cs) b := by
  intro rest
  rw [StateT.run_bind, List.append_assoc, hp]
  exact hf rest

/-- A step that takes the last of the bytes. -/
theorem Reads.bind_nil (hp : Reads p bs a) (hf : Reads (f a) [] b) : Reads (p >>= f) bs b := by
  have h := hp.bind hf
  rwa [List.append_nil] at h

theorem Reads.whole (h : Reads p bs a) : p.whole bs = some a := by
  have hrun := h []
  rw [List.append_nil] at hrun
  unfold Reader.whole
  rw [hrun]

theorem reads_byte (b : UInt8) : Reads byte [b] b := fun _ => rfl

theorem reads_take {n : Nat} (h : bs.length = n) : Reads (take n) bs bs := by
  intro rest
  subst h
  simp [take, StateT.run]

theorem reads_array {n : Nat} (v : Vector UInt8 n) : Reads (array n) v.toList v := by
  intro rest
  have hlen : n ≤ (v.toList ++ rest).length := by simp
  have htake : (v.toList ++ rest).take n = v.toList := List.take_left' v.length_toList
  have hdrop : (v.toList ++ rest).drop n = rest := List.drop_left' v.length_toList
  show array n (v.toList ++ rest) = _
  simp only [array, dif_pos hlen, htake, hdrop]
  rfl

/-- Bytes of which the first decides how to go on. -/
theorem Reads.byte_bind {b : UInt8} {f : UInt8 → Reader α} (hf : Reads (f b) bs a) :
    Reads (byte >>= f) (b :: bs) a :=
  (reads_byte b).bind hf

theorem reads_many {γ : Type} {enc : γ → List UInt8} {g : γ → α} (l : List γ)
    (h : ∀ c ∈ l, Reads p (enc c) (g c)) : Reads (many p l.length) (l.flatMap enc) (l.map g) := by
  induction l with
  | nil => exact Reads.pure []
  | cons c l ih =>
    have hrest := ih fun d hd => h d (List.mem_cons_of_mem c hd)
    exact (h c List.mem_cons_self).bind (hrest.bind_nil (Reads.pure _))

end Reads

end Lib.Bytes
