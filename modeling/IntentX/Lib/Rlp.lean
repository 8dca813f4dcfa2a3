import IntentX.Lib.Bytes

/-!
# RLP

The recursive length prefix format: a byte below `0x80` stands for itself, every other string and every
list has its length in front of it, in the first byte up to 55 and in up to eight bytes of their own
above.  `string` and `listHead` read them back, and `number` a number without leading zeros.

There is one rule for each way of writing a string (`reads_string_single`, `reads_string_short`,
`reads_string_long`) or the head of a list (`reads_listHead_short`, `reads_listHead_long`).
-/

namespace Lib.Rlp

open Bytes Text

/-! ## Readers -/

def string : Reader (List UInt8) := do
  let b ← byte
  if b.toNat < 0x80 then return [b]
  else if b.toNat ≤ 0xb7 then take (b.toNat - 0x80)
  else if b.toNat < 0xc0 then
    let len ← take (b.toNat - 0xb7)
    take (fromBeBytes len)
  else failure

/-- The length that the head of a list declares. -/
def listHead : Reader Nat := do
  let b ← byte
  if b.toNat < 0xc0 then failure
  else if b.toNat ≤ 0xf7 then return b.toNat - 0xc0
  else
    let len ← take (b.toNat - 0xf7)
    return fromBeBytes len

/-- A list that is the whole text.  Its length must be the declared one, unless it is beyond what eight
bytes can declare. -/
def list {α : Type} (p : Reader α) (bs : List UInt8) : Option α :=
  match listHead.run bs with
  | some (n, payload) => if n = payload.length ∨ 2 ^ 64 ≤ payload.length then p.whole payload else none
  | none => none

def emptyList : Reader Unit := do
  let n ← listHead
  if n = 0 then return () else failure

/-- A number, in as few bytes as it takes. -/
def number : Reader Nat := do
  let bs ← string
  if bs.head? = some 0 then failure else return fromBeBytes bs

/-- A number below `2 ^ 64`. -/
def uint64 : Reader UInt64 := do
  let n ← number
  if n < 2 ^ 64 then return .ofNat n else failure

/-- A number below `2 ^ width`. -/
def uint (width : Nat) : Reader (BitVec width) := do
  let n ← number
  if n < 2 ^ width then return .ofNat width n else failure

/-- A string of `n` bytes. -/
def fixed (n : Nat) : Reader (Vector UInt8 n) := do
  let bs ← string
  if h : bs.length = n then return ⟨bs.toArray, h⟩ else failure

/-- A number of `n` bytes, with its leading zeros. -/
def padded (n : Nat) : Reader (Vector UInt8 n) := do
  let m ← number
  return ⟨(toBeBytes n m).toArray, length_toBeBytes n m⟩

/-! ## What is read -/

section Rules

variable {bs len : List UInt8} {b : UInt8} {n : Nat}

theorem toNat_add_ofNat {c : UInt8} (h : c.toNat + n < 256) : (c + .ofNat n).toNat = c.toNat + n := by
  rw [UInt8.toNat_add]
  show (c.toNat + n % 256) % 256 = _
  omega

theorem reads_string_single (h : b.toNat < 0x80) : Reads string [b] [b] := by
  apply Reads.byte_bind
  rw [if_pos h]
  exact Reads.pure _

theorem reads_string_short (h : bs.length ≤ 55) : Reads string ((0x80 + .ofNat bs.length) :: bs) bs := by
  have hb : (0x80 + UInt8.ofNat bs.length).toNat = 0x80 + bs.length := toNat_add_ofNat (by
    show 0x80 + bs.length < 256
    omega)
  apply Reads.byte_bind
  rw [hb, if_neg (by omega), if_pos (by omega)]
  exact reads_take (by omega)

theorem reads_string_long (hpos : 0 < len.length) (hle : len.length ≤ 8)
    (hlen : fromBeBytes len = bs.length) :
    Reads string ((0xb7 + .ofNat len.length) :: (len ++ bs)) bs := by
  have hb : (0xb7 + UInt8.ofNat len.length).toNat = 0xb7 + len.length := toNat_add_ofNat (by
    show 0xb7 + len.length < 256
    omega)
  apply Reads.byte_bind
  rw [hb, if_neg (by omega), if_neg (by omega), if_pos (by omega)]
  have hread : Reads (take (0xb7 + len.length - 0xb7)) len len := reads_take (by omega)
  exact hread.bind (reads_take hlen.symm)

theorem reads_listHead_short (h : n ≤ 55) : Reads listHead [0xc0 + .ofNat n] n := by
  have hb : (0xc0 + UInt8.ofNat n).toNat = 0xc0 + n := toNat_add_ofNat (by
    show 0xc0 + n < 256
    omega)
  apply Reads.byte_bind
  rw [hb, if_neg (by omega), if_pos (by omega), Nat.add_sub_cancel_left]
  exact Reads.pure _

theorem reads_listHead_long (hpos : 0 < len.length) (hle : len.length ≤ 8) :
    Reads listHead ((0xf7 + .ofNat len.length) :: len) (fromBeBytes len) := by
  have hb : (0xf7 + UInt8.ofNat len.length).toNat = 0xf7 + len.length := toNat_add_ofNat (by
    show 0xf7 + len.length < 256
    omega)
  apply Reads.byte_bind
  rw [hb, if_neg (by omega), if_neg (by omega)]
  have hread : Reads (take (0xf7 + len.length - 0xf7)) len len := reads_take (by omega)
  exact hread.bind_nil (Reads.pure _)

theorem reads_emptyList : Reads emptyList [0xc0] () :=
  (reads_listHead_short (n := 0) (by decide)).bind_nil (Reads.pure _)

variable {enc : List UInt8}

theorem reads_number (h : Reads string enc bs) (hzero : bs.head? ≠ some 0) :
    Reads number enc (fromBeBytes bs) := by
  apply h.bind_nil
  rw [if_neg hzero]
  exact Reads.pure _

theorem reads_uint64 {v : UInt64} (h : Reads number enc v.toNat) : Reads uint64 enc v := by
  apply h.bind_nil
  rw [if_pos v.toNat_lt, UInt64.ofNat_toNat]
  exact Reads.pure _

theorem reads_uint {width : Nat} {v : BitVec width} (h : Reads number enc v.toNat) :
    Reads (uint width) enc v := by
  apply h.bind_nil
  rw [if_pos v.isLt, BitVec.ofNat_toNat, BitVec.setWidth_eq]
  exact Reads.pure _

theorem reads_fixed {v : Vector UInt8 n} (h : Reads string enc v.toList) : Reads (fixed n) enc v := by
  apply h.bind_nil
  rw [dif_pos v.length_toList]
  have hv : (⟨v.toList.toArray, v.length_toList⟩ : Vector UInt8 n) = v := by
    apply Vector.toList_inj.1
    rfl
  rw [hv]
  exact Reads.pure _

theorem reads_padded {v : Vector UInt8 n} (h : Reads number enc (fromBeBytes v.toList)) :
    Reads (padded n) enc v := by
  apply h.bind_nil
  have hbytes : toBeBytes n (fromBeBytes v.toList) = v.toList := by
    have hv := toBeBytes_fromBeBytes v.toList
    rwa [v.length_toList] at hv
  have hv : (⟨(toBeBytes n (fromBeBytes v.toList)).toArray, length_toBeBytes n _⟩ : Vector UInt8 n) = v := by
    apply Vector.toList_inj.1
    exact hbytes
  rw [hv]
  exact Reads.pure _

/-- A list whose head declares its length, or one that is too long for it. -/
theorem list_append {α : Type} {p : Reader α} {head payload : List UInt8} {a : α}
    (hhead : Reads listHead head n) (hn : n = payload.length ∨ 2 ^ 64 ≤ payload.length)
    (hp : Reads p payload a) : list p (head ++ payload) = some a := by
  unfold list
  rw [hhead payload]
  simp only [hn, if_true]
  exact hp.whole

end Rules

end Lib.Rlp
