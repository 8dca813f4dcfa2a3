import IntentX.Htlc
import IntentX.Lib.Radix
import IntentX.Lib.Text
import Mathlib.Data.List.DropRight

/-!
# Base64

`base64_decode` of `src/cross_chain/wormhole.rs`, and `base64_encode` of
`src/cross_chain/mock_guardian.rs`.  The encoder cuts the bytes into chunks of three; the decoder takes a
letter at a time, and gives out a byte whenever it has eight bits.

A state of the decoder stands for the number of the bits it was given (`Decoder.number`), and a letter adds
six bits to it, whatever the state (`push_number`).
-/

namespace IntentX.Base64

open Lib Text Radix

def table : List UInt8 := utf8 "ABCDEFGHIJKLMNOPQRSTUVWXYZabcdefghijklmnopqrstuvwxyz0123456789+/"

/-! ## Encoding -/

/-- `data.chunks(3)` -/
def chunks : List UInt8 → List (List UInt8)
  | [] => []
  | [b0] => [[b0]]
  | [b0, b1] => [[b0, b1]]
  | b0 :: b1 :: b2 :: data => [b0, b1, b2] :: chunks data

/-- `TABLE[i as usize] as char` -/
def tableAt (i : UInt32) : Option Char := table[i.toNat]?.map asChar

/-- `none` is an index out of bounds. -/
def encodeChunk (chunk : List UInt8) : Option (List Char) := do
  let b0 := (← chunk[0]?).toUInt32
  let b1 ← if chunk.length > 1 then chunk[1]?.map (·.toUInt32) else some 0
  let b2 ← if chunk.length > 2 then chunk[2]?.map (·.toUInt32) else some 0
  let triple := (b0 <<< 16) ||| (b1 <<< 8) ||| b2
  let c0 ← tableAt ((triple >>> 18) &&& 0x3F)
  let c1 ← tableAt ((triple >>> 12) &&& 0x3F)
  let c2 ← if chunk.length > 1 then tableAt ((triple >>> 6) &&& 0x3F) else some '='
  let c3 ← if chunk.length > 2 then tableAt (triple &&& 0x3F) else some '='
  return [c0, c1, c2, c3]

def base64Encode (data : List UInt8) : Option String := do
  let out ← (chunks data).mapM encodeChunk
  return String.ofList out.flatten

/-! ## Decoding -/

/-- The variables of the loop. -/
structure Decoder where
  out : List UInt8
  buf : UInt32
  bits : UInt32

def Decoder.new : Decoder := ⟨[], 0, 0⟩

def Decoder.push (d : Decoder) (val : UInt32) : Decoder :=
  let buf := (d.buf <<< 6) ||| val
  let bits := d.bits + 6
  if bits ≥ 8 then
    let bits := bits - 8
    ⟨d.out ++ [(buf >>> bits).toUInt8], buf &&& ((1 <<< bits) - 1), bits⟩
  else ⟨d.out, buf, bits⟩

def decodeLetters (d : Decoder) : List UInt8 → Except BridgeError Decoder
  | [] => .ok d
  | b :: input =>
    match table.findIdx? (· == b) with
    | none => .error (.VerificationFailed "Invalid base64")
    | some val => decodeLetters (d.push (.ofNat val)) input

/-- `input.trim_end_matches('=')` -/
def trimEnd (input : String) : String := String.ofList (input.toList.rdropWhile (· == '='))

def base64Decode (input : String) : Except BridgeError (List UInt8) :=
  (decodeLetters .new (utf8 (trimEnd input))).map (·.out)

/-! ## The decoder -/

section Decoder

variable {d : Decoder} {val : UInt32}

/-- The bits so far: the bytes that were given out, and the rest. -/
def Decoder.number (d : Decoder) : Nat := value 256 (d.out.map (·.toNat)) * 2 ^ d.bits.toNat + d.buf.toNat

def Decoder.length (d : Decoder) : Nat := 8 * d.out.length + d.bits.toNat

/-- Fewer than eight bits are left, and nothing above them. -/
structure Decoder.Sound (d : Decoder) : Prop where
  bits : d.bits.toNat < 8
  buf : d.buf.toNat < 2 ^ d.bits.toNat

theorem toNat_shiftLeft_or (hbuf : d.buf.toNat < 2 ^ 8) (hval : val.toNat < 64) :
    ((d.buf <<< 6) ||| val).toNat = 64 * d.buf.toNat + val.toNat := by
  have hshift : (d.buf <<< 6).toNat = 2 ^ 6 * d.buf.toNat := by
    rw [UInt32.toNat_shiftLeft, Nat.shiftLeft_eq]
    show d.buf.toNat * 2 ^ 6 % 2 ^ 32 = _
    omega
  rw [UInt32.toNat_or, hshift, ← Nat.two_pow_add_eq_or_of_lt hval]

theorem toNat_shiftRight {x bits : UInt32} (h : bits.toNat < 8) : (x >>> bits).toNat = x.toNat / 2 ^ bits.toNat := by
  rw [UInt32.toNat_shiftRight, Nat.shiftRight_eq_div_pow, Nat.mod_eq_of_lt (by omega)]

theorem toNat_and_mask {x bits : UInt32} (h : bits.toNat < 8) :
    (x &&& ((1 <<< bits) - 1)).toNat = x.toNat % 2 ^ bits.toNat := by
  have hpow : 2 ^ bits.toNat < 2 ^ 32 := Nat.pow_lt_pow_right (by decide) (by omega)
  have hone : (1 <<< bits : UInt32).toNat = 2 ^ bits.toNat := by
    rw [UInt32.toNat_shiftLeft, Nat.shiftLeft_eq, Nat.mod_eq_of_lt (show bits.toNat < 32 by omega)]
    show 1 * 2 ^ bits.toNat % 2 ^ 32 = _
    rw [Nat.one_mul, Nat.mod_eq_of_lt hpow]
  have hpos : 0 < 2 ^ bits.toNat := Nat.two_pow_pos _
  have hmask : ((1 <<< bits : UInt32) - 1).toNat = 2 ^ bits.toNat - 1 := by
    rw [UInt32.toNat_sub_of_le, hone]
    · rfl
    · rw [UInt32.le_iff_toNat_le, hone]
      exact hpos
  rw [UInt32.toNat_and, hmask, Nat.and_two_pow_sub_one_eq_mod]

/-- What a letter does: it waits, or completes a byte, and `left` bits are left. -/
theorem push_cases (h : d.Sound) (hval : val.toNat < 64) :
    (d.bits.toNat + 6 < 8 ∧ (d.push val).out = d.out ∧ (d.push val).bits.toNat = d.bits.toNat + 6 ∧
      (d.push val).buf.toNat = 64 * d.buf.toNat + val.toNat) ∨
    ∃ left byte, d.bits.toNat + 6 = left + 8 ∧ (d.push val).out = d.out ++ [byte] ∧
      byte.toNat = (64 * d.buf.toNat + val.toNat) / 2 ^ left ∧ (d.push val).bits.toNat = left ∧
      (d.push val).buf.toNat = (64 * d.buf.toNat + val.toNat) % 2 ^ left := by
  obtain ⟨hbits, hbuf⟩ := h
  have hpow : 2 ^ d.bits.toNat ≤ 2 ^ 7 := Nat.pow_le_pow_right (by decide) (by omega)
  have hx := toNat_shiftLeft_or (show d.buf.toNat < 2 ^ 8 by omega) hval
  have hsum : (d.bits + 6).toNat = d.bits.toNat + 6 := by
    rw [UInt32.toNat_add]
    show (d.bits.toNat + 6) % 2 ^ 32 = _
    omega
  unfold Decoder.push
  by_cases h8 : d.bits + 6 ≥ 8
  · have hge : 8 ≤ d.bits.toNat + 6 := hsum ▸ UInt32.le_iff_toNat_le.1 h8
    have hsub : (d.bits + 6 - 8).toNat = d.bits.toNat - 2 := by
      rw [UInt32.toNat_sub_of_le _ _ h8, hsum]
      show d.bits.toNat + 6 - 8 = _
      omega
    have hleft : (d.bits + 6 - 8).toNat < 8 := by omega
    have hright := toNat_shiftRight (x := (d.buf <<< 6) ||| val) hleft
    have hmask := toNat_and_mask (x := (d.buf <<< 6) ||| val) hleft
    rw [hsub, hx] at hright hmask
    have hlt : 64 * d.buf.toNat + val.toNat < 2 ^ (d.bits.toNat - 2) * 256 := by
      have hsplit : d.bits.toNat = d.bits.toNat - 2 + 2 := by omega
      rw [hsplit, Nat.pow_add] at hbuf
      omega
    have hbyte : ((d.buf <<< 6 ||| val) >>> (d.bits + 6 - 8)).toUInt8.toNat =
        (64 * d.buf.toNat + val.toNat) / 2 ^ (d.bits.toNat - 2) := by
      rw [UInt32.toNat_toUInt8, hright, Nat.mod_eq_of_lt]
      exact Nat.div_lt_of_lt_mul hlt
    rw [if_pos h8]
    exact .inr ⟨d.bits.toNat - 2, _, by omega, rfl, hbyte, hsub, hmask⟩
  · have hlt : d.bits.toNat + 6 < 8 := by
      have hnot := mt UInt32.le_iff_toNat_le.2 h8
      rw [hsum] at hnot
      exact Nat.lt_of_not_le hnot
    rw [if_neg h8]
    exact .inl ⟨hlt, rfl, hsum, hx⟩

/-- A letter adds its six bits, and none is lost. -/
theorem push_number (h : d.Sound) (hval : val.toNat < 64) :
    (d.push val).Sound ∧ (d.push val).number = 64 * d.number + val.toNat ∧
      (d.push val).length = d.length + 6 := by
  unfold Decoder.number Decoder.length
  obtain ⟨hlt, hout, hbits, hbuf⟩ | ⟨left, byte, hleft, hout, hbyte, hbits, hbuf⟩ := push_cases h hval
  · have hfits := h.buf
    refine ⟨⟨by omega, ?_⟩, ?_, ?_⟩
    · rw [hbuf, hbits, Nat.pow_add]
      omega
    · rw [hout, hbuf, hbits, Nat.pow_add]
      ring
    · rw [hout, hbits, Nat.add_assoc]
  · have hpow : 256 * 2 ^ left = 64 * 2 ^ d.bits.toNat := by
      have hpow' := congrArg (2 ^ ·) hleft
      simp only [Nat.pow_add] at hpow'
      omega
    have hbound := h.bits
    refine ⟨⟨by omega, ?_⟩, ?_, ?_⟩
    · rw [hbuf, hbits]
      exact Nat.mod_lt _ (Nat.two_pow_pos left)
    · rw [hout, hbuf, hbits, List.map_append, List.map_singleton, value_concat, hbyte]
      calc (256 * value 256 (d.out.map (·.toNat)) + (64 * d.buf.toNat + val.toNat) / 2 ^ left) * 2 ^ left +
            (64 * d.buf.toNat + val.toNat) % 2 ^ left
          = value 256 (d.out.map (·.toNat)) * (256 * 2 ^ left) + (2 ^ left *
              ((64 * d.buf.toNat + val.toNat) / 2 ^ left) + (64 * d.buf.toNat + val.toNat) % 2 ^ left) := by ring
        _ = 64 * (value 256 (d.out.map (·.toNat)) * 2 ^ d.bits.toNat + d.buf.toNat) + val.toNat := by
          rw [hpow, Nat.div_add_mod]
          ring
    · rw [hout, hbits, List.length_append, List.length_singleton]
      omega

end Decoder

/-! ## Letters -/

section Letters

variable {d : Decoder} {n : Nat} {ds : List Nat} {input : List UInt8}

/-- The letter of six bits. -/
def letter (n : Nat) : UInt8 := table.getD n 0

/-- The six bits of a letter. -/
def sextet (b : UInt8) : Nat := table.findIdx (· == b)

theorem letter_spec (h : n < 64) : table[n]? = some (letter n) ∧ table.findIdx? (· == letter n) = some n ∧
    (letter n).toNat < 128 ∧ asChar (letter n) ≠ '=' := by
  have hall : ∀ n < 64, table[n]? = some (letter n) ∧ table.findIdx? (· == letter n) = some n ∧
    (letter n).toNat < 128 ∧ asChar (letter n) ≠ '=' := by decide +kernel
  exact hall n h

theorem tableAt_eq {i : UInt32} (h : i.toNat < 64) : tableAt i = some (asChar (letter i.toNat)) := by
  rw [tableAt, (letter_spec h).1]
  rfl

/-- The decoder on some letters. -/
theorem decodeLetters_letters (h : d.Sound) (hds : ∀ n ∈ ds, n < 64) :
    ∃ d', decodeLetters d (ds.map letter) = .ok d' ∧ d'.Sound ∧ d'.length = d.length + 6 * ds.length ∧
      d'.number = ds.foldl (fun n v => 64 * n + v) d.number := by
  induction ds generalizing d with
  | nil => exact ⟨d, rfl, h, rfl, rfl⟩
  | cons n ds ih =>
    have hn := hds n List.mem_cons_self
    have hval : (UInt32.ofNat n).toNat = n := UInt32.toNat_ofNat_of_lt' (Nat.lt_trans hn (by decide))
    have hvalid : (UInt32.ofNat n).toNat < 64 := by
      rw [hval]
      exact hn
    obtain ⟨hsound, hnumber, hlength⟩ := push_number h hvalid
    obtain ⟨d', hrest, hsound', hlength', hnumber'⟩ := ih hsound fun n hmem =>
      hds n (List.mem_cons_of_mem _ hmem)
    refine ⟨d', ?_, hsound', ?_, ?_⟩
    · rw [List.map_cons, decodeLetters, (letter_spec hn).2.1]
      exact hrest
    · rw [hlength', hlength, List.length_cons]
      omega
    · rw [hnumber', hnumber, hval, List.foldl_cons]

/-- What the decoder accepts are letters. -/
theorem decodeLetters_ok {d' : Decoder} (h : decodeLetters d input = .ok d') :
    input = (input.map sextet).map letter ∧ ∀ n ∈ input.map sextet, n < 64 := by
  induction input generalizing d with
  | nil => exact ⟨rfl, nofun⟩
  | cons b input ih =>
    rw [decodeLetters] at h
    split at h
    · cases h
    · next val hval =>
      obtain ⟨hlt, hb, -⟩ := List.findIdx?_eq_some_iff_getElem.1 hval
      have hsextet : sextet b = val := by
        rw [sextet, List.findIdx_eq_getD_findIdx?, hval]
        rfl
      have hlen : table.length = 64 := by decide +kernel
      have hletter : letter val = b := by
        rw [letter, List.getD_eq_getElem?_getD, List.getElem?_eq_getElem hlt]
        exact eq_of_beq hb
      obtain ⟨hmap, hlt'⟩ := ih h
      refine ⟨?_, ?_⟩
      · rw [List.map_cons, List.map_cons, hsextet, hletter, ← hmap]
      · rw [List.map_cons, List.forall_mem_cons, hsextet]
        exact ⟨hlen ▸ hlt, hlt'⟩

theorem sound_new : Decoder.new.Sound := ⟨by decide, by decide⟩

/-- Whatever it has read, the decoder has all of its bits. -/
theorem decodeLetters_sound (h : decodeLetters .new input = .ok d) :
    d.Sound ∧ d.length = 6 * input.length ∧ d.number = value 64 (input.map sextet) := by
  obtain ⟨hmap, hlt⟩ := decodeLetters_ok h
  obtain ⟨d', hd', hsound, hlength, hnumber⟩ := decodeLetters_letters sound_new hlt
  rw [← hmap, h] at hd'
  obtain rfl := Except.ok.inj hd'
  rw [List.length_map] at hlength
  exact ⟨hsound, by simpa [Decoder.new, Decoder.length] using hlength, hnumber⟩

end Letters

/-! ## The encoder -/

section Encoder

variable {b0 b1 b2 : UInt8} {data : List UInt8}

/-- The six-bit groups of some bytes, the last one filled up with zeros. -/
def sextets : List UInt8 → List Nat
  | [] => []
  | [b0] => [b0.toNat / 4, b0.toNat % 4 * 16]
  | [b0, b1] => [b0.toNat / 4, b0.toNat % 4 * 16 + b1.toNat / 16, b1.toNat % 16 * 4]
  | b0 :: b1 :: b2 :: data =>
    [b0.toNat / 4, b0.toNat % 4 * 16 + b1.toNat / 16, b1.toNat % 16 * 4 + b2.toNat / 64, b2.toNat % 64] ++
      sextets data

/-- How many `=` the text ends with. -/
def padding : List UInt8 → Nat
  | [] => 0
  | [_] => 2
  | [_, _] => 1
  | _ :: _ :: _ :: data => padding data

theorem sextets_lt (data : List UInt8) : ∀ n ∈ sextets data, n < 64 := by
  induction data using sextets.induct with
  | case1 => exact nofun
  | case2 b0 =>
    have := b0.toNat_lt
    simp only [sextets, List.forall_mem_cons, List.not_mem_nil, false_implies, implies_true, and_true]
    omega
  | case3 b0 b1 =>
    have := b0.toNat_lt
    have := b1.toNat_lt
    simp only [sextets, List.forall_mem_cons, List.not_mem_nil, false_implies, implies_true, and_true]
    omega
  | case4 b0 b1 b2 data ih =>
    have := b0.toNat_lt
    have := b1.toNat_lt
    have := b2.toNat_lt
    simp only [sextets, List.cons_append, List.nil_append, List.forall_mem_cons]
    exact ⟨by omega, by omega, by omega, by omega, ih⟩

theorem length_sextets (data : List UInt8) :
    6 * (sextets data).length = 8 * data.length + 2 * padding data ∧ padding data < 3 := by
  induction data using sextets.induct with
  | case1 => exact ⟨rfl, by decide⟩
  | case2 b0 => exact ⟨rfl, (by decide : 2 < 3)⟩
  | case3 b0 b1 => exact ⟨rfl, (by decide : 1 < 3)⟩
  | case4 b0 b1 b2 data ih =>
    simp only [sextets, padding, List.length_append, List.length_cons, List.length_nil]
    omega

/-- The groups are the number of the bytes. -/
theorem value_sextets (data : List UInt8) :
    value 64 (sextets data) = value 256 (data.map (·.toNat)) * 2 ^ (2 * padding data) := by
  induction data using sextets.induct with
  | case1 => rfl
  | case2 b0 =>
    show 64 * (64 * 0 + b0.toNat / 4) + b0.toNat % 4 * 16 = (256 * 0 + b0.toNat) * 2 ^ 4
    omega
  | case3 b0 b1 =>
    show 64 * (64 * (64 * 0 + b0.toNat / 4) + (b0.toNat % 4 * 16 + b1.toNat / 16)) + b1.toNat % 16 * 4 =
      (256 * (256 * 0 + b0.toNat) + b1.toNat) * 2 ^ 2
    omega
  | case4 b0 b1 b2 data ih =>
    have hlen := (length_sextets data).1
    have hpow : 64 ^ (sextets data).length = 256 ^ data.length * 2 ^ (2 * padding data) := by
      rw [show (64 : Nat) = 2 ^ 6 from rfl, show (256 : Nat) = 2 ^ 8 from rfl, ← Nat.pow_mul, ← Nat.pow_mul,
        hlen, Nat.pow_add]
    have hbytes : (b0 :: b1 :: b2 :: data).map (·.toNat) =
        [b0.toNat, b1.toNat, b2.toNat] ++ data.map (·.toNat) := rfl
    have htriple : value 64 [b0.toNat / 4, b0.toNat % 4 * 16 + b1.toNat / 16,
        b1.toNat % 16 * 4 + b2.toNat / 64, b2.toNat % 64] = value 256 [b0.toNat, b1.toNat, b2.toNat] := by
      simp only [value, List.foldl_cons, List.foldl_nil]
      omega
    rw [sextets, padding, value_append, hbytes, value_append, List.length_map, ih, hpow, htriple]
    ring

theorem toNat_triple {x y z : UInt32} (hx : x.toNat < 256) (hy : y.toNat < 256) (hz : z.toNat < 256) :
    ((x <<< 16) ||| (y <<< 8) ||| z).toNat = 65536 * x.toNat + 256 * y.toNat + z.toNat := by
  have hx' : (x <<< 16).toNat = 2 ^ 16 * x.toNat := by
    rw [UInt32.toNat_shiftLeft, Nat.shiftLeft_eq]
    show x.toNat * 2 ^ 16 % 2 ^ 32 = _
    omega
  have hy' : (y <<< 8).toNat = 2 ^ 8 * y.toNat := by
    rw [UInt32.toNat_shiftLeft, Nat.shiftLeft_eq]
    show y.toNat * 2 ^ 8 % 2 ^ 32 = _
    omega
  have hhigh : 2 ^ 16 * x.toNat + 2 ^ 8 * y.toNat = 2 ^ 8 * (256 * x.toNat + y.toNat) := by omega
  rw [UInt32.toNat_or, UInt32.toNat_or, hx', hy',
    ← Nat.two_pow_add_eq_or_of_lt (show 2 ^ 8 * y.toNat < 2 ^ 16 by omega), hhigh,
    ← Nat.two_pow_add_eq_or_of_lt (show z.toNat < 2 ^ 8 by omega)]
  omega

theorem tableAt_and_3F (x : UInt32) : tableAt (x &&& 0x3F) = some (asChar (letter (x.toNat % 64))) := by
  have h3F : (0x3F : UInt32).toNat = 2 ^ 6 - 1 := rfl
  have hand : (x &&& 0x3F).toNat = x.toNat % 64 := by
    rw [UInt32.toNat_and, h3F, Nat.and_two_pow_sub_one_eq_mod]
  rw [tableAt_eq, hand]
  rw [hand]
  exact Nat.mod_lt _ (by decide)

/-- The four groups of three bytes. -/
theorem tableAt_triple {x y z triple : UInt32} (hx : x.toNat < 256) (hy : y.toNat < 256) (hz : z.toNat < 256)
    (htriple : triple = (x <<< 16) ||| (y <<< 8) ||| z) :
    tableAt ((triple >>> 18) &&& 0x3F) = some (asChar (letter (x.toNat / 4))) ∧
    tableAt ((triple >>> 12) &&& 0x3F) = some (asChar (letter (x.toNat % 4 * 16 + y.toNat / 16))) ∧
    tableAt ((triple >>> 6) &&& 0x3F) = some (asChar (letter (y.toNat % 16 * 4 + z.toNat / 64))) ∧
    tableAt (triple &&& 0x3F) = some (asChar (letter (z.toNat % 64))) := by
  have hnat : triple.toNat = 65536 * x.toNat + 256 * y.toNat + z.toNat := by
    rw [htriple, toNat_triple hx hy hz]
  have h18 : (triple >>> 18).toNat = triple.toNat / 2 ^ 18 := by
    rw [UInt32.toNat_shiftRight, Nat.shiftRight_eq_div_pow]
    rfl
  have h12 : (triple >>> 12).toNat = triple.toNat / 2 ^ 12 := by
    rw [UInt32.toNat_shiftRight, Nat.shiftRight_eq_div_pow]
    rfl
  have h6 : (triple >>> 6).toNat = triple.toNat / 2 ^ 6 := by
    rw [UInt32.toNat_shiftRight, Nat.shiftRight_eq_div_pow]
    rfl
  rw [tableAt_and_3F, tableAt_and_3F, tableAt_and_3F, tableAt_and_3F, h18, h12, h6, hnat]
  refine ⟨?_, ?_, ?_, ?_⟩
  all_goals
    congr 3
    omega

/-- The letters of some bytes, and what they are filled up with. -/
def spell (data : List UInt8) : List Char :=
  ((sextets data).map letter).map asChar ++ List.replicate (padding data) '='

theorem encodeChunk_eq {chunk : List UInt8} (hpos : 0 < chunk.length) (hlen : chunk.length ≤ 3) :
    encodeChunk chunk = some (spell chunk) := by
  have hbyte : ∀ b : UInt8, b.toUInt32.toNat = b.toNat ∧ b.toUInt32.toNat < 256 := by
    intro b
    exact ⟨UInt8.toNat_toUInt32 b, by rw [UInt8.toNat_toUInt32]; exact b.toNat_lt⟩
  have hzero : (0 : UInt32).toNat = 0 := rfl
  match chunk with
  | [b0] =>
    obtain ⟨h0, h1, -, -⟩ := tableAt_triple (hbyte b0).2 (y := 0) (by decide) (z := 0) (by decide) rfl
    rw [(hbyte b0).1] at h0 h1
    simp only [encodeChunk, List.getElem?_cons_zero, List.length_singleton, Nat.lt_irrefl, if_false,
      Option.bind_eq_bind, Option.bind_some, h0, h1, (by decide : ¬ 1 > 2)]
    rfl
  | [b0, b1] =>
    obtain ⟨h0, h1, h2, -⟩ := tableAt_triple (hbyte b0).2 (hbyte b1).2 (z := 0) (by decide) rfl
    rw [(hbyte b0).1] at h0 h1
    rw [(hbyte b1).1] at h1 h2
    simp only [encodeChunk, List.getElem?_cons_zero, List.getElem?_cons_succ, List.length_cons, List.length_nil,
      Option.map_some, Option.bind_eq_bind, Option.bind_some, h0, h1, h2, (by decide : 0 + 1 + 1 > 1),
      (by decide : ¬ 0 + 1 + 1 > 2), if_true, if_false]
    rfl
  | [b0, b1, b2] =>
    obtain ⟨h0, h1, h2, h3⟩ := tableAt_triple (hbyte b0).2 (hbyte b1).2 (hbyte b2).2 rfl
    rw [(hbyte b0).1] at h0 h1
    rw [(hbyte b1).1] at h1 h2
    rw [(hbyte b2).1] at h2 h3
    simp only [encodeChunk, List.getElem?_cons_zero, List.getElem?_cons_succ, List.length_cons, List.length_nil,
      Option.map_some, Option.bind_eq_bind, Option.bind_some, h0, h1, h2, h3, (by decide : 0 + 1 + 1 + 1 > 1),
      (by decide : 0 + 1 + 1 + 1 > 2), if_true]
    rfl

theorem mapM_encodeChunk (data : List UInt8) :
    ∃ out, (chunks data).mapM encodeChunk = some out ∧ out.flatten = spell data := by
  induction data using chunks.induct with
  | case1 => exact ⟨[], rfl, rfl⟩
  | case2 b0 =>
    have h := encodeChunk_eq (show 0 < [b0].length by simp) (by simp)
    exact ⟨[spell [b0]], by rw [chunks, List.mapM_cons, h]; rfl, List.append_nil _⟩
  | case3 b0 b1 =>
    have h := encodeChunk_eq (show 0 < [b0, b1].length by simp) (by simp)
    exact ⟨[spell [b0, b1]], by rw [chunks, List.mapM_cons, h]; rfl, List.append_nil _⟩
  | case4 b0 b1 b2 data ih =>
    obtain ⟨out, hout, hflat⟩ := ih
    have h := encodeChunk_eq (show 0 < [b0, b1, b2].length by simp) (by simp)
    refine ⟨spell [b0, b1, b2] :: out, ?_, ?_⟩
    · rw [chunks, List.mapM_cons, h, hout]
      rfl
    · rw [List.flatten_cons, hflat]
      rfl

theorem base64Encode_eq (data : List UInt8) : base64Encode data = some (String.ofList (spell data)) := by
  obtain ⟨out, hout, hflat⟩ := mapM_encodeChunk data
  unfold base64Encode
  rw [hout, ← hflat]
  rfl

/-- What is trimmed is what the letters were filled up with. -/
theorem utf8_trimEnd (data : List UInt8) :
    utf8 (trimEnd (String.ofList (spell data))) = (sextets data).map letter := by
  have hlt := sextets_lt data
  have htrim : (spell data).rdropWhile (· == '=') = ((sextets data).map letter).map asChar := by
    unfold spell
    induction padding data with
    | zero =>
      rw [List.replicate_zero, List.append_nil, List.rdropWhile_eq_self_iff]
      intro hne
      obtain ⟨b, hb, hlast⟩ := List.mem_map.1 (List.getLast_mem hne)
      obtain ⟨n, hn, rfl⟩ := List.mem_map.1 hb
      rw [← hlast]
      simpa using (letter_spec (hlt n hn)).2.2.2
    | succ k ih =>
      rw [List.replicate_succ', ← List.append_assoc, List.rdropWhile_concat_pos _ _ _ (by simp)]
      exact ih
  rw [trimEnd, String.toList_ofList, htrim]
  refine utf8_ofList_asChar fun b hb => ?_
  obtain ⟨n, hn, rfl⟩ := List.mem_map.1 hb
  exact (letter_spec (hlt n hn)).2.2.1

theorem base64Decode_spell (data : List UInt8) : base64Decode (String.ofList (spell data)) = .ok data := by
  obtain ⟨d, hd, hsound, hlength, hnumber⟩ := decodeLetters_letters sound_new (sextets_lt data)
  have hout : d.out = data := by
    obtain ⟨hlen, hpad⟩ := length_sextets data
    have hbits := hsound.bits
    have hbuf := hsound.buf
    have hzero : Decoder.new.length = 0 := rfl
    rw [hzero] at hlength
    unfold Decoder.length at hlength
    have hnum : d.number = value 256 (data.map (·.toNat)) * 2 ^ (2 * padding data) := by
      rw [hnumber, ← value_sextets]
      rfl
    have hleft : d.bits.toNat = 2 * padding data := by omega
    unfold Decoder.number at hnum
    rw [hleft] at hnum hbuf
    have hvalue : value 256 (d.out.map (·.toNat)) = value 256 (data.map (·.toNat)) := by
      have hpos : 0 < 2 ^ (2 * padding data) := Nat.two_pow_pos _
      have hdiv := congrArg (· / 2 ^ (2 * padding data)) hnum
      simp only [Nat.mul_div_cancel _ hpos] at hdiv
      rw [Nat.add_comm, Nat.add_mul_div_right _ _ hpos, Nat.div_eq_of_lt hbuf, Nat.zero_add] at hdiv
      exact hdiv
    have hbyte : ∀ (l : List UInt8), ∀ n ∈ l.map (·.toNat), n < 256 := by
      intro l n hn
      obtain ⟨b, -, rfl⟩ := List.mem_map.1 hn
      exact b.toNat_lt
    have hmap := value_inj (by decide) (hbyte d.out) (hbyte data)
      (by rw [List.length_map, List.length_map]; omega) hvalue
    exact (List.map_inj_right fun _ _ h => UInt8.toNat_inj.1 h).1 hmap
  rw [base64Decode, utf8_trimEnd, hd]
  exact congrArg Except.ok hout

/-- Bytes come back from their text; and whatever text the decoder reads, between two letters fewer than eight
bits are left, with nothing above them, and together with the bytes given out they are the bits of the letters. -/
theorem base64_roundTrip :
    (∀ b, ∃ s, base64Encode b = some s ∧ base64Decode s = .ok b) ∧
    ∀ input d, decodeLetters .new input = .ok d →
      d.buf.toNat < 2 ^ d.bits.toNat ∧ d.bits.toNat < 8 ∧ d.length = 6 * input.length ∧
        d.number = value 64 (input.map sextet) := by
  constructor
  · intro b
    exact ⟨_, base64Encode_eq b, base64Decode_spell b⟩
  · intro input d h
    obtain ⟨hsound, hlength, hnumber⟩ := decodeLetters_sound h
    exact ⟨hsound.buf, hsound.bits, hlength, hnumber⟩

end Encoder

end IntentX.Base64
