import IntentX.Base58
import IntentX.Bridges
import IntentX.Lib.Bytes

/-!
# Recipients read as hexadecimal

`encode_transfer_tokens` of `src/cross_chain/wormhole.rs` reads every recipient as hexadecimal, and for what is
not it puts zeros.  A Solana address in base58 has at most 63 characters, so it is not 32 bytes in hexadecimal;
and where it happens to be hexadecimal, of fewer bytes, these stand for another number than the address:
with `z` ones in front the address is `32 - z` bytes long without the zeros, so it has twice as many
hexadecimal digits, and no such number has as many base58 digits.
-/

namespace IntentX.Wormhole

open Lib Text Bytes Radix SolanaSigning

/-- The 32 bytes that are put for a recipient. -/
def recipientWord (recipient : String) : Bytes :=
  let recipBytes := dataBytes recipient
  List.replicate (32 - min recipBytes.length 32) 0 ++ recipBytes.take (min recipBytes.length 32)

/-! ## Hexadecimal digits -/

section Hex

variable {cs : List Char} {h : List UInt8} {ds vs : List Nat}

theorem hexValue_lt {c : Char} {v : Nat} (hv : hexValue c = some v) : v < 16 := by
  unfold hexValue at hv
  split_ifs at hv with h₁ h₂ h₃
  · obtain rfl := Option.some.inj hv
    have hle : c.toNat ≤ '9'.toNat := h₁.2
    show c.toNat - 48 < 16
    have h9 : '9'.toNat = 57 := rfl
    omega
  · obtain rfl := Option.some.inj hv
    have hle : c.toNat ≤ 'f'.toNat := h₂.2
    show c.toNat - 97 + 10 < 16
    have hf : 'f'.toNat = 102 := rfl
    omega
  · obtain rfl := Option.some.inj hv
    have hle : c.toNat ≤ 'F'.toNat := h₃.2
    show c.toNat - 65 + 10 < 16
    have hf : 'F'.toNat = 70 := rfl
    omega

theorem value_cons (b d : Nat) (ds : List Nat) : value b (d :: ds) = d * b ^ ds.length + value b ds := by
  rw [← List.singleton_append, value_append]
  simp [value]

/-- The digits of what is decoded, and their number. -/
theorem hexDecode_digits (hdec : hexDecode cs = some h) :
    ∃ vs, cs.map hexValue = vs.map some ∧ (∀ v ∈ vs, v < 16) ∧ vs.length = 2 * h.length ∧
      value 16 vs = fromBeBytes h := by
  induction cs using hexDecode.induct generalizing h with
  | case1 =>
    cases hdec
    exact ⟨[], rfl, nofun, rfl, rfl⟩
  | case2 c => cases hdec
  | case3 hi lo cs ih =>
    rw [hexDecode] at hdec
    simp only [Option.bind_eq_bind, Option.bind_eq_some_iff] at hdec
    obtain ⟨a, ha, b, hb, bytes, hbytes, heq⟩ := hdec
    cases heq
    obtain ⟨vs, hvs, hlt, hlen, hvalue⟩ := ih hbytes
    have halt := hexValue_lt ha
    have hblt := hexValue_lt hb
    have hbyte : (UInt8.ofNat (16 * a + b)).toNat = 16 * a + b := 
      UInt8.toNat_ofNat_of_lt' (show 16 * a + b < 256 by omega)
    have hpow : 16 ^ vs.length = 256 ^ bytes.length := by
      rw [hlen, Nat.pow_mul]
    refine ⟨a :: b :: vs, ?_, List.forall_mem_cons.2 ⟨halt, List.forall_mem_cons.2 ⟨hblt, hlt⟩⟩, ?_, ?_⟩
    · simp only [List.map_cons, ha, hb, hvs]
    · simp only [List.length_cons, hlen]
      omega
    · rw [fromBeBytes_eq_value, List.map_cons, hbyte, value_cons, value_cons, value_cons, List.length_map,
        ← fromBeBytes_eq_value, ← hvalue, List.length_cons, Nat.pow_succ, hpow]
      ring

/-- A base58 letter is a nonzero hexadecimal digit, if it is one at all. -/
theorem hexValue_letter {d v : Nat} (hd : d < 58) (hv : hexValue (asChar (letter d)) = some v) :
    0 < v ∧ (d = 0 → v = 1) := by
  have hall : ∀ d < 58, (hexValue (asChar (letter d))).all fun v => 0 < v && (d != 0 || v == 1) := by
    decide +kernel
  have h := hall d hd
  rw [hv] at h
  simpa [imp_iff_not_or] using h

end Hex

/-! ## Two readings of a text -/

section Readings

variable {ds vs : List Nat} {s : String} {r : Bytes}

theorem dropWhile_ne_nil_iff {p : Nat → Bool} : ds.dropWhile p ≠ [] ↔ (ds.takeWhile p).length < ds.length := by
  have hsplit := congrArg List.length (List.takeWhile_append_dropWhile (p := p) (l := ds))
  rw [List.length_append] at hsplit
  rw [← List.length_pos_iff]
  omega

theorem head?_of_takeWhile (h : 0 < (ds.takeWhile (· == 0)).length) : ds.head? = some 0 := by
  cases ds with
  | nil => exact absurd h (Nat.lt_irrefl 0)
  | cons d ds =>
    by_cases hd : d = 0
    · rw [hd]
      rfl
    · rw [List.takeWhile_cons_of_neg (by simpa using hd)] at h
      exact absurd h (Nat.lt_irrefl 0)

/-- The digits after the leading zeros are those of the number. -/
theorem number_bounds (hds : ∀ d ∈ ds, d < 58) (hne : ds.dropWhile (· == 0) ≠ []) :
    58 ^ (ds.length - (ds.takeWhile (· == 0)).length - 1) ≤ value 58 ds ∧
      value 58 ds < 58 ^ (ds.length - (ds.takeWhile (· == 0)).length) := by
  have hsplit := congrArg List.length (List.takeWhile_append_dropWhile (p := (· == 0)) (l := ds))
  rw [List.length_append] at hsplit
  have hlen : (ds.dropWhile (· == 0)).length = ds.length - (ds.takeWhile (· == 0)).length := by omega
  rw [← value_dropWhile, ← hlen]
  refine ⟨?_, value_lt (by decide) fun d hd => hds d ((List.dropWhile_suffix _).subset hd)⟩
  have hhead := List.head_dropWhile_not (· == 0) hne
  cases hcons : ds.dropWhile (· == 0) with
  | nil => exact absurd hcons hne
  | cons d rest =>
    have hd : d ≠ 0 := by simpa only [hcons, List.head_cons, beq_eq_false_iff_ne] using hhead
    exact pow_le_value (Nat.pos_of_ne_zero hd)

/-- A text whose bytes in base58 are 32 is shorter than 64 characters. -/
theorem length_lt_of_base58 (hds : ∀ d ∈ ds, d < 58) (hlen : (recode 256 58 ds).length = 32) :
    ds.length < 64 := by
  rw [recode, List.length_append, List.length_replicate, List.length_reverse] at hlen
  by_contra hge
  have hne : ds.dropWhile (· == 0) ≠ [] := by
    rw [dropWhile_ne_nil_iff]
    omega
  have hlow := (number_bounds hds hne).1
  have hhigh : value 58 ds < 256 ^ (32 - (ds.takeWhile (· == 0)).length) :=
    (Nat.digits_length_le_iff (by decide) _).1 (by omega)
  generalize (ds.takeWhile (· == 0)).length = z at *
  have hpow : 58 ^ (63 - z) ≤ 58 ^ (ds.length - z - 1) := Nat.pow_le_pow_right (by decide) (by omega)
  have hall : ∀ z ≤ 32, 256 ^ (32 - z) ≤ 58 ^ (63 - z) := by decide +kernel
  have hz := hall z (by omega)
  omega

/-- What the lengths of the two readings would have to be: `k` bytes after the leading zeros. -/
theorem no_length {k : Nat} (hlo : 11 ≤ k) (hhi : k ≤ 31) (h₁ : 58 ^ (3 * k - 33) < 2 * 16 ^ (2 * k - 1)) :
    58 ^ (3 * k - 32) ≤ 16 ^ (2 * k - 1) := by
  have hall : ∀ k ≤ 31, 11 ≤ k → 58 ^ (3 * k - 33) < 2 * 16 ^ (2 * k - 1) →
      58 ^ (3 * k - 32) ≤ 16 ^ (2 * k - 1) := by decide +kernel
  exact hall k hhi hlo h₁

/-- The bytes of a number of `2 * k` hexadecimal digits. -/
theorem length_digits_of_pow_le {k n : Nat} (hlow : 16 ^ (2 * k - 1) ≤ n) (hhigh : n < 256 ^ k) :
    (Nat.digits 256 n).length = k := by
  have hle := (Nat.digits_length_le_iff (by decide) _).2 hhigh
  have hlt : k - 1 < (Nat.digits 256 n).length := by
    refine (Nat.lt_digits_length_iff (by decide) _).2 (Nat.le_trans ?_ hlow)
    rw [show 256 = 16 ^ 2 from rfl, ← Nat.pow_mul]
    exact Nat.pow_le_pow_right (by decide) (by omega)
  omega

/-- A number of 32 bytes with the leading zeros of its base58 digits has not as many hexadecimal digits, if
none of these is zero, and the first is one where the first base58 digit is zero. -/
theorem base58_ne_hex {v : Nat} (hds : ∀ d ∈ ds, d < 58) (hlen : (recode 256 58 ds).length = 32)
    (hvs : ∀ u ∈ v :: vs, u < 16) (hcount : (v :: vs).length = ds.length) (heven : Even ds.length)
    (hpos : 0 < v) (hone : ds.head? = some 0 → v = 1) : value 58 ds ≠ value 16 (v :: vs) := by
  intro heq
  have hshort := length_lt_of_base58 hds hlen
  rw [recode, List.length_append, List.length_replicate, List.length_reverse] at hlen
  obtain ⟨k, hk⟩ := heven
  rw [List.length_cons] at hcount
  have hlow : 16 ^ vs.length ≤ value 58 ds := heq ▸ pow_le_value hpos
  have hhigh : value 58 ds < 256 ^ k := by
    rw [heq]
    refine (value_lt (by decide) hvs).trans_eq ?_
    rw [List.length_cons, hcount, hk, ← Nat.two_mul, Nat.pow_mul]
  have hne : ds.dropWhile (· == 0) ≠ [] := by
    intro hnil
    have hzero : value 58 ds = 0 := by
      rw [← value_dropWhile, hnil]
      rfl
    have hpow : 0 < 16 ^ vs.length := Nat.pow_pos (by decide)
    omega
  obtain ⟨hlow58, hhigh58⟩ := number_bounds hds hne
  -- the number has exactly `k` bytes, so `32 - k` digits are leading zeros
  have hvslen : vs.length = 2 * k - 1 := by omega
  rw [hvslen] at hlow
  have hbytes := length_digits_of_pow_le hlow hhigh
  have hdrop := dropWhile_ne_nil_iff.1 hne
  have hfirst : v = 1 := by
    apply hone
    apply head?_of_takeWhile
    omega
  have htwo : value 58 ds < 2 * 16 ^ vs.length := by
    have hrest := value_lt (by decide : 1 < 16) fun u hu => hvs u (List.mem_cons_of_mem _ hu)
    rw [heq, hfirst, value_cons]
    omega
  have hexp : ds.length - (ds.takeWhile (· == 0)).length = 3 * k - 32 := by omega
  have hexp' : 3 * k - 32 - 1 = 3 * k - 33 := by omega
  rw [hexp, hexp'] at hlow58
  rw [hexp] at hhigh58
  rw [hvslen] at htwo
  have hnot := no_length (k := k) (by omega) (by omega) (Nat.lt_of_le_of_lt hlow58 htwo)
  omega

/-- The text as the code reads it. -/
theorem strip0x_text (hds : ∀ d ∈ ds, d < 58) : strip0x (text ds) = (ds.map letter).map asChar := by
  have hzero : ∀ d < 58, asChar (letter d) ≠ '0' := by decide +kernel
  have htext : (text ds).toList = (ds.map letter).map asChar := String.toList_ofList
  unfold strip0x
  rw [htext]
  split
  · next hcs =>
    cases ds with
    | nil => cases hcs
    | cons d ds => exact absurd (List.cons.inj hcs).1 (hzero d (hds d List.mem_cons_self))
  · rfl

/-- The digits of a text, and its bytes. -/
theorem exists_digits (hdec : bs58Decode s = some (.ok r)) :
    ∃ ds, (∀ d ∈ ds, d < 58) ∧ s = text ds ∧ r = (recode 256 58 ds).map .ofNat := by
  have hs : ∀ c ∈ s.toList, c ∈ b58Text.toList := by
    intro c hc
    by_contra hout
    obtain ⟨e, he⟩ := bs58Decode_error hc hout
    rw [he] at hdec
    cases hdec
  obtain ⟨ds, hds, rfl⟩ := exists_text hs
  rw [bs58Decode_eq hds] at hdec
  cases hdec
  exact ⟨ds, hds, rfl, rfl⟩

/-- The hexadecimal digits of a text of base58, as many as its letters. -/
theorem hexDecode_text {h : Bytes} (hds : ∀ d ∈ ds, d < 58) (hhex : hexDecode (strip0x (text ds)) = some h) :
    ∃ vs, vs.length = ds.length ∧ (∀ v ∈ vs, v < 16) ∧ vs.length = 2 * h.length ∧ value 16 vs = fromBeBytes h ∧
      ∀ v rest, vs = v :: rest → 0 < v ∧ (ds.head? = some 0 → v = 1) := by
  rw [strip0x_text hds] at hhex
  obtain ⟨vs, hvs, hlt, hcount, hvalue⟩ := hexDecode_digits hhex
  have hlength := congrArg List.length hvs
  rw [List.length_map, List.length_map, List.length_map, List.length_map] at hlength
  refine ⟨vs, hlength.symm, hlt, hcount, hvalue, ?_⟩
  rintro v rest rfl
  cases ds with
  | nil => cases hlength
  | cons d ds =>
    have hv : hexValue (asChar (letter d)) = some v := (List.cons.inj hvs).1
    obtain ⟨hpos, hone⟩ := hexValue_letter (hds d List.mem_cons_self) hv
    exact ⟨hpos, fun hhead => hone (Option.some.inj hhead)⟩

/-- An address in base58 is not 32 bytes in hexadecimal too. -/
theorem length_hexDecode_lt (hdec : bs58Decode s = some (.ok r)) (hlen : r.length = 32) {h : Bytes}
    (hhex : hexDecode (strip0x s) = some h) : h.length < 32 := by
  obtain ⟨ds, hds, rfl, rfl⟩ := exists_digits hdec
  rw [List.length_map] at hlen
  obtain ⟨vs, hlength, -, hcount, -⟩ := hexDecode_text hds hhex
  have hshort := length_lt_of_base58 hds hlen
  omega

theorem fromBeBytes_base58 (ds : List Nat) : fromBeBytes ((recode 256 58 ds).map .ofNat) = value 58 ds := by
  rw [fromBeBytes_eq_value, map_toNat_ofNat fun d hd => recode_lt (by decide) hd, recode,
    value_replicate_zero_append, value_reverse_digits]

/-- Only ones are 32 zeros. -/
theorem eq_ones (hds : ∀ d ∈ ds, d < 58) (hlen : (recode 256 58 ds).length = 32) (hzero : value 58 ds = 0) :
    ds = List.replicate 32 0 := by
  have hnil : ds.dropWhile (· == 0) = [] := by
    by_contra hne
    have hpow : 0 < 58 ^ (ds.length - (ds.takeWhile (· == 0)).length - 1) := Nat.pow_pos (by decide)
    have hlow := (number_bounds hds hne).1
    omega
  have htake : ds.takeWhile (· == 0) = ds := by
    have hsplit := List.takeWhile_append_dropWhile (p := (· == 0)) (l := ds)
    rwa [hnil, List.append_nil] at hsplit
  rw [recode, hzero, Nat.digits_zero, htake, List.reverse_nil, List.append_nil, List.length_replicate] at hlen
  rw [← htake, takeWhile_zero, htake, hlen]

/-- What is put for an address in base58 is another address. -/
theorem recipientWord_ne (hdec : bs58Decode s = some (.ok r)) (hlen : r.length = 32) : recipientWord s ≠ r := by
  intro heq
  cases hhex : hexDecode (strip0x s) with
  | none =>
    obtain ⟨ds, hds, rfl, rfl⟩ := exists_digits hdec
    rw [List.length_map] at hlen
    have hword : recipientWord (text ds) = List.replicate 32 0 := by
      rw [recipientWord, dataBytes, hhex]
      rfl
    have hzero : value 58 ds = 0 := by
      rw [← fromBeBytes_base58, ← heq, hword]
      rfl
    rw [eq_ones hds hlen hzero, strip0x_text fun d hd => by rw [List.eq_of_mem_replicate hd]; decide] at hhex
    exact absurd hhex (by decide +kernel)
  | some h =>
    have hshort := length_hexDecode_lt hdec hlen hhex
    obtain ⟨ds, hds, rfl, rfl⟩ := exists_digits hdec
    rw [List.length_map] at hlen
    obtain ⟨vs, hlength, hlt, hcount, hvalue, hfirst⟩ := hexDecode_text hds hhex
    have hsame : value 58 ds = value 16 vs := by
      have hbytes : dataBytes (text ds) = h := by
        rw [dataBytes, hhex]
        rfl
      rw [← fromBeBytes_base58, ← heq, recipientWord, hbytes, Nat.min_eq_left (by omega), List.take_length, hvalue,
        fromBeBytes_eq_value, fromBeBytes_eq_value, List.map_append, List.map_replicate]
      exact value_replicate_zero_append _ _ _
    cases vs with
    | nil =>
      rw [List.length_eq_zero_iff.1 hlength.symm] at hlen
      exact absurd hlen (by decide)
    | cons v rest =>
      obtain ⟨hpos, hone⟩ := hfirst v rest rfl
      exact base58_ne_hex hds hlen hlt hlength ⟨h.length, by omega⟩ hpos hone hsame

end Readings

end IntentX.Wormhole
