import IntentX.Lib.Radix
import IntentX.Lib.Text

/-!
# Base58

`bs58_encode` and `bs58_decode` of `src/wallet/solana_signing.rs`.  Both convert a number in place, from one
base to the other, and put back one zero for each leading zero.  The carry is a `u32`, of which every
addition and product is checked: `none` is an overflow, or an index past the alphabet.

    bs58Encode b = some s  →  bs58Decode s = some (.ok b)      for every b, and the other way round
                                                               for every s over the alphabet
-/

namespace IntentX.SolanaSigning

open Lib Text Radix

def b58Text : String := "123456789ABCDEFGHJKLMNPQRSTUVWXYZabcdefghijkmnopqrstuvwxyz"

def b58Alphabet : List UInt8 := utf8 b58Text

/-! ## Conversion in place -/

def add? (a b : UInt32) : Option UInt32 := if a.toNat + b.toNat < 2 ^ 32 then some (a + b) else none

def mul? (a b : UInt32) : Option UInt32 := if a.toNat * b.toNat < 2 ^ 32 then some (a * b) else none

/-- What a digit adds to the carry, the digit that is left of a carry, and what is carried on. -/
structure Base where
  weigh : UInt8 → Option UInt32
  digit : UInt32 → UInt8
  next : UInt32 → UInt32
  next_lt : ∀ carry, 0 < carry → (next carry).toNat < carry.toNat

namespace Base

variable (B : Base)

/-- `for d in digits.iter_mut()` -/
def mulAdd : List UInt8 → UInt32 → Option (List UInt8 × UInt32)
  | [], carry => some ([], carry)
  | d :: ds, carry => do
    let carry ← add? carry (← B.weigh d)
    let (ds, rest) ← mulAdd ds (B.next carry)
    return (B.digit carry :: ds, rest)

/-- `while carry > 0` -/
def push (carry : UInt32) : List UInt8 :=
  if h : 0 < carry then
    have := B.next_lt carry h
    B.digit carry :: push (B.next carry)
  else []
termination_by carry.toNat

/-- Takes up one more digit of the other base. -/
def take (digits : List UInt8) (carry : UInt32) : Option (List UInt8) := do
  let (ds, rest) ← B.mulAdd digits carry
  return ds ++ B.push rest

end Base

/-- `carry += (*d as u32) << 8; *d = (carry % 58) as u8; carry /= 58` -/
def toBase58 : Base where
  weigh d := some (d.toUInt32 <<< 8)
  digit carry := (carry % 58).toUInt8
  next carry := carry / 58
  next_lt carry h := by
    have hpos := UInt32.lt_iff_toNat_lt.1 h
    exact Nat.div_lt_self hpos (by decide)

/-- `carry += (*b as u32) * 58; *b = (carry & 0xff) as u8; carry >>= 8` -/
def toBytes : Base where
  weigh b := mul? b.toUInt32 58
  digit carry := (carry &&& 0xff).toUInt8
  next carry := carry >>> 8
  next_lt carry h := by
    have hpos := UInt32.lt_iff_toNat_lt.1 h
    rw [UInt32.toNat_shiftRight, Nat.shiftRight_eq_div_pow]
    exact Nat.div_lt_self hpos (by decide)

/-! ## Encoding and decoding -/

def encodeDigits (digits : List UInt8) : List UInt8 → Option (List UInt8)
  | [] => some digits
  | byte :: data => do encodeDigits (← toBase58.take digits byte.toUInt32) data

def bs58Encode (data : List UInt8) : Option String :=
  if data = [] then some ""
  else do
    let zeros := (data.takeWhile (· == 0)).length
    let digits ← encodeDigits [] data
    let letters ← digits.reverse.mapM fun d => b58Alphabet[d.toNat]?
    return String.ofList (List.replicate zeros '1' ++ letters.map asChar)

def decodeBytes (bytes : List UInt8) : List UInt8 → Option (Except String (List UInt8))
  | [] => some (.ok bytes)
  | ch :: input =>
    match b58Alphabet.findIdx? (· == ch) with
    | none => some (.error ("Invalid base58 character: " ++ String.singleton (asChar ch)))
    | some val => do decodeBytes (← toBytes.take bytes (.ofNat val)) input

def bs58Decode (input : String) : Option (Except String (List UInt8)) :=
  if input = "" then some (.ok [])
  else do
    let zeros := ((utf8 input).takeWhile (· == '1'.toUInt8)).length
    let r ← decodeBytes [] (utf8 input)
    return r.map fun bytes => List.replicate zeros 0 ++ bytes.reverse

/-! ## What the conversion does -/

/-- Digits to the base `b`, of digits to the base `m`. -/
structure Base.Converts (B : Base) (b m : Nat) : Prop where
  one_lt : 1 < b
  pos : 0 < m
  fits : m * b < 2 ^ 32
  weigh : ∀ d : UInt8, d.toNat < b → ∃ w, B.weigh d = some w ∧ w.toNat = m * d.toNat
  digit : ∀ carry, (B.digit carry).toNat = carry.toNat % b
  next : ∀ carry, (B.next carry).toNat = carry.toNat / b

theorem add?_eq_some_iff {a b c : UInt32} : add? a b = some c ↔ c.toNat = a.toNat + b.toNat := by
  unfold add?
  by_cases h : a.toNat + b.toNat < 2 ^ 32
  · rw [if_pos h, Option.some.injEq, ← UInt32.toNat_inj, UInt32.toNat_add, Nat.mod_eq_of_lt h, eq_comm]
  · have := c.toNat_lt
    simp only [if_neg h, reduceCtorEq, false_iff]
    omega

theorem mul?_eq_some_iff {a b c : UInt32} : mul? a b = some c ↔ c.toNat = a.toNat * b.toNat := by
  unfold mul?
  by_cases h : a.toNat * b.toNat < 2 ^ 32
  · rw [if_pos h, Option.some.injEq, ← UInt32.toNat_inj, UInt32.toNat_mul, Nat.mod_eq_of_lt h, eq_comm]
  · have := c.toNat_lt
    simp only [if_neg h, reduceCtorEq, false_iff]
    omega

theorem exists_toNat {n : Nat} (h : n < 2 ^ 32) : ∃ x : UInt32, x.toNat = n :=
  ⟨.ofNat n, UInt32.toNat_ofNat_of_lt' h⟩

theorem converts_toBase58 : toBase58.Converts 58 256 where
  one_lt := by decide
  pos := by decide
  fits := by decide
  weigh d _ := by
    refine ⟨_, rfl, ?_⟩
    have hlt := d.toNat_lt
    rw [UInt32.toNat_shiftLeft, Nat.shiftLeft_eq, UInt8.toNat_toUInt32]
    show d.toNat * 2 ^ 8 % 2 ^ 32 = 256 * d.toNat
    omega
  digit carry := by
    show (carry % 58).toUInt8.toNat = carry.toNat % 58
    rw [UInt32.toNat_toUInt8, UInt32.toNat_mod]
    show carry.toNat % 58 % 256 = _
    omega
  next carry := UInt32.toNat_div carry 58

theorem converts_toBytes : toBytes.Converts 256 58 where
  one_lt := by decide
  pos := by decide
  fits := by decide
  weigh b _ := by
    have hlt := b.toNat_lt
    obtain ⟨w, hw⟩ := exists_toNat (show 58 * b.toNat < 2 ^ 32 by omega)
    refine ⟨w, mul?_eq_some_iff.2 ?_, hw⟩
    rw [hw, UInt8.toNat_toUInt32]
    exact Nat.mul_comm _ _
  digit carry := by
    have hff : (0xff : UInt32).toNat = 2 ^ 8 - 1 := rfl
    show (carry &&& 0xff).toUInt8.toNat = carry.toNat % 256
    rw [UInt32.toNat_toUInt8, UInt32.toNat_and, hff, Nat.and_two_pow_sub_one_eq_mod]
    omega
  next carry := by
    show (carry >>> 8).toNat = _
    rw [UInt32.toNat_shiftRight, Nat.shiftRight_eq_div_pow]
    rfl

section Conversion

variable {B : Base} {b m : Nat} {ds : List UInt8} {carry : UInt32}

/-- What is left of the carry is written out. -/
theorem push_eq (h : B.Converts b m) (carry : UInt32) :
    (B.push carry).map (·.toNat) = Nat.digits b carry.toNat := by
  induction hn : carry.toNat using Nat.strongRecOn generalizing carry with
  | ind n ih =>
    subst hn
    rw [Base.push]
    split
    · next hpos =>
      have hlt := B.next_lt carry hpos
      rw [List.map_cons, ih _ hlt _ rfl, h.digit, h.next,
        Nat.digits_def' h.one_lt (UInt32.lt_iff_toNat_lt.1 hpos)]
    · next hzero =>
      have h0 : carry.toNat = 0 := by
        have hle := mt UInt32.lt_iff_toNat_lt.2 hzero
        exact Nat.eq_zero_of_not_pos hle
      rw [h0, Nat.digits_zero]
      rfl

/-- No addition overflows as long as the carry is below the old base, and there it stays. -/
theorem mulAdd_eq (h : B.Converts b m) (hds : ∀ d ∈ ds, d.toNat < b) (hcarry : carry.toNat < m) :
    ∃ ds' rest, B.mulAdd ds carry = some (ds', rest) ∧
      (ds' ++ B.push rest).map (·.toNat) = Radix.mulAdd b m (ds.map (·.toNat)) carry.toNat := by
  induction ds generalizing carry with
  | nil => exact ⟨[], carry, rfl, push_eq h carry⟩
  | cons d ds ih =>
    have hd := hds d List.mem_cons_self
    have hmul : m * d.toNat + m ≤ m * b := by
      rw [← Nat.mul_succ]
      exact Nat.mul_le_mul_left m hd
    have hfits := h.fits
    obtain ⟨w, hw, hweight⟩ := h.weigh d hd
    obtain ⟨sum, hsum⟩ := exists_toNat (show carry.toNat + m * d.toNat < 2 ^ 32 by omega)
    have hadd : add? carry w = some sum := by
      rw [add?_eq_some_iff, hsum, hweight]
    have hnext : (B.next sum).toNat < m := by
      rw [h.next, hsum, Nat.div_lt_iff_lt_mul (Nat.lt_of_succ_lt h.one_lt)]
      omega
    obtain ⟨ds', rest, hrec, heq⟩ := ih (fun d hmem => hds d (List.mem_cons_of_mem _ hmem)) hnext
    refine ⟨B.digit sum :: ds', rest, ?_, ?_⟩
    · simp only [Base.mulAdd, Option.bind_eq_bind, hw, Option.bind_some, hadd, hrec]
      rfl
    · rw [List.cons_append, List.map_cons, heq, h.digit, h.next, hsum]
      rfl

/-- One more digit, and the digits are those of the next number. -/
theorem take_digits {n : Nat} (h : B.Converts b m) (hds : ds.map (·.toNat) = Nat.digits b n)
    (hcarry : carry.toNat < m) :
    ∃ ds', B.take ds carry = some ds' ∧ ds'.map (·.toNat) = Nat.digits b (m * n + carry.toNat) := by
  have hlt : ∀ d ∈ ds, d.toNat < b := by
    intro d hd
    refine Nat.digits_lt_base h.one_lt (m := n) ?_
    rw [← hds]
    exact List.mem_map_of_mem hd
  obtain ⟨ds', rest, hmul, heq⟩ := mulAdd_eq h hlt hcarry
  refine ⟨ds' ++ B.push rest, ?_, ?_⟩
  · simp only [Base.take, Option.bind_eq_bind, hmul, Option.bind_some]
    rfl
  · rw [heq, hds, mulAdd_digits h.one_lt h.pos]

theorem encodeDigits_eq {digits : List UInt8} {n : Nat} (data : List UInt8)
    (h : digits.map (·.toNat) = Nat.digits 58 n) :
    ∃ ds, encodeDigits digits data = some ds ∧
      ds.map (·.toNat) = Nat.digits 58 ((data.map (·.toNat)).foldl (fun n d => 256 * n + d) n) := by
  induction data generalizing digits n with
  | nil => exact ⟨digits, rfl, h⟩
  | cons byte data ih =>
    have hbyte : byte.toUInt32.toNat = byte.toNat := UInt8.toNat_toUInt32 byte
    have hlt : byte.toUInt32.toNat < 256 := by
      rw [hbyte]
      exact byte.toNat_lt
    obtain ⟨ds, htake, hds⟩ := take_digits converts_toBase58 h hlt
    rw [hbyte] at hds
    obtain ⟨ds', hrest, hds'⟩ := ih hds
    refine ⟨ds', ?_, hds'⟩
    simp only [encodeDigits, Option.bind_eq_bind, htake, Option.bind_some]
    exact hrest

end Conversion

/-! ## Letters -/

section Letters

variable {d : Nat} {ds : List Nat} {data : List UInt8} {s : String}

/-- The letter of a digit. -/
def letter (d : Nat) : UInt8 := b58Alphabet.getD d 0

/-- The text of some digits. -/
def text (ds : List Nat) : String := String.ofList ((ds.map letter).map asChar)

theorem map_ofNat_toNat (bs : List UInt8) : (bs.map (·.toNat)).map .ofNat = bs := by
  induction bs with
  | nil => rfl
  | cons b bs ih => rw [List.map_cons, List.map_cons, ih, UInt8.ofNat_toNat]

theorem map_toNat_ofNat (h : ∀ d ∈ ds, d < 256) : (ds.map UInt8.ofNat).map (·.toNat) = ds := by
  induction ds with
  | nil => rfl
  | cons d ds ih =>
    rw [List.map_cons, List.map_cons, ih fun d hmem => h d (List.mem_cons_of_mem _ hmem),
      UInt8.toNat_ofNat_of_lt' (h d List.mem_cons_self)]

theorem letter_spec (h : d < 58) : b58Alphabet[d]? = some (letter d) ∧
    b58Alphabet.findIdx? (· == letter d) = some d ∧ (letter d).toNat < 128 ∧
    b58Text.toList[d]? = some (asChar (letter d)) := by
  have hall : ∀ d < 58, b58Alphabet[d]? = some (letter d) ∧ b58Alphabet.findIdx? (· == letter d) = some d ∧
    (letter d).toNat < 128 ∧ b58Text.toList[d]? = some (asChar (letter d)) := by decide +kernel
  exact hall d h

/-- The letter of zero is `1`, and of no other digit. -/
theorem letter_eq_one (h : d < 58) : (letter d == '1'.toUInt8) = (d == 0) := by
  have hall : ∀ d < 58, (letter d == '1'.toUInt8) = (d == 0) := by decide +kernel
  exact hall d h

theorem utf8_text (h : ∀ d ∈ ds, d < 58) : utf8 (text ds) = ds.map letter := by
  refine utf8_ofList_asChar fun b hb => ?_
  obtain ⟨d, hd, rfl⟩ := List.mem_map.1 hb
  exact (letter_spec (h d hd)).2.2.1

theorem takeWhile_letters (h : ∀ d ∈ ds, d < 58) :
    ((ds.map letter).takeWhile (· == '1'.toUInt8)).length = (ds.takeWhile (· == 0)).length := by
  induction ds with
  | nil => rfl
  | cons d ds ih =>
    have hrest := ih fun d hmem => h d (List.mem_cons_of_mem _ hmem)
    rw [List.map_cons, List.takeWhile_cons, List.takeWhile_cons, letter_eq_one (h d List.mem_cons_self)]
    split
    · rw [List.length_cons, List.length_cons, hrest]
    · rfl

theorem mapM_letters (h : ∀ d ∈ ds, d < 58) {bs : List UInt8} (hbs : bs.map (·.toNat) = ds) :
    bs.mapM (fun d => b58Alphabet[d.toNat]?) = some (ds.map letter) := by
  subst hbs
  induction bs with
  | nil => rfl
  | cons b bs ih =>
    have hb := (letter_spec (h b.toNat (by simp))).1
    have hrest := ih fun d hmem => h d (by rw [List.map_cons]; exact List.mem_cons_of_mem _ hmem)
    rw [List.mapM_cons, hb, hrest]
    rfl

/-- Encoding is the other base, in letters. -/
theorem bs58Encode_eq (data : List UInt8) :
    bs58Encode data = some (text (recode 58 256 (data.map (·.toNat)))) := by
  unfold bs58Encode
  by_cases hnil : data = []
  · rw [if_pos hnil, hnil]
    rfl
  · rw [if_neg hnil]
    have hzero : ([] : List UInt8).map (·.toNat) = Nat.digits 58 0 := (Nat.digits_zero 58).symm
    obtain ⟨ds, hdigits, hds⟩ := encodeDigits_eq data hzero
    have hvalue : ds.map (·.toNat) = Nat.digits 58 (value 256 (data.map (·.toNat))) := hds
    have hlt : ∀ d ∈ (ds.map (·.toNat)).reverse, d < 58 := by
      intro d hd
      rw [hvalue] at hd
      exact Nat.digits_lt_base (by decide) (List.mem_reverse.1 hd)
    have hletters := mapM_letters hlt (show ds.reverse.map (·.toNat) = _ from List.map_reverse)
    have hzeros : (data.takeWhile (· == 0)).length = ((data.map (·.toNat)).takeWhile (· == 0)).length := by
      rw [List.takeWhile_map, List.length_map]
      congr 2
      funext b
      rw [Function.comp_apply, Bool.eq_iff_iff, beq_iff_eq, beq_iff_eq, ← UInt8.toNat_inj]
      rfl
    have hone : asChar (letter 0) = '1' := by decide +kernel
    simp only [Option.bind_eq_bind, hdigits, Option.bind_some, hletters, hzeros]
    unfold text recode
    rw [← hvalue, List.map_append, List.map_append, List.map_replicate, List.map_replicate, hone]
    rfl

theorem decodeBytes_eq {bytes : List UInt8} {n : Nat} (h : bytes.map (·.toNat) = Nat.digits 256 n)
    (hds : ∀ d ∈ ds, d < 58) :
    ∃ bs, decodeBytes bytes (ds.map letter) = some (.ok bs) ∧
      bs.map (·.toNat) = Nat.digits 256 (ds.foldl (fun n d => 58 * n + d) n) := by
  induction ds generalizing bytes n with
  | nil => exact ⟨bytes, rfl, h⟩
  | cons d ds ih =>
    have hd := hds d List.mem_cons_self
    have hval : (UInt32.ofNat d).toNat = d :=
      UInt32.toNat_ofNat_of_lt' (Nat.lt_trans hd (by decide))
    have hlt : (UInt32.ofNat d).toNat < 58 := by
      rw [hval]
      exact hd
    obtain ⟨bs, htake, hbs⟩ := take_digits converts_toBytes h hlt
    rw [hval] at hbs
    obtain ⟨bs', hrest, hbs'⟩ := ih hbs fun d hmem => hds d (List.mem_cons_of_mem _ hmem)
    refine ⟨bs', ?_, hbs'⟩
    rw [List.map_cons, decodeBytes, (letter_spec hd).2.1]
    simp only [Option.bind_eq_bind, htake, Option.bind_some]
    exact hrest

/-- Decoding is the other base, in bytes. -/
theorem bs58Decode_eq (h : ∀ d ∈ ds, d < 58) :
    bs58Decode (text ds) = some (.ok ((recode 256 58 ds).map .ofNat)) := by
  unfold bs58Decode
  by_cases hnil : ds = []
  · subst hnil
    rfl
  · have hne : text ds ≠ "" := by
      intro hempty
      have hutf8 := utf8_text h
      rw [hempty] at hutf8
      exact hnil (List.map_eq_nil_iff.1 hutf8.symm)
    have hzero : ([] : List UInt8).map (·.toNat) = Nat.digits 256 0 := (Nat.digits_zero 256).symm
    obtain ⟨bs, hbytes, hbs⟩ := decodeBytes_eq hzero h
    have hback : bs.reverse = (Nat.digits 256 (value 58 ds)).reverse.map .ofNat := by
      show bs.reverse = (Nat.digits 256 (ds.foldl (fun n d => 58 * n + d) 0)).reverse.map .ofNat
      rw [← hbs, ← List.map_reverse, map_ofNat_toNat]
    rw [if_neg hne, utf8_text h, takeWhile_letters h]
    simp only [Option.bind_eq_bind, hbytes, Option.bind_some]
    show some (Except.ok (_ ++ bs.reverse)) = _
    unfold recode
    rw [hback, List.map_append, List.map_replicate]
    rfl

/-- The texts over the alphabet. -/
theorem exists_text (h : ∀ c ∈ s.toList, c ∈ b58Text.toList) : ∃ ds, (∀ d ∈ ds, d < 58) ∧ s = text ds := by
  have hlen : b58Text.toList.length = 58 := by decide +kernel
  have hletter : ∀ c ∈ b58Text.toList, ∃ d < 58, asChar (letter d) = c := by
    intro c hc
    obtain ⟨d, hd, rfl⟩ := List.getElem_of_mem hc
    have hd' := hlen ▸ hd
    have hget := (letter_spec hd').2.2.2
    rw [List.getElem?_eq_getElem hd] at hget
    exact ⟨d, hd', (Option.some.inj hget).symm⟩
  have hlist : ∃ ds : List Nat, (∀ d ∈ ds, d < 58) ∧ s.toList = (ds.map letter).map asChar := by
    generalize s.toList = cs at h
    induction cs with
    | nil => exact ⟨[], nofun, rfl⟩
    | cons c cs ih =>
      obtain ⟨ds, hds, hcs⟩ := ih fun c hmem => h c (List.mem_cons_of_mem _ hmem)
      obtain ⟨d, hd, hc⟩ := hletter c (h c List.mem_cons_self)
      refine ⟨d :: ds, List.forall_mem_cons.2 ⟨hd, hds⟩, ?_⟩
      rw [List.map_cons, List.map_cons, hc, hcs]
  obtain ⟨ds, hds, hcs⟩ := hlist
  refine ⟨ds, hds, ?_⟩
  rw [text, ← hcs, String.ofList_toList]

/-- A byte outside the alphabet is found before any other error. -/
theorem decodeBytes_error {bytes input : List UInt8} {ch : UInt8} (hch : ch ∈ input) (hout : ch ∉ b58Alphabet)
    {n : Nat} (h : bytes.map (·.toNat) = Nat.digits 256 n) :
    ∃ e, decodeBytes bytes input = some (.error e) := by
  induction input generalizing bytes n with
  | nil => cases hch
  | cons b input ih =>
    rw [decodeBytes]
    cases hval : b58Alphabet.findIdx? (· == b) with
    | none => exact ⟨_, rfl⟩
    | some val =>
      obtain ⟨hlt, hb, -⟩ := List.findIdx?_eq_some_iff_getElem.1 hval
      have hlen : b58Alphabet.length = 58 := by decide +kernel
      have htoNat : (UInt32.ofNat val).toNat = val :=
        UInt32.toNat_ofNat_of_lt' (Nat.lt_trans (hlen ▸ hlt) (by decide))
      have hdigit : (UInt32.ofNat val).toNat < 58 := by
        rw [htoNat]
        exact hlen ▸ hlt
      obtain ⟨bs, htake, hbs⟩ := take_digits converts_toBytes h hdigit
      have hmem : ch ∈ input := by
        rcases List.mem_cons.1 hch with rfl | hmem
        · have hin := List.getElem_mem hlt
          rw [eq_of_beq hb] at hin
          exact absurd hin hout
        · exact hmem
      obtain ⟨e, he⟩ := ih hmem hbs
      refine ⟨e, ?_⟩
      simp only [Option.bind_eq_bind, htake, Option.bind_some]
      exact he

/-- A character outside the alphabet has a byte outside of it. -/
theorem exists_byte {c : Char} (hc : c ∈ s.toList) (hout : c ∉ b58Text.toList) :
    ∃ b ∈ utf8 s, b ∉ b58Alphabet := by
  have hmem : ∀ b ∈ String.utf8EncodeChar c, b ∈ utf8 s := fun b hb => List.mem_flatMap.2 ⟨c, hc, hb⟩
  have hascii : ∀ b ∈ b58Alphabet, b.toNat < 128 ∧ asChar b ∈ b58Text.toList := by decide +kernel
  rcases Nat.lt_or_ge c.toNat 128 with hlt | hge
  · have hchar : asChar (.ofNat c.toNat) = c := by
      have h256 : c.toNat % 256 = c.toNat := by omega
      rw [asChar, UInt8.toNat_ofNat', h256, Char.ofNat_toNat]
    refine ⟨.ofNat c.toNat, hmem _ (by rw [utf8EncodeChar_ascii hlt]; exact List.mem_cons_self), ?_⟩
    intro hin
    have hchar' := (hascii _ hin).2
    rw [hchar] at hchar'
    exact hout hchar'
  · obtain ⟨b, hb⟩ := List.exists_mem_of_ne_nil _ (String.utf8EncodeChar_ne_nil (c := c))
    refine ⟨b, hmem b hb, ?_⟩
    intro hin
    have hbig := le_of_mem_utf8EncodeChar hge hb
    have hsmall := (hascii b hin).1
    omega

theorem bs58Decode_error {c : Char} (hc : c ∈ s.toList) (hout : c ∉ b58Text.toList) :
    ∃ e, bs58Decode s = some (.error e) := by
  obtain ⟨b, hb, hnot⟩ := exists_byte hc hout
  have hzero : ([] : List UInt8).map (·.toNat) = Nat.digits 256 0 := (Nat.digits_zero 256).symm
  obtain ⟨e, he⟩ := decodeBytes_error hb hnot hzero
  have hne : s ≠ "" := by
    rintro rfl
    cases hc
  refine ⟨e, ?_⟩
  unfold bs58Decode
  rw [if_neg hne]
  simp only [Option.bind_eq_bind, he, Option.bind_some]
  rfl

/-- Bytes come back from their text and a text over the alphabet from its bytes, a text is an error just if a
character of it is outside the alphabet, and no carry overflows. -/
theorem base58_roundTrip :
    (∀ b, ∃ s, bs58Encode b = some s ∧ bs58Decode s = some (.ok b)) ∧
    (∀ s : String, (∀ c ∈ s.toList, c ∈ b58Text.toList) →
      ∃ b, bs58Decode s = some (.ok b) ∧ bs58Encode b = some s) ∧
    ∀ s : String, ∃ r, bs58Decode s = some r ∧
      ((∃ e, r = .error e) ↔ ∃ c ∈ s.toList, c ∉ b58Text.toList) := by
  refine ⟨?_, ?_, ?_⟩
  · intro b
    have hb : ∀ d ∈ b.map (·.toNat), d < 256 := by
      intro d hd
      obtain ⟨x, -, rfl⟩ := List.mem_map.1 hd
      exact x.toNat_lt
    refine ⟨_, bs58Encode_eq b, ?_⟩
    rw [bs58Decode_eq fun d hd => recode_lt (by decide) hd, recode_recode (by decide) hb, map_ofNat_toNat]
  · intro s hs
    obtain ⟨ds, hds, rfl⟩ := exists_text hs
    refine ⟨_, bs58Decode_eq hds, ?_⟩
    rw [bs58Encode_eq, map_toNat_ofNat fun d hd => recode_lt (by decide) hd, recode_recode (by decide) hds]
  · intro s
    by_cases hs : ∀ c ∈ s.toList, c ∈ b58Text.toList
    · obtain ⟨ds, hds, rfl⟩ := exists_text hs
      refine ⟨_, bs58Decode_eq hds, iff_of_false nofun ?_⟩
      rintro ⟨c, hc, hout⟩
      exact hout (hs c hc)
    · push Not at hs
      obtain ⟨c, hc, hout⟩ := hs
      obtain ⟨e, he⟩ := bs58Decode_error hc hout
      exact ⟨_, he, iff_of_true ⟨e, rfl⟩ ⟨c, hc, hout⟩⟩

end Letters

example : bs58Encode [72, 101, 108, 108, 111] = some "9Ajdvzr" := by decide +kernel

end IntentX.SolanaSigning
