import Mathlib.Tactic.Ring

/-!
# Texts: fields between separators, decimal and hexadecimal numbers, UTF-8

`splitn` cuts a text at a separator into at most so many fields, the last one holding whatever is
left.  `parseUnsigned bits` reads a decimal number of that width, with an optional `+`.  Both are
stated on lists of characters.

A text built from fields without the separator splits into these fields (`splitn_append`), and a
printed number reads back (`parseUnsigned_toDigits`).
-/

namespace Lib.Text

/-! ## Fields -/

/-- At most `n` fields of the text, the last one with the separators that are left in it. -/
def splitn (sep : Char) : Nat → List Char → List (List Char)
  | 0, _ => []
  | 1, s => [s]
  | n + 2, s =>
    match s.dropWhile (· != sep) with
    | [] => [s]
    | _ :: rest => s.takeWhile (· != sep) :: splitn sep (n + 1) rest

section Fields

variable {sep : Char} {n : Nat} {a b : List Char}

theorem all_ne_of_notMem (h : sep ∉ a) : ∀ c ∈ a, (c != sep) = true := by
  intro c hc
  rw [bne_iff_ne]
  rintro rfl
  exact h hc

/-- A field without the separator comes off the front. -/
theorem splitn_append (h : sep ∉ a) :
    splitn sep (n + 2) (a ++ sep :: b) = a :: splitn sep (n + 1) b := by
  have hstop : (sep != sep) = false := bne_self_eq_false sep
  have hdrop : (a ++ sep :: b).dropWhile (· != sep) = sep :: b := by
    rw [List.dropWhile_append_of_pos (all_ne_of_notMem h), List.dropWhile_cons, hstop]
    rfl
  have htake : (a ++ sep :: b).takeWhile (· != sep) = a := by
    rw [List.takeWhile_append_of_pos (all_ne_of_notMem h), List.takeWhile_cons, hstop]
    exact List.append_nil a
  rw [splitn, hdrop, htake]

/-- The first field begins as the text does. -/
theorem splitn_cons {c : Char} {s : List Char} (h : c ≠ sep) :
    ∃ w fields, splitn sep (n + 1) (c :: s) = (c :: w) :: fields := by
  cases n with
  | zero => exact ⟨s, [], rfl⟩
  | succ n =>
    have hgo : (c != sep) = true := by rw [bne_iff_ne]; exact h
    rw [splitn]
    cases (c :: s).dropWhile (· != sep) with
    | nil => exact ⟨s, [], rfl⟩
    | cons _ rest =>
      refine ⟨s.takeWhile (· != sep), splitn sep (n + 1) rest, ?_⟩
      rw [List.takeWhile_cons, hgo]
      rfl

end Fields

section Cuts

variable {α : Type} {sep : α} {a b p q z : List α}

/-- Two cuts at a separator are the same, or one of them is behind the other. -/
theorem cut_eq (h : p ++ sep :: q = a ++ sep :: z) : (p = a ∧ q = z) ∨
    (∃ m, p = a ++ sep :: m ∧ z = m ++ sep :: q) ∨ ∃ m, a = p ++ sep :: m ∧ q = m ++ sep :: z := by
  rcases List.append_eq_append_iff.1 h with ⟨m, rfl, hm⟩ | ⟨m, rfl, hm⟩
  · cases m with
    | nil => exact .inl ⟨(List.append_nil p).symm, (List.cons.inj hm).2⟩
    | cons x m =>
      obtain ⟨rfl, hq⟩ := List.cons.inj hm
      exact .inr (.inr ⟨m, rfl, hq⟩)
  · cases m with
    | nil => exact .inl ⟨List.append_nil a, (List.cons.inj hm).2.symm⟩
    | cons x m =>
      obtain ⟨rfl, hz⟩ := List.cons.inj hm
      exact .inr (.inl ⟨m, rfl, hz⟩)

/-- A cut is at the first separator, or behind it. -/
theorem cut_of_notMem (ha : sep ∉ a) (h : p ++ sep :: q = a ++ sep :: z) :
    (p = a ∧ q = z) ∨ ∃ m, p = a ++ sep :: m ∧ z = m ++ sep :: q := by
  rcases cut_eq h with hsame | hbehind | ⟨m, rfl, -⟩
  · exact .inl hsame
  · exact .inr hbehind
  · exact absurd (List.mem_append_right p List.mem_cons_self) ha

end Cuts

/-! ## Decimal numbers -/

/-- The text without a leading `+`. -/
def dropPlus : List Char → List Char
  | '+' :: ds => ds
  | ds => ds

/-- A decimal number of the given width: at least one digit, nothing but digits, and in range. -/
def parseUnsigned (bits : Nat) (s : List Char) : Option Nat :=
  let ds := dropPlus s
  if ds ≠ [] ∧ ds.all Char.isDigit ∧ Nat.ofDigitChars 10 ds 0 < 2 ^ bits then
    some (Nat.ofDigitChars 10 ds 0)
  else none

/-- A signed decimal number of the given width: a `-` stands before at least one digit. -/
def parseSigned (bits : Nat) : List Char → Option Int
  | '-' :: ds =>
    if ds ≠ [] ∧ ds.all Char.isDigit ∧ Nat.ofDigitChars 10 ds 0 ≤ 2 ^ (bits - 1) then
      some (-(Nat.ofDigitChars 10 ds 0 : Int))
    else none
  | ds => (parseUnsigned (bits - 1) ds).map Int.ofNat

section Decimal

variable {bits n : Nat} {c : Char} {s : List Char}

theorem parseUnsigned_lt (h : parseUnsigned bits s = some n) : n < 2 ^ bits := by
  unfold parseUnsigned at h
  by_cases hc : dropPlus s ≠ [] ∧ (dropPlus s).all Char.isDigit ∧
      Nat.ofDigitChars 10 (dropPlus s) 0 < 2 ^ bits
  · rw [if_pos hc] at h
    exact Option.some.inj h ▸ hc.2.2
  · rw [if_neg hc] at h
    exact nomatch h

theorem parseSigned_lt {x : Int} (h : parseSigned bits s = some x) : x < 2 ^ (bits - 1) := by
  unfold parseSigned at h
  split at h
  · split at h
    · obtain rfl := Option.some.inj h
      have hpos : (0 : Int) < 2 ^ (bits - 1) := Int.pow_pos (by decide)
      omega
    · exact nomatch h
  · obtain ⟨n, hn, rfl⟩ := Option.map_eq_some_iff.1 h
    have hlt := parseUnsigned_lt hn
    show (n : Int) < 2 ^ (bits - 1)
    exact_mod_cast hlt

theorem dropPlus_cons (h : c ≠ '+') : dropPlus (c :: s) = c :: s := by
  unfold dropPlus
  split
  · next heq => exact absurd (List.cons.inj heq).1 h
  · rfl

theorem dropPlus_of_notMem (h : '+' ∉ s) : dropPlus s = s := by
  cases s with
  | nil => rfl
  | cons c s => exact dropPlus_cons fun hc => h (hc ▸ List.mem_cons_self)

theorem notMem_toDigits (hc : c.isDigit = false) : c ∉ Nat.toDigits 10 n := by
  intro hmem
  rw [Nat.isDigit_of_mem_toDigits (by decide) (by decide) hmem] at hc
  cases hc

theorem parseUnsigned_toDigits (h : n < 2 ^ bits) :
    parseUnsigned bits (Nat.toDigits 10 n) = some n := by
  have hdigits : ∀ d ∈ Nat.toDigits 10 n, d.isDigit = true := fun d hd =>
    Nat.isDigit_of_mem_toDigits (by decide) (by decide) hd
  unfold parseUnsigned
  rw [dropPlus_of_notMem (notMem_toDigits (by decide))]
  simp only [Nat.ofDigitChars_ten_toDigits]
  exact if_pos ⟨Nat.toDigits_ne_nil, List.all_eq_true.2 hdigits, h⟩

/-- A printed signed number reads back. -/
theorem parseSigned_toString {x : Int} (hlo : -2 ^ (bits - 1) ≤ x) (hhi : x < 2 ^ (bits - 1)) :
    parseSigned bits (toString x).toList = some x := by
  cases x with
  | ofNat m =>
    have hm : (toString (Int.ofNat m)).toList = Nat.toDigits 10 m := by
      simp [toString, Int.repr]
    rw [hm, parseSigned]
    · have hlt : m < 2 ^ (bits - 1) := by
        have hcast : (m : Int) < 2 ^ (bits - 1) := hhi
        exact_mod_cast hcast
      rw [parseUnsigned_toDigits hlt]
      rfl
    · intro ds hds
      have hmem : '-' ∈ Nat.toDigits 10 m := hds ▸ List.mem_cons_self
      exact notMem_toDigits (by decide) hmem
  | negSucc m =>
    have hm : (toString (Int.negSucc m)).toList = '-' :: Nat.toDigits 10 (m + 1) := by
      simp [toString, Int.repr]
    have hle : m + 1 ≤ 2 ^ (bits - 1) := by
      have hcast : ((m + 1 : Nat) : Int) ≤ ((2 ^ (bits - 1) : Nat) : Int) := by
        rw [Int.negSucc_eq] at hlo
        push_cast
        omega
      exact_mod_cast hcast
    have hall : (Nat.toDigits 10 (m + 1)).all Char.isDigit := List.all_eq_true.2 fun d hd =>
      Nat.isDigit_of_mem_toDigits (by decide) (by decide) hd
    rw [hm, parseSigned, Nat.ofDigitChars_ten_toDigits, if_pos ⟨Nat.toDigits_ne_nil, hall, hle⟩]
    rfl

theorem mem_toString {x : Int} (hc : c ∈ (toString x).toList) : c.isDigit = true ∨ c = '-' := by
  cases x with
  | ofNat m =>
    have hm : (toString (Int.ofNat m)).toList = Nat.toDigits 10 m := by
      simp [toString, Int.repr]
    rw [hm] at hc
    exact .inl (Nat.isDigit_of_mem_toDigits (by decide) (by decide) hc)
  | negSucc m =>
    have hm : (toString (Int.negSucc m)).toList = '-' :: Nat.toDigits 10 (m + 1) := by
      simp [toString, Int.repr]
    rw [hm] at hc
    rcases List.mem_cons.1 hc with rfl | hc
    · exact .inr rfl
    · exact .inl (Nat.isDigit_of_mem_toDigits (by decide) (by decide) hc)

/-- A text that begins with something else is no number. -/
theorem parseUnsigned_cons (hc : c.isDigit = false) (hplus : c ≠ '+') :
    parseUnsigned bits (c :: s) = none := by
  unfold parseUnsigned
  rw [dropPlus_cons hplus]
  refine if_neg ?_
  rintro ⟨-, hall, -⟩
  rw [List.all_cons, hc] at hall
  cases hall

end Decimal

/-! ## Hexadecimal numbers -/

def hexValue (c : Char) : Option Nat :=
  if '0' ≤ c ∧ c ≤ '9' then some (c.toNat - '0'.toNat)
  else if 'a' ≤ c ∧ c ≤ 'f' then some (c.toNat - 'a'.toNat + 10)
  else if 'A' ≤ c ∧ c ≤ 'F' then some (c.toNat - 'A'.toNat + 10)
  else none

/-- Two digits a byte; a lone digit or another character is an error. -/
def hexDecode : List Char → Option (List UInt8)
  | [] => some []
  | [_] => none
  | hi :: lo :: cs => do
    let h ← hexValue hi
    let l ← hexValue lo
    let bytes ← hexDecode cs
    return .ofNat (16 * h + l) :: bytes

/-- Two lower-case digits a byte. -/
def hexEncode (bytes : List UInt8) : List Char :=
  bytes.flatMap fun b => [Nat.digitChar (b.toNat / 16), Nat.digitChar (b.toNat % 16)]

/-- The number whose bytes these are, the most significant one first. -/
def fromBeBytes (bytes : List UInt8) : Nat :=
  bytes.foldl (fun n b => 256 * n + b.toNat) 0

/-- The last `width` bytes of a number, the most significant one first. -/
def toBeBytes (width n : Nat) : List UInt8 :=
  (List.range width).map fun i => .ofNat (n / 256 ^ (width - 1 - i))

/-- The number in hexadecimal, padded with zeros to `width`. -/
def hexPadded (width n : Nat) : List Char :=
  let ds := Nat.toDigits 16 n
  List.replicate (width - ds.length) '0' ++ ds

/-- Why a text is no number. -/
inductive NumberError where
  | empty | invalidDigit | overflow
  deriving DecidableEq, Repr

/-- The digits that are left, after a number read so far. -/
def hexDigits (bits : Nat) : Nat → List Char → Except NumberError Nat
  | n, [] => .ok n
  | n, c :: s =>
    match hexValue c with
    | none => .error .invalidDigit
    | some d => if 16 * n + d < 2 ^ bits then hexDigits bits (16 * n + d) s else .error .overflow

/-- A hexadecimal number of the given width, with an optional `+`. -/
def parseHex (bits : Nat) : List Char → Except NumberError Nat
  | [] => .error .empty
  | ['+'] => .error .invalidDigit
  | s => hexDigits bits 0 (dropPlus s)

section Hex

variable {bits n d : Nat}

theorem hexValue_digitChar (h : d < 16) : hexValue (Nat.digitChar d) = some d := by
  have hall : ∀ d < 16, hexValue (Nat.digitChar d) = some d := by decide
  exact hall d h

/-- One more digit is read if it is one and the number still fits. -/
theorem hexDigits_cons_iff {m : Nat} {c : Char} {s : List Char} : hexDigits bits n (c :: s) = .ok m ↔
    ∃ d, hexValue c = some d ∧ 16 * n + d < 2 ^ bits ∧ hexDigits bits (16 * n + d) s = .ok m := by
  rw [hexDigits]
  cases hexValue c with
  | none => simp
  | some d =>
    by_cases hlt : 16 * n + d < 2 ^ bits
    · simp [hlt]
    · simp [hlt]

theorem hexDigits_append {m : Nat} {s t : List Char} (h : hexDigits bits n s = .ok m) :
    hexDigits bits n (s ++ t) = hexDigits bits m t := by
  induction s generalizing n with
  | nil =>
    obtain rfl : n = m := Except.ok.inj h
    rfl
  | cons c s ih =>
    obtain ⟨d, hc, hlt, hrest⟩ := hexDigits_cons_iff.1 h
    rw [List.cons_append, hexDigits, hc]
    dsimp only
    rw [if_pos hlt, ih hrest]

theorem hexDigits_lt {m : Nat} {s : List Char} (hn : n < 2 ^ bits) (h : hexDigits bits n s = .ok m) :
    m < 2 ^ bits := by
  induction s generalizing n with
  | nil => exact Except.ok.inj h ▸ hn
  | cons c s ih =>
    obtain ⟨d, -, hlt, hrest⟩ := hexDigits_cons_iff.1 h
    exact ih hlt hrest

theorem parseHex_lt {m : Nat} {s : List Char} (h : parseHex bits s = .ok m) : m < 2 ^ bits := by
  unfold parseHex at h
  split at h
  · cases h
  · cases h
  · exact hexDigits_lt (Nat.two_pow_pos bits) h

theorem hexDigits_toDigits (h : n < 2 ^ bits) : hexDigits bits 0 (Nat.toDigits 16 n) = .ok n := by
  induction n using Nat.strongRecOn with
  | ind n ih =>
    rcases Nat.lt_or_ge n 16 with hn | hn
    · rw [Nat.toDigits_of_lt_base hn]
      simp only [hexDigits, hexValue_digitChar hn, Nat.mul_zero, Nat.zero_add]
      exact if_pos h
    · rw [Nat.toDigits_of_base_le (by decide) hn, hexDigits_append (ih (n / 16) (by omega) (by omega))]
      simp only [hexDigits, hexValue_digitChar (Nat.mod_lt n (by decide)), Nat.div_add_mod]
      exact if_pos h

/-- What is read as a number of one width is read so as a number of a larger one. -/
theorem hexDigits_mono {bits' m : Nat} {s : List Char} (hle : bits ≤ bits')
    (h : hexDigits bits n s = .ok m) : hexDigits bits' n s = .ok m := by
  induction s generalizing n with
  | nil => exact h
  | cons c s ih =>
    obtain ⟨d, hc, hlt, hrest⟩ := hexDigits_cons_iff.1 h
    have hpow : 2 ^ bits ≤ 2 ^ bits' := Nat.pow_le_pow_right (by decide) hle
    exact hexDigits_cons_iff.2 ⟨d, hc, Nat.lt_of_lt_of_le hlt hpow, ih hrest⟩

/-- The digits of a number are hexadecimal digits. -/
theorem hexValue_toDigits : ∀ c ∈ Nat.toDigits 16 n, hexValue c ≠ none := by
  have hall : ∀ d < 16, hexValue (Nat.digitChar d) ≠ none := by
    intro d hd
    rw [hexValue_digitChar hd]
    exact Option.some_ne_none d
  induction n using Nat.strongRecOn with
  | ind n ih =>
    intro c hc
    rcases Nat.lt_or_ge n 16 with hn | hn
    · rw [Nat.toDigits_of_lt_base hn, List.mem_singleton] at hc
      exact hc ▸ hall n hn
    · rw [Nat.toDigits_of_base_le (by decide) hn, List.mem_append, List.mem_singleton] at hc
      rcases hc with hc | rfl
      · exact ih (n / 16) (by omega) c hc
      · exact hall _ (Nat.mod_lt n (by decide))

theorem notMem_toDigits_hex {c : Char} (hc : hexValue c = none) : c ∉ Nat.toDigits 16 n :=
  fun hmem => hexValue_toDigits c hmem hc

/-- From the digits of a number, nothing but the number is read. -/
theorem parseHex_toDigits_ok {m : Nat} (h : parseHex bits (Nat.toDigits 16 n) = .ok m) : m = n := by
  have hplus : '+' ∉ Nat.toDigits 16 n := notMem_toDigits_hex (by decide)
  have hread : hexDigits bits 0 (Nat.toDigits 16 n) = .ok m := by
    unfold parseHex at h
    split at h
    · cases h
    · cases h
    · rwa [dropPlus_of_notMem hplus] at h
  have hwide := hexDigits_mono (Nat.le_add_right bits n) hread
  rw [hexDigits_toDigits] at hwide
  · exact (Except.ok.inj hwide).symm
  · calc n < 2 ^ n := Nat.lt_two_pow_self
      _ ≤ 2 ^ (bits + n) := Nat.pow_le_pow_right (by decide) (Nat.le_add_left n bits)

end Hex

/-! ## The bytes of a text -/

/-- `str::bytes`. -/
def utf8 (s : String) : List UInt8 := s.toList.flatMap String.utf8EncodeChar

/-- `b as char` -/
def asChar (b : UInt8) : Char := Char.ofNat b.toNat

section Utf8

variable {c : Char} {b : UInt8} {s t : String}

theorem toList_loop (bs : ByteArray) (i : Nat) (r : List UInt8) :
    ByteArray.toList.loop bs i r = r.reverse ++ bs.data.toList.drop i := by
  induction hn : bs.size - i generalizing i r with
  | zero =>
    unfold ByteArray.toList.loop
    have hle : bs.data.toList.length ≤ i := by
      show bs.size ≤ i
      omega
    rw [if_neg (by omega), List.drop_eq_nil_of_le hle, List.append_nil]
  | succ n ih =>
    unfold ByteArray.toList.loop
    have hlt : i < bs.data.toList.length := by
      show i < bs.size
      omega
    have hget : bs.get! i = bs.data.toList[i] := by
      show bs.data[i]! = _
      rw [getElem!_pos bs.data i hlt]
      rfl
    rw [if_pos (by omega), ih (i + 1) _ (by omega), List.drop_eq_getElem_cons hlt, hget, List.reverse_cons,
      List.append_assoc]
    rfl

/-- `str::as_bytes` -/
theorem toUTF8_toList (s : String) : s.toUTF8.toList = utf8 s := by
  rw [ByteArray.toList, toList_loop, String.toUTF8_eq_toByteArray, ← String.utf8Encode_toList]
  show (List.flatMap _ _).toByteArray.data.toList = _
  rw [List.data_toByteArray]
  rfl

theorem toNat_asChar (b : UInt8) : (asChar b).toNat = b.toNat := by
  have h : ∀ n : Fin 256, (Char.ofNat n).toNat = n := by decide +kernel
  exact h ⟨b.toNat, b.toNat_lt⟩

theorem utf8EncodeChar_ascii (h : c.toNat < 128) : String.utf8EncodeChar c = [.ofNat c.toNat] := by
  have hle : c.val.toNat ≤ 0x7f := Nat.le_of_lt_succ h
  simp only [String.utf8EncodeChar, if_pos hle]
  rfl

/-- Past ASCII no byte looks like ASCII. -/
theorem le_of_mem_utf8EncodeChar (h : 128 ≤ c.toNat) (hb : b ∈ String.utf8EncodeChar c) : 128 ≤ b.toNat := by
  have hgt : ¬ c.val.toNat ≤ 0x7f := Nat.not_le_of_lt h
  simp only [String.utf8EncodeChar, if_neg hgt] at hb
  split_ifs at hb <;> simp only [List.mem_cons, List.not_mem_nil, or_false] at hb <;>
    rcases hb with rfl | rfl | rfl | rfl <;> rw [UInt8.toNat_ofNat'] <;> omega

theorem utf8_append (s t : String) : utf8 (s ++ t) = utf8 s ++ utf8 t := by
  simp [utf8]

/-- A text of ASCII characters has one byte for each of them. -/
theorem utf8_ofList_asChar {bs : List UInt8} (h : ∀ b ∈ bs, b.toNat < 128) :
    utf8 (String.ofList (bs.map asChar)) = bs := by
  unfold utf8
  rw [String.toList_ofList]
  induction bs with
  | nil => rfl
  | cons b bs ih =>
    have hb : (asChar b).toNat < 128 := by
      rw [toNat_asChar]
      exact h b List.mem_cons_self
    rw [List.map_cons, List.flatMap_cons, utf8EncodeChar_ascii hb, toNat_asChar, UInt8.ofNat_toNat,
      ih fun b hmem => h b (List.mem_cons_of_mem _ hmem)]
    rfl

theorem utf8_inj : utf8 s = utf8 t ↔ s = t := by
  constructor
  · intro h
    have hbytes : s.toByteArray = t.toByteArray := by
      rw [← String.utf8Encode_toList, ← String.utf8Encode_toList]
      exact congrArg List.toByteArray h
    exact String.toByteArray_inj.1 hbytes
  · rintro rfl
    rfl

/-! A text is cut at an ASCII character just where its bytes are cut at the byte of it. -/

variable {cs : List Char} {front rest : List UInt8} {sep : Char}

/-- Another character does not have the byte of an ASCII character. -/
theorem notMem_utf8EncodeChar {ch : Char} (hsep : sep.toNat < 128) (hne : ch ≠ sep) :
    UInt8.ofNat sep.toNat ∉ String.utf8EncodeChar ch := by
  have htoNat : (UInt8.ofNat sep.toNat).toNat = sep.toNat := by
    rw [UInt8.toNat_ofNat']
    omega
  intro hmem
  rcases Nat.lt_or_ge ch.toNat 128 with hlt | hge
  · rw [utf8EncodeChar_ascii hlt, List.mem_singleton] at hmem
    have heq := congrArg UInt8.toNat hmem
    rw [htoNat, UInt8.toNat_ofNat'] at heq
    apply hne
    apply Char.toNat_inj.1
    omega
  · have hbig := le_of_mem_utf8EncodeChar hge hmem
    omega

/-- The bytes of a text are cut at an ASCII character where the text is cut. -/
theorem utf8_cut (hsep : sep.toNat < 128)
    (h : cs.flatMap String.utf8EncodeChar = front ++ UInt8.ofNat sep.toNat :: rest) :
    ∃ cs₁ cs₂, cs = cs₁ ++ sep :: cs₂ ∧ cs₁.flatMap String.utf8EncodeChar = front ∧
      cs₂.flatMap String.utf8EncodeChar = rest := by
  induction cs generalizing front with
  | nil => simp at h
  | cons ch cs ih =>
    rw [List.flatMap_cons] at h
    by_cases hch : ch = sep
    · subst hch
      rw [utf8EncodeChar_ascii hsep] at h
      cases front with
      | nil => exact ⟨[], cs, rfl, rfl, (List.cons.inj h).2⟩
      | cons x front =>
        obtain ⟨hx, htail⟩ := List.cons.inj h
        obtain ⟨cs₁, cs₂, rfl, rfl, hc⟩ := ih htail
        refine ⟨ch :: cs₁, cs₂, rfl, ?_, hc⟩
        rw [List.flatMap_cons, utf8EncodeChar_ascii hsep, hx]
        rfl
    · have hnot := notMem_utf8EncodeChar hsep hch
      rcases List.append_eq_append_iff.1 h with ⟨x, rfl, hrest⟩ | ⟨x, hx, hrest⟩
      · obtain ⟨cs₁, cs₂, rfl, rfl, hc⟩ := ih hrest
        exact ⟨ch :: cs₁, cs₂, rfl, rfl, hc⟩
      · cases x with
        | nil =>
          obtain ⟨cs₁, cs₂, rfl, hb, hc⟩ := @ih [] hrest.symm
          refine ⟨ch :: cs₁, cs₂, rfl, ?_, hc⟩
          rw [List.flatMap_cons, hb, hx]
          simp
        | cons y x =>
          obtain ⟨rfl, -⟩ := List.cons.inj hrest
          exact absurd (hx ▸ List.mem_append_right front List.mem_cons_self) hnot
end Utf8

/-! ## UTF-8 -/

/-- The replacement character. -/
def replacement : Char := Char.ofNat 0xFFFD

/-- A character of which some bytes are read: how many are still to come, the bits so far, and the
range of the next byte. -/
structure Pending where
  need : Nat
  code : Nat
  lo : Nat
  hi : Nat

/-- The first byte of a character: it may be the whole of it, or no first byte at all. -/
def utf8Start (b : Nat) : List Char × Option Pending :=
  if b < 0x80 then ([Char.ofNat b], none)
  else if 0xC2 ≤ b ∧ b ≤ 0xDF then ([], some ⟨1, b - 0xC0, 0x80, 0xBF⟩)
  else if b = 0xE0 then ([], some ⟨2, 0, 0xA0, 0xBF⟩)
  else if b = 0xED then ([], some ⟨2, 0xD, 0x80, 0x9F⟩)
  else if 0xE1 ≤ b ∧ b ≤ 0xEF then ([], some ⟨2, b - 0xE0, 0x80, 0xBF⟩)
  else if b = 0xF0 then ([], some ⟨3, 0, 0x90, 0xBF⟩)
  else if 0xF1 ≤ b ∧ b ≤ 0xF3 then ([], some ⟨3, b - 0xF0, 0x80, 0xBF⟩)
  else if b = 0xF4 then ([], some ⟨3, 4, 0x80, 0x8F⟩)
  else ([replacement], none)

/-- `String::from_utf8_lossy`: what is no character is replaced, as much at a time as could have
begun one. -/
def fromUtf8Lossy : Option Pending → List UInt8 → List Char
  | none, [] => []
  | some _, [] => [replacement]
  | none, b :: bs => (utf8Start b.toNat).1 ++ fromUtf8Lossy (utf8Start b.toNat).2 bs
  | some p, b :: bs =>
    if p.lo ≤ b.toNat ∧ b.toNat ≤ p.hi then
      let code := 64 * p.code + (b.toNat - 0x80)
      if p.need = 1 then Char.ofNat code :: fromUtf8Lossy none bs
      else fromUtf8Lossy (some ⟨p.need - 1, code, 0x80, 0xBF⟩) bs
    else replacement :: (utf8Start b.toNat).1 ++ fromUtf8Lossy (utf8Start b.toNat).2 bs

example : fromUtf8Lossy none [0x68, 0xC3, 0xA9, 0xE2, 0x82, 0x21, 0xFF] =
    ['h', 'é', replacement, '!', replacement] := by decide +kernel

end Lib.Text
