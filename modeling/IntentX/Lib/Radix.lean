import Mathlib.Data.Nat.Digits.Lemmas
import Mathlib.Data.List.TakeWhile

/-!
# Numbers in another base

The number of a text of digits, the most significant one first, and the conversion between two bases
that keeps the digits so far in place, the least significant one first: each new digit multiplies them by
the old base and is added in (`mulAdd`).

What the conversion holds are the digits of the number read so far (`mulAdd_digits`), so there is no zero in
front, and the digits without the leading zeros come back from the number (`digits_value`).  With one zero
for each leading zero, `recode` is a text of digits in the other base, and can be undone (`recode_recode`).
-/

namespace Lib.Radix

/-- The number with these digits, the most significant one first. -/
def value (b : Nat) (ds : List Nat) : Nat := ds.foldl (fun n d => b * n + d) 0

/-- The number of `ds` in the base `b` instead of `m`, and the leading zeros of `ds`. -/
def recode (b m : Nat) (ds : List Nat) : List Nat :=
  List.replicate (ds.takeWhile (· == 0)).length 0 ++ (Nat.digits b (value m ds)).reverse

/-- `m` times the number with the digits `ds`, plus `carry`; the least significant digit comes first. -/
def mulAdd (b m : Nat) : (ds : List Nat) → (carry : Nat) → List Nat
  | [], carry => Nat.digits b carry
  | d :: ds, carry => (carry + m * d) % b :: mulAdd b m ds ((carry + m * d) / b)

section Value

variable {b d n : Nat} {ds : List Nat}

theorem value_eq_ofDigits (b : Nat) (ds : List Nat) : value b ds = Nat.ofDigits b ds.reverse := by
  induction ds using List.reverseRecOn with
  | nil => rfl
  | append_singleton ds d ih =>
    rw [List.reverse_append, List.reverse_singleton, List.singleton_append, Nat.ofDigits_cons, ← ih]
    unfold value
    rw [List.foldl_append]
    exact Nat.add_comm _ _

theorem value_zero_cons (b : Nat) (ds : List Nat) : value b (0 :: ds) = value b ds := rfl

theorem value_dropWhile (b : Nat) (ds : List Nat) : value b (ds.dropWhile (· == 0)) = value b ds := by
  induction ds with
  | nil => rfl
  | cons d ds ih =>
    rw [List.dropWhile_cons]
    split
    · next hd =>
      obtain rfl : d = 0 := by simpa using hd
      exact ih
    · rfl

theorem value_lt (hb : 1 < b) (h : ∀ d ∈ ds, d < b) : value b ds < b ^ ds.length := by
  rw [value_eq_ofDigits, ← List.length_reverse]
  exact Nat.ofDigits_lt_base_pow_length hb fun d hd => h d (List.mem_reverse.1 hd)

theorem pow_le_value (hd : 0 < d) : b ^ ds.length ≤ value b (d :: ds) := by
  rw [value_eq_ofDigits, List.reverse_cons, Nat.ofDigits_append, Nat.ofDigits_singleton, List.length_reverse]
  calc b ^ ds.length = b ^ ds.length * 1 := (Nat.mul_one _).symm
    _ ≤ b ^ ds.length * d := Nat.mul_le_mul_left _ hd
    _ ≤ _ := Nat.le_add_left _ _

theorem value_reverse_digits (b n : Nat) : value b (Nat.digits b n).reverse = n := by
  rw [value_eq_ofDigits, List.reverse_reverse, Nat.ofDigits_digits]

/-- The digits of the number are the ones it was read from, without the leading zeros. -/
theorem digits_value (hb : 1 < b) (h : ∀ d ∈ ds, d < b) :
    (Nat.digits b (value b ds)).reverse = ds.dropWhile (· == 0) := by
  rw [← value_dropWhile, value_eq_ofDigits, Nat.digits_ofDigits b hb, List.reverse_reverse]
  · intro d hd
    exact h d ((List.dropWhile_suffix _).subset (List.mem_reverse.1 hd))
  · intro hne
    rw [List.getLast_reverse]
    have hhead := List.head_dropWhile_not (· == 0) (List.reverse_ne_nil_iff.1 hne)
    simpa using hhead

/-- The digits of a number begin with no zero. -/
theorem takeWhile_reverse_digits (b n : Nat) : (Nat.digits b n).reverse.takeWhile (· == 0) = [] := by
  cases hds : (Nat.digits b n).reverse with
  | nil => rfl
  | cons d ds =>
    have hne : Nat.digits b n ≠ [] := by
      intro hnil
      rw [hnil] at hds
      cases hds
    have hlast := Nat.getLast_digit_ne_zero b (Nat.digits_ne_nil_iff_ne_zero.1 hne)
    have hd : d ≠ 0 := by
      rw [List.getLast_eq_head_reverse] at hlast
      simpa only [hds, List.head_cons] using hlast
    rw [List.takeWhile_cons_of_neg (by simpa using hd)]

theorem value_append (b : Nat) (ds es : List Nat) :
    value b (ds ++ es) = value b ds * b ^ es.length + value b es := by
  rw [value_eq_ofDigits, List.reverse_append, Nat.ofDigits_append, List.length_reverse, ← value_eq_ofDigits,
    ← value_eq_ofDigits, Nat.add_comm, Nat.mul_comm]

theorem value_concat (b : Nat) (ds : List Nat) (d : Nat) : value b (ds ++ [d]) = b * value b ds + d := by
  unfold value
  rw [List.foldl_append]
  rfl

/-- A text is determined by its number and its length. -/
theorem value_inj {es : List Nat} (hb : 1 < b) (hds : ∀ d ∈ ds, d < b) (hes : ∀ d ∈ es, d < b)
    (hlen : ds.length = es.length) (h : value b ds = value b es) : ds = es := by
  rw [value_eq_ofDigits, value_eq_ofDigits] at h
  have hrev := Nat.ofDigits_inj_of_len_eq hb (by rw [List.length_reverse, List.length_reverse, hlen])
    (fun d hd => hds d (List.mem_reverse.1 hd)) (fun d hd => hes d (List.mem_reverse.1 hd)) h
  exact List.reverse_injective hrev

theorem value_replicate_zero_append (b k : Nat) (ds : List Nat) :
    value b (List.replicate k 0 ++ ds) = value b ds := by
  induction k with
  | zero => rfl
  | succ k ih =>
    rw [List.replicate_succ, List.cons_append, value_zero_cons]
    exact ih

theorem takeWhile_zero (ds : List Nat) :
    ds.takeWhile (· == 0) = List.replicate (ds.takeWhile (· == 0)).length 0 := by
  rw [List.eq_replicate_iff]
  refine ⟨rfl, ?_⟩
  intro d hd
  have h := List.mem_takeWhile_imp hd
  simpa using h

theorem recode_lt {m : Nat} (hb : 1 < b) (hd : d ∈ recode b m ds) : d < b := by
  unfold recode at hd
  rw [List.mem_append] at hd
  rcases hd with hd | hd
  · have h0 := List.eq_of_mem_replicate hd
    omega
  · exact Nat.digits_lt_base hb (List.mem_reverse.1 hd)

/-- A text of digits comes back from the other base. -/
theorem recode_recode {m : Nat} (hm : 1 < m) (h : ∀ d ∈ ds, d < m) : recode m b (recode b m ds) = ds := by
  have hvalue : value b (recode b m ds) = value m ds := by
    unfold recode
    rw [value_replicate_zero_append, value_reverse_digits]
  have hzeros : (recode b m ds).takeWhile (· == 0) = List.replicate (ds.takeWhile (· == 0)).length 0 := by
    unfold recode
    rw [List.takeWhile_append_of_pos, takeWhile_reverse_digits, List.append_nil]
    intro d hd
    simp [List.eq_of_mem_replicate hd]
  rw [recode, hvalue, hzeros, List.length_replicate, digits_value hm h, ← takeWhile_zero,
    List.takeWhile_append_dropWhile]

end Value

section Conversion

variable {b m : Nat}

/-- A step takes the digits of `n` to those of `m * n + c`. -/
theorem mulAdd_digits (hb : 1 < b) (hm : 0 < m) (n c : Nat) :
    mulAdd b m (Nat.digits b n) c = Nat.digits b (m * n + c) := by
  induction n using Nat.strongRecOn generalizing c with
  | ind n ih =>
    rcases Nat.eq_zero_or_pos n with rfl | hn
    · rw [Nat.digits_zero, Nat.mul_zero, Nat.zero_add]
      rfl
    · have hpos : 0 < m * n + c := Nat.lt_of_lt_of_le (Nat.mul_pos hm hn) (Nat.le_add_right _ _)
      have hsplit : m * n + c = c + m * (n % b) + b * (m * (n / b)) := by
        have hn' : m * n = m * (n % b) + b * (m * (n / b)) := by
          conv => lhs; rw [← Nat.mod_add_div n b]
          rw [Nat.mul_add, Nat.mul_left_comm]
        omega
      rw [Nat.digits_def' hb hn, mulAdd, ih (n / b) (Nat.div_lt_self hn hb), Nat.digits_def' hb hpos, hsplit,
        Nat.add_mul_mod_self_left, Nat.add_mul_div_left _ _ (Nat.lt_of_succ_lt hb)]
      congr 2
      omega

end Conversion

end Lib.Radix
