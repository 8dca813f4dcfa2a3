import Mathlib

/-!
# Months

The months of the Gregorian calendar, counted from January 1970, and the seconds at which they begin.  A
time is in the month that has begun and whose successor has not (`inMonth_iff`).
-/

namespace Lib.Calendar

def isLeap (year : Nat) : Bool := year % 4 = 0 ∧ (year % 100 ≠ 0 ∨ year % 400 = 0)

/-- The days of a month, of which January is 0. -/
def daysInMonth (year : Nat) : Nat → Nat
  | 1 => if isLeap year then 29 else 28
  | 3 | 5 | 8 | 10 => 30
  | _ => 31

def year (m : Nat) : Nat := 1970 + m / 12

def monthOfYear (m : Nat) : Nat := m % 12 + 1

/-- The days before a month. -/
def daysBefore : Nat → Nat
  | 0 => 0
  | m + 1 => daysBefore m + daysInMonth (year m) (m % 12)

/-- The second at which a month begins. -/
def monthStart (m : Nat) : Int := 86400 * daysBefore m

/-- No month has fewer than 28 days, so it is among the first `t / (28 * 86400)`. -/
def monthOf (t : Int) : Nat := Nat.findGreatest (fun m => monthStart m ≤ t) (t / (28 * 86400)).toNat

def InMonth (m : Nat) (t : Int) : Prop := monthStart m ≤ t ∧ t < monthStart (m + 1)

instance (m : Nat) (t : Int) : Decidable (InMonth m t) := inferInstanceAs (Decidable (_ ∧ _))

theorem le_daysInMonth (year month : Nat) : 28 ≤ daysInMonth year month := by
  unfold daysInMonth
  split
  · split <;> decide
  all_goals decide

theorem le_daysBefore (m : Nat) : 28 * m ≤ daysBefore m := by
  induction m with
  | zero => exact Nat.le_refl _
  | succ m ih =>
    have h := le_daysInMonth (year m) (m % 12)
    rw [daysBefore]
    omega

theorem monthStart_lt_succ (m : Nat) : monthStart m < monthStart (m + 1) := by
  have h := le_daysInMonth (year m) (m % 12)
  rw [monthStart, monthStart, daysBefore]
  omega

theorem monthStart_strictMono : StrictMono monthStart := strictMono_nat_of_lt_succ monthStart_lt_succ

theorem inMonth_unique {m m' : Nat} {t : Int} (h : InMonth m t) (h' : InMonth m' t) : m = m' := by
  have hlt : m < m' + 1 := monthStart_strictMono.lt_iff_lt.1 (h.1.trans_lt h'.2)
  have hlt' : m' < m + 1 := monthStart_strictMono.lt_iff_lt.1 (h'.1.trans_lt h.2)
  omega

theorem inMonth_monthOf {t : Int} (ht : 0 ≤ t) : InMonth (monthOf t) t := by
  have hle : monthStart (monthOf t) ≤ t :=
    Nat.findGreatest_spec (P := fun m => monthStart m ≤ t) (Nat.zero_le _) ht
  refine ⟨hle, ?_⟩
  by_contra hnot
  have hnext : monthStart (monthOf t + 1) ≤ t := not_lt.1 hnot
  have hdays := le_daysBefore (monthOf t + 1)
  have hbound : monthOf t + 1 ≤ (t / (28 * 86400)).toNat := by
    rw [monthStart] at hnext
    omega
  have hmax : monthOf t + 1 ≤ monthOf t := Nat.le_findGreatest (P := fun m => monthStart m ≤ t) hbound hnext
  omega

theorem inMonth_iff {m : Nat} {t : Int} (ht : 0 ≤ t) : InMonth m t ↔ monthOf t = m :=
  ⟨fun h => inMonth_unique (inMonth_monthOf ht) h, fun h => h ▸ inMonth_monthOf ht⟩

theorem monthOf_mono {t t' : Int} (ht : 0 ≤ t) (h : t ≤ t') : monthOf t ≤ monthOf t' := by
  have hlt : monthStart (monthOf t) < monthStart (monthOf t' + 1) :=
    (inMonth_monthOf ht).1.trans_lt (h.trans_lt (inMonth_monthOf (ht.trans h)).2)
  exact Nat.le_of_lt_succ (monthStart_strictMono.lt_iff_lt.1 hlt)

/-- The 29th of February 2024. -/
example : monthOf 1709164800 = 649 ∧ year 649 = 2024 ∧ monthOfYear 649 = 2 := by decide +kernel

end Lib.Calendar
