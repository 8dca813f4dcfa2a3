import Mathlib.Algebra.BigOperators.Group.List.Basic
import Mathlib.Tactic.Ring

/-!
# Quotas over a log

A log is a list of entries, the latest first.  `total` adds up the entries of one kind; `Sparse` says
that no window of a given length holds more than so many of them.  Each has one rule for a further
entry: it is enough to look at its own kind, or at the window that ends with it.
-/

namespace Lib.Quota

variable {α : Type}

/-- What the entries of a kind add up to. -/
def total (kind : α → Bool) (amount : α → Nat) (l : List α) : Nat :=
  ((l.filter kind).map amount).sum

section Total

variable {kind kind' : α → Bool} {amount : α → Nat} {x : α} {l : List α}

theorem total_cons :
    total kind amount (x :: l) = (if kind x then amount x else 0) + total kind amount l := by
  unfold total
  by_cases hx : kind x = true
  · simp [hx]
  · simp [hx]

theorem total_eq_zero (h : ∀ x ∈ l, kind x = false) : total kind amount l = 0 := by
  have hnil : l.filter kind = [] := List.filter_eq_nil_iff.2 fun x hx => by simp [h x hx]
  simp [total, hnil]

end Total

/-- Of every window of length `w`, open at either end, at most `n` entries. -/
def Sparse (time : α → Int) (w : Int) (n : Nat) (l : List α) : Prop :=
  ∀ t, l.countP (fun x => t ≤ time x ∧ time x < t + w) ≤ n ∧
    l.countP (fun x => t < time x ∧ time x ≤ t + w) ≤ n

section Sparse

variable {time : α → Int} {w : Int} {n : Nat} {x : α} {l : List α}

theorem sparse_nil : Sparse time w n [] := fun _ => ⟨Nat.zero_le n, Nat.zero_le n⟩

/-- An entry may join where fewer than `n` are less than `w` before it.  The times need not be in
order: whatever shares a window with the entry is later than that. -/
theorem Sparse.cons (h : Sparse time w n l)
    (hfew : l.countP (fun y => time x - w < time y) < n) : Sparse time w n (x :: l) := by
  -- one argument for both kinds of window
  have hjoin : ∀ p : α → Bool, l.countP p ≤ n →
      (p x = true → ∀ y, p y = true → time x - w < time y) → (x :: l).countP p ≤ n := by
    intro p hp hnear
    rw [List.countP_cons]
    by_cases hx : p x = true
    · have hle : l.countP p ≤ l.countP fun y => time x - w < time y :=
        List.countP_mono_left fun y _ hy => by simpa using hnear hx y hy
      rw [if_pos hx]
      omega
    · rw [if_neg hx]
      omega
  intro t
  constructor
  · refine hjoin _ (h t).1 fun hx y hy => ?_
    simp only [decide_eq_true_eq] at hx hy
    omega
  · refine hjoin _ (h t).2 fun hx y hy => ?_
    simp only [decide_eq_true_eq] at hx hy
    omega

end Sparse

end Lib.Quota
