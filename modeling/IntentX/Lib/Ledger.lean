import Mathlib.Algebra.BigOperators.Group.Finset.Basic
import Mathlib.Algebra.Order.BigOperators.Group.Finset

/-!
# Ledgers

A ledger says what each of the accounts `α` holds.  `set` writes one entry; `total_set` says what
that does to the sum of all entries, and every other movement (`credit`, `debit`, `move`) is made
of writes, so that two accounts which happen to be the same need no case of their own.
-/

namespace Lib

def Ledger (α : Type) := α → Nat

namespace Ledger

variable {α : Type} (l : Ledger α)

def get (a : α) : Nat := l a

-- irreducible: over a large type of accounts nobody wants the sum evaluated
@[irreducible] def total [Fintype α] : Nat := ∑ a, l.get a

theorem get_le_total [Fintype α] (a : α) : l.get a ≤ l.total := by
  unfold total
  exact Finset.single_le_sum (fun _ _ => Nat.zero_le _) (Finset.mem_univ a)

theorem total_zero [Fintype α] (h : ∀ a, l.get a = 0) : l.total = 0 := by
  unfold total
  exact Finset.sum_eq_zero fun a _ => h a

/-! ## Writes -/

variable [DecidableEq α] {a b : α} {n : Nat}

def set (a : α) (n : Nat) : Ledger α := Function.update l a n

def credit (a : α) (n : Nat) : Ledger α := l.set a (l.get a + n)

def debit (a : α) (n : Nat) : Ledger α := l.set a (l.get a - n)

/-- `n` from `a` to `b`; read and written one after the other. -/
def move (a b : α) (n : Nat) : Ledger α := (l.debit a n).credit b n

@[simp] theorem get_set_self : (l.set a n).get a = n := Function.update_self ..

theorem get_set_ne (h : b ≠ a) : (l.set a n).get b = l.get b := Function.update_of_ne h ..

@[simp] theorem get_credit_self : (l.credit a n).get a = l.get a + n := get_set_self ..

@[simp] theorem get_debit_self : (l.debit a n).get a = l.get a - n := get_set_self ..

theorem get_credit_ne (h : b ≠ a) : (l.credit a n).get b = l.get b := get_set_ne l h

theorem get_debit_ne (h : b ≠ a) : (l.debit a n).get b = l.get b := get_set_ne l h

theorem get_move_to (h : b ≠ a) : (l.move a b n).get b = l.get b + n := by
  unfold move
  rw [get_credit_self, get_debit_ne l h]

theorem get_move_from (h : a ≠ b) : (l.move a b n).get a = l.get a - n := by
  unfold move
  rw [get_credit_ne _ h, get_debit_self]

/-! ## What a write does to the total -/

variable [Fintype α]

theorem total_set : (l.set a n).total + l.get a = l.total + n := by
  unfold total
  rw [← Finset.add_sum_erase _ _ (Finset.mem_univ a),
    ← Finset.add_sum_erase _ l.get (Finset.mem_univ a)]
  have hrest : ∑ x ∈ Finset.univ.erase a, (l.set a n).get x =
      ∑ x ∈ Finset.univ.erase a, l.get x := by
    refine Finset.sum_congr rfl fun x hx => ?_
    rw [get_set_ne l (Finset.ne_of_mem_erase hx)]
  rw [hrest, get_set_self]
  omega

end Ledger

end Lib
