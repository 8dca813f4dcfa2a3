import Mathlib.Data.List.Basic

/-!
# Append-only logs read through cursors

A log numbers its entries as they come.  A reader keeps a cursor, the number of the last entry it
was given, and reads on from there; the log may forget its oldest entries.  `Log.after_cursor` says
that reading moves entries from what lies after the cursor to what was given, and loses none.
-/

namespace Lib

structure Log (α : Type) where
  /-- oldest first -/
  entries : List (Nat × α)
  lastId : Nat
  sorted : entries.Pairwise fun a b => a.1 < b.1
  bounded : ∀ e ∈ entries, e.1 ≤ lastId

namespace Log

variable {α : Type}

def empty : Log α := ⟨[], 0, .nil, nofun⟩

def append (l : Log α) (a : α) : Log α where
  entries := l.entries ++ [(l.lastId + 1, a)]
  lastId := l.lastId + 1
  sorted := by
    refine List.pairwise_append.2 ⟨l.sorted, List.pairwise_singleton _ _, fun e he e' he' => ?_⟩
    have hle := l.bounded e he
    rw [List.mem_singleton.1 he']
    omega
  bounded := by
    intro e he
    rcases List.mem_append.1 he with he | he
    · have hle := l.bounded e he
      omega
    · obtain rfl := List.mem_singleton.1 he
      exact Nat.le_refl _

/-- Forget the `k` oldest entries. -/
def trim (l : Log α) (k : Nat) : Log α where
  entries := l.entries.drop k
  lastId := l.lastId
  sorted := l.sorted.sublist (List.drop_sublist k _)
  bounded := fun e he => l.bounded e (List.mem_of_mem_drop he)

/-- What a reader at cursor `c` has not been given. -/
def after (l : Log α) (c : Nat) : List (Nat × α) := l.entries.filter fun e => c < e.1

/-- The next `n` entries. -/
def read (l : Log α) (c n : Nat) : List (Nat × α) := (l.after c).take n

/-- The cursor after they were read. -/
def cursor (l : Log α) (c n : Nat) : Nat := ((l.read c n).getLast?.map Prod.fst).getD c

variable {l : Log α} {c n k : Nat}

theorem mem_after {e : Nat × α} : e ∈ l.after c ↔ e ∈ l.entries ∧ c < e.1 := by
  simp [after]

theorem after_append (h : c ≤ l.lastId) (a : α) :
    (l.append a).after c = l.after c ++ [(l.lastId + 1, a)] := by
  have hlt : c < l.lastId + 1 := by omega
  simp [after, append, hlt]

/-- What is forgotten of the entries after a cursor. -/
def forgotten (l : Log α) (c k : Nat) : List (Nat × α) := (l.entries.take k).filter fun e => c < e.1

theorem after_trim : l.after c = l.forgotten c k ++ (l.trim k).after c := by
  unfold after forgotten trim
  rw [← List.filter_append, List.take_append_drop]

theorem forgotten_append (hk : k ≤ l.entries.length) (a : α) :
    (l.append a).forgotten c k = l.forgotten c k := by
  unfold forgotten append
  rw [List.take_append_of_le_length hk]

theorem after_sorted : (l.after c).Pairwise fun a b => a.1 < b.1 := l.sorted.filter _

theorem le_cursor : c ≤ l.cursor c n := by
  unfold cursor
  rcases hl : (l.read c n).getLast? with _ | e
  · exact Nat.le_refl c
  · have hmem := List.mem_of_mem_take (List.mem_of_getLast? hl)
    exact Nat.le_of_lt (mem_after.1 hmem).2

theorem cursor_le (h : c ≤ l.lastId) : l.cursor c n ≤ l.lastId := by
  unfold cursor
  rcases hl : (l.read c n).getLast? with _ | e
  · exact h
  · have hmem := List.mem_of_mem_take (List.mem_of_getLast? hl)
    exact l.bounded e (mem_after.1 hmem).1

theorem le_cursor_of_read {e : Nat × α} (h : e ∈ l.read c n) : e.1 ≤ l.cursor c n := by
  have hsorted : (l.read c n).Pairwise fun a b => a.1 < b.1 :=
    after_sorted.sublist (List.take_sublist n _)
  obtain ⟨init, last, hread⟩ : ∃ init last, l.read c n = init ++ [last] :=
    ⟨_, _, (List.dropLast_append_getLast (List.ne_nil_of_mem h)).symm⟩
  have hcur : l.cursor c n = last.1 := by simp [cursor, hread]
  rw [hread] at h hsorted
  rw [hcur]
  rcases List.mem_append.1 h with h | h
  · exact Nat.le_of_lt ((List.pairwise_append.1 hsorted).2.2 e h last List.mem_cons_self)
  · obtain rfl := List.mem_singleton.1 h
    exact Nat.le_refl _

/-- **Reading loses nothing**: what lay after the cursor was read or lies after the new one. -/
theorem after_cursor (hn : 0 < n) : l.after c = l.read c n ++ l.after (l.cursor c n) := by
  have hsplit : l.after c = l.read c n ++ (l.after c).drop n := (List.take_append_drop n _).symm
  have hsorted := after_sorted (l := l) (c := c)
  rw [hsplit] at hsorted
  have hlt := (List.pairwise_append.1 hsorted).2.2
  -- the entries after the new cursor are those after the old one that were not read
  have hafter : l.after (l.cursor c n) = (l.after c).filter fun e => l.cursor c n < e.1 := by
    unfold after
    rw [List.filter_filter]
    refine List.filter_congr fun e _ => ?_
    have hle := le_cursor (l := l) (c := c) (n := n)
    simp only [decide_eq_decide, ← Bool.decide_and]
    omega
  have hdrop : ∀ e ∈ (l.after c).drop n, l.cursor c n < e.1 := by
    intro e he
    rcases hl : (l.read c n).getLast? with _ | e'
    · have hnil : l.after c = [] := by
        rcases List.take_eq_nil_iff.1 (List.getLast?_eq_none_iff.1 hl) with h | h
        · omega
        · exact h
      rw [hnil] at he
      simp at he
    · have hcur : l.cursor c n = e'.1 := by simp [cursor, hl]
      rw [hcur]
      exact hlt e' (List.mem_of_getLast? hl) e he
  rw [hafter]
  conv => rhs; rhs; rw [hsplit]
  rw [List.filter_append, List.filter_eq_nil_iff.2, List.filter_eq_self.2, List.nil_append]
  · exact hsplit
  · exact fun e he => decide_eq_true (hdrop e he)
  · intro e he
    have hle := le_cursor_of_read he
    simp only [decide_eq_true_eq]
    omega

end Log

end Lib
