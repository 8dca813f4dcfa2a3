import Mathlib.Data.List.Sort
import Mathlib.Data.List.Nodup

/-!
# Lists whose elements have a key

`firsts` keeps of each key the element that comes first.  A stable sort that does not tell the elements
of a class apart keeps the class in its order (`filter_insertionSort`), and a sorted list is its classes,
one after the other (`eq_filter_append_filter`).
-/

namespace Lib

section Firsts

variable {α κ : Type} [DecidableEq κ] {key : α → κ} {a : α} {l acc : List α}

/-- The elements whose key has not come before. -/
def firsts (key : α → κ) : List α → List α
  | [] => []
  | a :: l => a :: (firsts key l).filter fun b => key b ≠ key a

theorem firsts_sublist : (firsts key l).Sublist l := by
  induction l with
  | nil => exact List.Sublist.slnil
  | cons a l ih => exact (List.filter_sublist.trans ih).cons_cons a

theorem nodup_firsts : ((firsts key l).map key).Nodup := by
  induction l with
  | nil => exact List.nodup_nil
  | cons a l ih =>
    rw [firsts, List.map_cons, List.nodup_cons]
    constructor
    · intro hmem
      obtain ⟨b, hb, heq⟩ := List.mem_map.1 hmem
      exact absurd heq (of_decide_eq_true (List.mem_filter.1 hb).2)
    · exact ih.sublist (List.filter_sublist.map key)

theorem mem_map_firsts {k : κ} : k ∈ (firsts key l).map key ↔ k ∈ l.map key := by
  induction l with
  | nil => rfl
  | cons a l ih =>
    rw [firsts, List.map_cons, List.map_cons, List.mem_cons, List.mem_cons, ← ih]
    refine or_congr_right' fun hk => ?_
    simp only [List.mem_map, List.mem_filter, decide_eq_true_eq]
    constructor
    · rintro ⟨b, ⟨hb, -⟩, rfl⟩
      exact ⟨b, hb, rfl⟩
    · rintro ⟨b, hb, rfl⟩
      exact ⟨b, ⟨hb, hk⟩, rfl⟩

theorem mem_firsts_iff : a ∈ firsts key l ↔ l.find? (fun b => key b = key a) = some a := by
  induction l with
  | nil => simp [firsts]
  | cons b l ih =>
    rw [firsts, List.mem_cons, List.mem_filter, ih, List.find?_cons]
    by_cases h : key b = key a
    · simp [h, eq_comm]
    · have hne : a ≠ b := fun hab => h (congrArg key hab.symm)
      simp [h, hne, Ne.symm h]

/-- A step of the loop that goes over a list and leaves out what it has seen. -/
def addFirst (key : α → κ) (acc : List α) (a : α) : List α :=
  if key a ∈ acc.map key then acc else acc ++ [a]

theorem foldl_addFirst (l acc : List α) :
    l.foldl (addFirst key) acc = acc ++ (firsts key l).filter fun a => key a ∉ acc.map key := by
  induction l generalizing acc with
  | nil => simp [firsts]
  | cons a l ih =>
    rw [List.foldl_cons, ih, firsts, addFirst, List.filter_cons, List.filter_filter]
    by_cases ha : key a ∈ acc.map key
    · rw [if_pos ha, if_neg (by simpa using ha)]
      -- what has the key of `a` is left out on both sides
      refine congrArg (acc ++ ·) (List.filter_congr fun b _ => ?_)
      by_cases hb : key b = key a
      · simp [hb, ha]
      · simp [hb]
    · rw [if_neg ha, if_pos (by simpa using ha), List.append_assoc]
      refine congrArg (acc ++ a :: ·) (List.filter_congr fun b _ => ?_)
      rw [List.map_append, List.map_singleton, Bool.eq_iff_iff]
      simp only [List.mem_append, List.mem_singleton, decide_eq_true_eq, Bool.and_eq_true, not_or, ne_eq,
        and_comm]

end Firsts

section Classes

variable {α : Type} {l : List α} {p : α → Bool}

/-- A stable sort keeps the order of those it does not tell apart. -/
theorem filter_insertionSort {r : α → α → Prop} [DecidableRel r] [Std.Total r] [IsTrans α r]
    (hp : ∀ a b, p a → p b → r a b) : (l.insertionSort r).filter p = l.filter p := by
  have hr : (l.filter p).Pairwise r :=
    List.pairwise_of_forall_mem_list fun a ha b hb => hp a b (List.mem_filter.1 ha).2 (List.mem_filter.1 hb).2
  have hsub := (List.sublist_insertionSort hr List.filter_sublist).filter p
  simp only [List.filter_filter, Bool.and_self] at hsub
  exact (hsub.eq_of_length ((List.perm_insertionSort r l).filter p).length_eq.symm).symm

/-- A list in which no `p` comes after a `¬ p`. -/
theorem eq_filter_append_filter (h : l.Pairwise fun a b => p b → p a) :
    l = l.filter p ++ l.filter fun a => !p a := by
  induction l with
  | nil => rfl
  | cons a l ih =>
    obtain ⟨ha, hl⟩ := List.pairwise_cons.1 h
    by_cases hpa : p a
    · rw [List.filter_cons_of_pos hpa, List.filter_cons_of_neg (by simp [hpa]), List.cons_append, ← ih hl]
    · have hnone : l.filter p = [] := List.filter_eq_nil_iff.2 fun b hb hpb => hpa (ha b hb hpb)
      have hrest := ih hl
      rw [hnone, List.nil_append] at hrest
      rw [List.filter_cons_of_neg hpa, List.filter_cons_of_pos (by simp [hpa]), hnone, List.nil_append,
        ← hrest]

end Classes

end Lib
