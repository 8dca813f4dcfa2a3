import Mathlib.Algebra.Order.BigOperators.Group.List
import Mathlib.Data.List.Sort
import Mathlib.Tactic.Ring

/-!
# Ranked lists

Three things a program does with a list and a ranking `r` of its elements: take the last of the
best (`maxBy`), take the head of the stable sort, and hand out an amount along the list, to each
element at most its capacity (`greedy`).

Both picks are `Top`: `r` puts them before every element.  With no element twice in the list they
are the same exactly when only one element is (`maxBy_eq_head_iff`), because the sort keeps the
first `Top` of the list and `maxBy` the last.
-/

namespace Lib

variable {α : Type}

/-! ## The best of a list -/

/-- `Iterator::max_by`: of the elements that compare equal the last one is kept. -/
def maxBy (cmp : α → α → Ordering) : List α → Option α
  | [] => none
  | a :: as => some (as.foldl (fun x y => if cmp x y = .gt then x else y) a)

/-- `a` ranks at least as high as every element of `l`. -/
def Top (r : α → α → Prop) (l : List α) (a : α) : Prop := ∀ c ∈ l, r a c

section Best

variable {r : α → α → Prop} {cmp : α → α → Ordering}

/-- What a fold that keeps the better of two, and the later of two equal ones, ends with. -/
theorem foldl_best (total : ∀ a b, r a b ∨ r b a) (trans : ∀ a b c, r a b → r b c → r a c)
    (hc : ∀ x y, cmp x y = .gt ↔ ¬ r y x) (a : α) (as : List α) :
    ∃ l₁ b l₂, as.foldl (fun x y => if cmp x y = .gt then x else y) a = b ∧
      a :: as = l₁ ++ b :: l₂ ∧ Top r (a :: as) b ∧ ∀ c ∈ l₂, ¬ r c b := by
  induction as generalizing a with
  | nil =>
    refine ⟨[], a, [], rfl, rfl, ?_, by simp⟩
    intro c hc'
    rw [List.mem_singleton.1 hc']
    exact (total a a).elim id id
  | cons y ys ih =>
    by_cases hgt : cmp a y = .gt
    · -- `y` is worse than `a`: it is passed over
      obtain ⟨l₁, b, l₂, hfold, hsplit, htop, hlast⟩ := ih a
      have hay : r a y := (total a y).resolve_right ((hc a y).1 hgt)
      have hba : r b a := htop a List.mem_cons_self
      have htop' : Top r (a :: y :: ys) b := by
        intro c hmem
        rcases List.mem_cons.1 hmem with rfl | hmem
        · exact hba
        · rcases List.mem_cons.1 hmem with rfl | hmem
          · exact trans b a c hba hay
          · exact htop c (List.mem_cons_of_mem a hmem)
      simp only [List.foldl_cons, if_pos hgt]
      cases l₁ with
      | nil =>
        simp only [List.nil_append, List.cons.injEq] at hsplit
        obtain ⟨rfl, rfl⟩ := hsplit
        refine ⟨[], a, y :: ys, hfold, rfl, htop', ?_⟩
        intro c hmem
        rcases List.mem_cons.1 hmem with rfl | hmem
        · exact (hc a c).1 hgt
        · exact hlast c hmem
      | cons z l₁ =>
        simp only [List.cons_append, List.cons.injEq] at hsplit
        obtain ⟨rfl, rfl⟩ := hsplit
        exact ⟨a :: y :: l₁, b, l₂, hfold, rfl, htop', hlast⟩
    · obtain ⟨l₁, b, l₂, hfold, hsplit, htop, hlast⟩ := ih y
      have hya : r y a := not_not.1 fun h => hgt ((hc a y).2 h)
      have hby : r b y := htop y List.mem_cons_self
      simp only [List.foldl_cons, if_neg hgt]
      refine ⟨a :: l₁, b, l₂, hfold, by rw [hsplit]; rfl, ?_, hlast⟩
      intro c hmem
      rcases List.mem_cons.1 hmem with rfl | hmem
      · exact trans b y c hby hya
      · exact htop c hmem

/-- The head of the stable sort is the first of the best. -/
theorem head_insertionSort [DecidableRel r] (total : ∀ a b, r a b ∨ r b a)
    (trans : ∀ a b c, r a b → r b c → r a c) (a : α) (as : List α) :
    ∃ l₁ b l₂, ((a :: as).insertionSort r).head? = some b ∧ a :: as = l₁ ++ b :: l₂ ∧
      Top r (a :: as) b ∧ ∀ c ∈ l₁, ¬ r c b := by
  induction as generalizing a with
  | nil =>
    refine ⟨[], a, [], rfl, rfl, ?_, by simp⟩
    intro c hc
    rw [List.mem_singleton.1 hc]
    exact (total a a).elim id id
  | cons y ys ih =>
    obtain ⟨l₁, b, l₂, hhead, hsplit, htop, hfirst⟩ := ih y
    obtain ⟨tail, hsort⟩ : ∃ tail, (y :: ys).insertionSort r = b :: tail :=
      List.head?_eq_some_iff.1 hhead
    rw [List.insertionSort_cons, hsort]
    by_cases hab : r a b
    · refine ⟨[], a, y :: ys, by simp [List.orderedInsert, hab], rfl, ?_, by simp⟩
      intro c hmem
      rcases List.mem_cons.1 hmem with rfl | hmem
      · exact (total c c).elim id id
      · exact trans a b c hab (htop c hmem)
    · refine ⟨a :: l₁, b, l₂, by simp [List.orderedInsert, hab], by rw [hsplit]; rfl, ?_, ?_⟩
      · intro c hmem
        rcases List.mem_cons.1 hmem with rfl | hmem
        · exact (total c b).resolve_left hab
        · exact htop c hmem
      · intro c hmem
        rcases List.mem_cons.1 hmem with rfl | hmem
        · exact hab
        · exact hfirst c hmem

/-- The last of the best is the first of the best iff there is one best. -/
theorem maxBy_eq_head_iff [DecidableRel r] (total : ∀ a b, r a b ∨ r b a)
    (trans : ∀ a b c, r a b → r b c → r a c) (hc : ∀ x y, cmp x y = .gt ↔ ¬ r y x) {l : List α}
    (hl : l.Nodup) :
    maxBy cmp l = (l.insertionSort r).head? ↔
      ∀ a ∈ l, ∀ b ∈ l, Top r l a → Top r l b → a = b := by
  cases l with
  | nil => simp [maxBy]
  | cons x xs =>
    obtain ⟨l₁, a, l₂, hfold, hsplit, htop, hlast⟩ := foldl_best total trans hc x xs
    obtain ⟨m₁, b, m₂, hhead, hsplit', htop', hfirst⟩ := head_insertionSort total trans x xs
    have ha : a ∈ x :: xs := by simp [hsplit]
    have hb : b ∈ x :: xs := by simp [hsplit']
    simp only [maxBy, hfold, hhead, Option.some.injEq]
    constructor
    · rintro rfl
      -- one split of the list serves both picks, so no other element is best
      have hnot : a ∉ l₁ ∧ a ∉ l₂ := by
        have hn : (l₁ ++ a :: l₂).Nodup := hsplit ▸ hl
        simpa using (List.nodup_middle.1 hn).notMem
      have hsame : l₁ = m₁ :=
        ((List.append_cons_inj_of_notMem hnot.1 hnot.2).1 (hsplit.symm.trans hsplit')).1
      have huniq : ∀ c ∈ x :: xs, Top r (x :: xs) c → c = a := by
        intro c hmem hctop
        have hca : r c a := hctop a ha
        have hafter : c ∉ l₂ := fun h => hlast c h hca
        have hbefore : c ∉ l₁ := fun h => hfirst c (hsame ▸ h) hca
        rw [hsplit] at hmem
        simpa [hafter, hbefore] using hmem
      intro c hcm d hdm hct hdt
      rw [huniq c hcm hct, huniq d hdm hdt]
    · intro h
      exact h a ha b hb htop htop'

end Best

/-! ## Handing out an amount -/

/-- Serve the list in order, each element up to its capacity, until `need` is used up.  An element
that can take nothing is skipped. -/
def greedy (cap : α → Int) (need : Int) : List α → List (α × Int)
  | [] => []
  | a :: as =>
    if need ≤ 0 then []
    else if min need (cap a) ≤ 0 then greedy cap need as
    else (a, min need (cap a)) :: greedy cap (need - min need (cap a)) as

/-- What was handed out in all. -/
def served (out : List (α × Int)) : Int := (out.map Prod.snd).sum

/-- The elements that can take something. -/
def able (cap : α → Int) (l : List α) : List α := l.filter fun a => 0 < cap a

section Greedy

variable (cap : α → Int)

/-- The elements served are the first of those that can take something, each is given its whole
capacity but the last, and what is left over is left because `need` is used up. -/
structure Greedy (need : Int) (l rest : List α) (out : List (α × Int)) : Prop where
  split : able cap l = out.map Prod.fst ++ rest
  within : ∀ p ∈ out, 0 < p.2 ∧ p.2 ≤ cap p.1
  full : ∀ p ∈ out.dropLast, p.2 = cap p.1
  spent : rest ≠ [] → served out = need
  total : served out = min need ((able cap l).map cap).sum

theorem sum_able_nonneg (l : List α) : 0 ≤ ((able cap l).map cap).sum := by
  apply List.sum_nonneg
  intro x hx
  obtain ⟨a, ha, rfl⟩ := List.mem_map.1 hx
  have := (List.mem_filter.1 ha).2
  simp only [decide_eq_true_eq] at this
  omega

variable {cap} {need : Int} {a : α} {as rest : List α} {out : List (α × Int)}

/-- What is served is not negative. -/
theorem Greedy.served_nonneg (h : Greedy cap need as rest out) : ∀ qs, qs <:+ out → 0 ≤ served qs := by
  intro qs hqs
  apply List.sum_nonneg
  intro x hx
  obtain ⟨p, hp, rfl⟩ := List.mem_map.1 hx
  exact (h.within p (hqs.subset hp)).1.le

/-- One more element at the front that can take something. -/
theorem Greedy.cons (hneed : 0 < need) (ha : 0 < cap a)
    (h : Greedy cap (need - min need (cap a)) as rest out) :
    Greedy cap need (a :: as) rest ((a, min need (cap a)) :: out) := by
  have hable : able cap (a :: as) = a :: able cap as := by simp [able, ha]
  have hserved : served ((a, min need (cap a)) :: out) = min need (cap a) + served out := by
    simp [served]
  refine ⟨?_, ?_, ?_, ?_, ?_⟩
  · simp [hable, h.split]
  · intro p hp
    rcases List.mem_cons.1 hp with rfl | hp
    · exact ⟨by simp only; omega, min_le_right _ _⟩
    · exact h.within p hp
  · intro p hp
    rcases hout : out with _ | ⟨q, qs⟩
    · simp [hout] at hp
    · rw [hout, List.dropLast_cons_cons] at hp
      rcases List.mem_cons.1 hp with rfl | hp
      · -- something is left for `q`, so `a` was given all it can take
        have hq : 0 < q.2 := (h.within q (by simp [hout])).1
        have hnn : 0 ≤ served qs := h.served_nonneg qs (hout ▸ List.suffix_cons q qs)
        have htot := h.total
        simp only [hout, served, List.map_cons, List.sum_cons] at htot
        simp only [served] at hnn
        show min need (cap a) = cap a
        omega
      · exact h.full p (hout ▸ hp)
  · intro hrest
    have := h.spent hrest
    omega
  · have := h.total
    have := sum_able_nonneg cap as
    simp only [hserved, hable, List.map_cons, List.sum_cons]
    omega

/-- One that can take nothing. -/
theorem Greedy.skip (ha : cap a ≤ 0) (h : Greedy cap need as rest out) :
    Greedy cap need (a :: as) rest out := by
  have hable : able cap (a :: as) = able cap as := by
    simp [able, show ¬ 0 < cap a by omega]
  exact ⟨hable ▸ h.split, h.within, h.full, h.spent, hable ▸ h.total⟩

variable (cap)

theorem greedy_spec (h : 0 ≤ need) (l : List α) :
    ∃ rest, Greedy cap need l rest (greedy cap need l) := by
  induction l generalizing need with
  | nil => exact ⟨[], rfl, by simp [greedy], by simp [greedy], by simp, by simp [greedy, served, able, h]⟩
  | cons a as ih =>
    by_cases hneed : need ≤ 0
    · have hz : need = 0 := by omega
      subst hz
      refine ⟨able cap (a :: as), by simp [greedy], by simp [greedy], by simp [greedy],
        by simp [greedy, served], ?_⟩
      have := sum_able_nonneg cap (a :: as)
      simp [greedy, served, this]
    · by_cases hcap : cap a ≤ 0
      · have heq : greedy cap need (a :: as) = greedy cap need as := by
          rw [greedy, if_neg hneed, if_pos (by omega)]
        obtain ⟨rest, hg⟩ := ih h
        exact ⟨rest, heq ▸ hg.skip hcap⟩
      · have heq : greedy cap need (a :: as) =
            (a, min need (cap a)) :: greedy cap (need - min need (cap a)) as := by
          rw [greedy, if_neg hneed, if_neg (by omega)]
        obtain ⟨rest, hg⟩ := @ih (need - min need (cap a)) (by omega)
        exact ⟨rest, heq ▸ hg.cons (by omega) (by omega)⟩

end Greedy

end Lib
