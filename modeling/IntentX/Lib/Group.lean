import Mathlib.Data.List.Dedup
import Mathlib.Data.List.Sort
import Mathlib.Data.Int.Order.Basic

/-!
# Grouped rows

`GROUP BY key ORDER BY key` over a list of rows, and `ORDER BY` inside a group.  A group carries the proof that
it has a row, so its aggregates are never null.  Every row is in one group, the group of its key
(`exists_unique_group`).  The last section is about intervals of time that are whole cells of a grid.
-/

namespace Lib

variable {α β κ ε : Type}

/-! ## Groups -/

/-- The rows with one key: at least one. -/
structure Group (α κ : Type) where
  key : κ
  rows : List α
  ne_nil : rows ≠ []

section GroupBy

variable [LinearOrder κ]

/-- The keys of the rows, each once, in increasing order. -/
def groupKeys (key : α → κ) (l : List α) : List κ := (l.map key).dedup.insertionSort (· ≤ ·)

theorem mem_groupKeys {key : α → κ} {l : List α} {k : κ} : k ∈ groupKeys key l ↔ ∃ a ∈ l, key a = k := by
  unfold groupKeys
  rw [List.mem_insertionSort, List.mem_dedup, List.mem_map]

theorem groupKeys_increasing (key : α → κ) (l : List α) : (groupKeys key l).Pairwise (· < ·) := by
  have hsorted : (groupKeys key l).Pairwise (· ≤ ·) := List.pairwise_insertionSort (· ≤ ·) _
  have hnodup : (groupKeys key l).Nodup :=
    (List.perm_insertionSort (· ≤ ·) _).nodup_iff.2 (List.nodup_dedup _)
  exact (hsorted.and hnodup).imp fun h => lt_of_le_of_ne h.1 h.2

theorem filter_ne_nil {key : α → κ} {l : List α} {k : κ} (h : k ∈ groupKeys key l) :
    l.filter (key · = k) ≠ [] := by
  obtain ⟨a, ha, hk⟩ := mem_groupKeys.1 h
  exact List.ne_nil_of_mem (List.mem_filter.2 ⟨ha, decide_eq_true hk⟩)

/-- `GROUP BY key ORDER BY key` -/
def groupBy (key : α → κ) (l : List α) : List (Group α κ) :=
  (groupKeys key l).pmap (fun k h => ⟨k, l.filter (key · = k), h⟩) fun _ => filter_ne_nil

variable {key : α → κ} {l : List α} {g : Group α κ}

theorem rows_of_mem (h : g ∈ groupBy key l) : g.rows = l.filter (key · = g.key) := by
  obtain ⟨k, _, rfl⟩ := List.mem_pmap.1 h
  rfl

theorem key_of_mem (h : g ∈ groupBy key l) : ∃ a ∈ l, key a = g.key := by
  obtain ⟨k, hk, rfl⟩ := List.mem_pmap.1 h
  exact mem_groupKeys.1 hk

theorem groupBy_increasing (key : α → κ) (l : List α) : (groupBy key l).Pairwise (·.key < ·.key) := by
  unfold groupBy
  rw [List.pairwise_pmap]
  exact (groupKeys_increasing key l).imp fun h _ _ => h

/-- Every row is in one group, that of its key. -/
theorem exists_unique_group (key : α → κ) {a : α} (ha : a ∈ l) : ∃! g, g ∈ groupBy key l ∧ g.key = key a := by
  have hk : key a ∈ groupKeys key l := mem_groupKeys.2 ⟨a, ha, rfl⟩
  refine ⟨_, ⟨List.mem_pmap.2 ⟨key a, hk, rfl⟩, rfl⟩, ?_⟩
  rintro g ⟨hg, hkey⟩
  obtain ⟨k, _, rfl⟩ := List.mem_pmap.1 hg
  have hka : k = key a := hkey
  subst hka
  rfl

end GroupBy

/-! ## Order inside a group -/

/-- `ORDER BY key`: rows with one key come in any order. -/
structure OrderBy [LE κ] (key : α → κ) where
  run : List α → List α
  perm : ∀ l, (run l).Perm l
  sorted : ∀ l, (run l).Pairwise (key · ≤ key ·)

section OrderBy

variable [LinearOrder κ] {key : α → κ} (o : OrderBy key)

/-- The order that keeps rows with one key as they come. -/
def OrderBy.stable (key : α → κ) : OrderBy key where
  run l := l.insertionSort (key · ≤ key ·)
  perm l := List.perm_insertionSort _ l
  sorted l :=
    haveI : IsTrans α (key · ≤ key ·) := ⟨fun _ _ _ => le_trans⟩
    haveI : Std.Total (α := α) (key · ≤ key ·) := ⟨fun a b => le_total (key a) (key b)⟩
    List.pairwise_insertionSort _ l

theorem OrderBy.run_ne_nil {l : List α} (h : l ≠ []) : o.run l ≠ [] := by
  intro hnil
  exact h ((hnil ▸ o.perm l).nil_eq.symm)

/-- The first element of `array_agg(… ORDER BY key)`. -/
def OrderBy.first (l : List α) (h : l ≠ []) : α := (o.run l).head (o.run_ne_nil h)

theorem OrderBy.first_mem {l : List α} (h : l ≠ []) : o.first l h ∈ l :=
  (o.perm l).mem_iff.1 (List.head_mem _)

/-- No row comes before the first. -/
theorem OrderBy.first_le {l : List α} (h : l ≠ []) : ∀ a ∈ l, key (o.first l h) ≤ key a := by
  intro a ha
  have hmem : a ∈ o.run l := (o.perm l).mem_iff.2 ha
  have hsorted := o.sorted l
  obtain ⟨x, xs, hrun⟩ := List.exists_cons_of_ne_nil (o.run_ne_nil h)
  have hfirst : o.first l h = x := by
    unfold first
    simp only [hrun, List.head_cons]
  rw [hrun] at hmem hsorted
  rw [hfirst]
  rcases List.mem_cons.1 hmem with rfl | hmem
  · exact le_rfl
  · exact (List.pairwise_cons.1 hsorted).1 a hmem

end OrderBy

/-! ## A query that can fail at a row -/

/-- A function that gives `g a` where `p a` holds and fails elsewhere, run over a list. -/
theorem mapM_ok_iff {f : α → Except ε β} {p : α → Prop} {g : α → β}
    (hf : ∀ a b, f a = .ok b ↔ p a ∧ b = g a) (l : List α) (out : List β) :
    l.mapM f = .ok out ↔ (∀ a ∈ l, p a) ∧ out = l.map g := by
  induction l generalizing out with
  | nil => simp [pure, Except.pure, eq_comm]
  | cons a as ih =>
    rw [List.mapM_cons]
    constructor
    · intro h
      cases ha : f a with
      | error e =>
        rw [ha] at h
        cases h
      | ok b =>
        cases has : as.mapM f with
        | error e =>
          rw [ha, has] at h
          cases h
        | ok bs =>
          rw [ha, has] at h
          cases h
          obtain ⟨hp, rfl⟩ := (hf a b).1 ha
          obtain ⟨hps, rfl⟩ := (ih bs).1 has
          exact ⟨List.forall_mem_cons.2 ⟨hp, hps⟩, rfl⟩
    · rintro ⟨hp, rfl⟩
      obtain ⟨hpa, hps⟩ := List.forall_mem_cons.1 hp
      rw [(hf a _).2 ⟨hpa, rfl⟩, (ih _).2 ⟨hps, rfl⟩]
      rfl

/-! ## Intervals -/

section Interval

variable {u n t t' q : Int}

/-- A time whose cell of `u` is whole intervals of `n` cells away from `q` is in the interval that starts with the
cell `q` iff it is in `q` itself. -/
theorem interval_iff (hu : 0 < u) (hn : 0 < n) (h : n ∣ t / u - q) :
    u * q ≤ t ∧ t < u * q + u * n ↔ t / u = q := by
  obtain ⟨d, hd⟩ := h
  have hlo : u * q ≤ t ↔ q ≤ t / u := by
    rw [Int.le_ediv_iff_mul_le hu, Int.mul_comm]
  have hhi : t < u * q + u * n ↔ t / u < q + n := by
    rw [Int.ediv_lt_iff_lt_mul hu, ← Int.mul_add, Int.mul_comm]
  rw [hlo, hhi]
  constructor
  · rintro ⟨hle, hlt⟩
    have hd0 : d = 0 := by
      have h1 : 0 ≤ n * d := by omega
      have h2 : n * d < n * 1 := by omega
      have := Int.lt_of_mul_lt_mul_left h2 hn.le
      have := Int.nonneg_of_mul_nonneg_right h1 hn
      omega
    rw [hd0] at hd
    omega
  · intro heq
    omega

/-- Two times whose cells are whole intervals apart are in one interval iff they are in one cell. -/
theorem same_interval_iff (hu : 0 < u) (hn : 0 < n) (h : n ∣ t / u - t' / u) :
    t / (u * n) = t' / (u * n) ↔ t / u = t' / u := by
  obtain ⟨d, hd⟩ := h
  rw [← Int.ediv_ediv_of_nonneg hu.le, ← Int.ediv_ediv_of_nonneg hu.le, show t / u = t' / u + n * d by omega,
    Int.add_mul_ediv_left _ _ hn.ne']
  constructor
  · intro heq
    have hd0 : d = 0 := by omega
    rw [hd0]
    omega
  · intro heq
    have hd0 : d = 0 := (Int.mul_eq_zero.1 (by omega)).resolve_left hn.ne'
    rw [hd0]
    omega

end Interval

end Lib
