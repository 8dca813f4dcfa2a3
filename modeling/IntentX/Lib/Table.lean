import Mathlib.Data.List.Nodup
import Mathlib.Algebra.BigOperators.Group.List.Basic
import Mathlib.Tactic.Ring

/-!
# Tables with a primary key and a unique key

`Table ρ pk uk` is a bag of rows in which no two rows agree on `pk` or on `uk` (a table with
one key only uses it for both).  `find` is a `SELECT` of at most one row, `insert` is refused
when a key is taken, `update p f` is `UPDATE … SET f WHERE p` for an `f` that keeps the keys.

A column is summed by `Table.sum`: `sum_insert` and `sum_update_pk` say by how much a statement
moves any such sum, which is all a balance argument needs.
-/

namespace Lib

structure Table (ρ : Type) {κ ν : Type} (pk : ρ → κ) (uk : ρ → ν) where
  rows : List ρ
  pk_nodup : (rows.map pk).Nodup
  uk_nodup : (rows.map uk).Nodup

/-! ## One row per key in a list -/

section Rows

variable {ρ κ : Type} {key : ρ → κ} {l : List ρ}

theorem eq_of_key_eq (hn : (l.map key).Nodup) {r r' : ρ} (h : r ∈ l) (h' : r' ∈ l)
    (hk : key r = key r') : r = r' :=
  List.inj_on_of_nodup_map hn h h' hk

theorem find?_key_iff [DecidableEq κ] (hn : (l.map key).Nodup) {k : κ} {r : ρ} :
    l.find? (fun x => key x = k) = some r ↔ r ∈ l ∧ key r = k := by
  have hsome : ∀ x, l.find? (fun x => key x = k) = some x → x ∈ l ∧ key x = k := fun x hx =>
    ⟨List.mem_of_find?_eq_some hx, by simpa using List.find?_some hx⟩
  refine ⟨hsome r, fun ⟨hr, hk⟩ => ?_⟩
  rcases hx : l.find? (fun x => key x = k) with _ | x
  · exact absurd (decide_eq_true hk) (List.find?_eq_none.1 hx r hr)
  · obtain ⟨hm, hxk⟩ := hsome x hx
    rw [eq_of_key_eq hn hm hr (hxk.trans hk.symm)]

theorem find?_key_none [DecidableEq κ] {k : κ} :
    l.find? (fun x => key x = k) = none ↔ ∀ r ∈ l, key r ≠ k := by
  simp [List.find?_eq_none]

/-- The rows with the key of `r` are `r` alone. -/
theorem sum_ite_key [DecidableEq κ] (hn : (l.map key).Nodup) {r : ρ} (hr : r ∈ l) (g : ρ → Int) :
    (l.map fun x => if key x = key r then g x else 0).sum = g r := by
  induction l with
  | nil => cases hr
  | cons y ys ih =>
    simp only [List.map_cons, List.nodup_cons, List.mem_map, not_exists, not_and] at hn
    simp only [List.map_cons, List.sum_cons]
    rcases List.mem_cons.1 hr with rfl | hr'
    · have hz : (ys.map fun x => if key x = key r then g x else 0).sum = 0 := by
        apply List.sum_eq_zero
        intro v hv
        obtain ⟨x, hx, rfl⟩ := List.mem_map.1 hv
        rw [if_neg (hn.1 x hx)]
      rw [hz, if_pos rfl, add_zero]
    · have hne : key y ≠ key r := fun e => hn.1 r hr' e.symm
      rw [if_neg hne, ih hn.2 hr', zero_add]

theorem sum_ite_key_none [DecidableEq κ] {k : κ} (h : ∀ r ∈ l, key r ≠ k) (g : ρ → Int) :
    (l.map fun x => if key x = k then g x else 0).sum = 0 := by
  apply List.sum_eq_zero
  intro v hv
  obtain ⟨x, hx, rfl⟩ := List.mem_map.1 hv
  rw [if_neg (h x hx)]

theorem sum_map_add_sub (w d : ρ → Int) :
    (l.map fun x => w x + d x).sum = (l.map w).sum + (l.map d).sum := by
  induction l with
  | nil => rfl
  | cons y ys ih => simp only [List.map_cons, List.sum_cons, ih]; ring

end Rows

namespace Table

variable {ρ κ ν : Type} {pk : ρ → κ} {uk : ρ → ν} (t : Table ρ pk uk)

def empty : Table ρ pk uk := ⟨[], List.nodup_nil, List.nodup_nil⟩

/-- `SELECT … WHERE p`, at most one row expected. -/
def find (p : ρ → Bool) : Option ρ := t.rows.find? p

/-- `INSERT`: `none` when one of the keys is taken. -/
def insert [DecidableEq κ] [DecidableEq ν] (r : ρ) : Option (Table ρ pk uk) :=
  if h : pk r ∉ t.rows.map pk ∧ uk r ∉ t.rows.map uk then
    some ⟨t.rows ++ [r],
      by rw [List.map_append]; exact t.pk_nodup.append (List.nodup_singleton _) (by simpa using h.1),
      by rw [List.map_append]; exact t.uk_nodup.append (List.nodup_singleton _) (by simpa using h.2)⟩
  else none

/-- `UPDATE … SET f WHERE p`, for an `f` that leaves the keys alone. -/
def update (p : ρ → Bool) (f : ρ → ρ) (hf : ∀ r, pk (f r) = pk r ∧ uk (f r) = uk r) :
    Table ρ pk uk where
  rows := t.rows.map fun r => if p r then f r else r
  pk_nodup := by
    have : (t.rows.map fun r => if p r then f r else r).map pk = t.rows.map pk := by
      rw [List.map_map]
      refine List.map_congr_left fun r _ => ?_
      simp only [Function.comp]
      split
      · exact (hf r).1
      · rfl
    rw [this]; exact t.pk_nodup
  uk_nodup := by
    have : (t.rows.map fun r => if p r then f r else r).map uk = t.rows.map uk := by
      rw [List.map_map]
      refine List.map_congr_left fun r _ => ?_
      simp only [Function.comp]
      split
      · exact (hf r).2
      · rfl
    rw [this]; exact t.uk_nodup

/-- `DELETE … WHERE p`. -/
def delete (p : ρ → Bool) : Table ρ pk uk where
  rows := t.rows.filter fun r => !p r
  pk_nodup := t.pk_nodup.sublist (List.filter_sublist.map pk)
  uk_nodup := t.uk_nodup.sublist (List.filter_sublist.map uk)

/-- The number of rows an `UPDATE … WHERE p` touches. -/
def affected (p : ρ → Bool) : Nat := t.rows.countP p

def sum (w : ρ → Int) : Int := (t.rows.map w).sum

variable {t} {t' : Table ρ pk uk}

@[ext] theorem ext (h : t.rows = t'.rows) : t = t' := by
  cases t; cases t'; cases h; rfl

/-! ## Rows after a statement -/

theorem rows_insert [DecidableEq κ] [DecidableEq ν] {r : ρ} (h : t.insert r = some t') :
    t'.rows = t.rows ++ [r] := by
  unfold insert at h
  split at h
  · cases h; rfl
  · cases h

/-- The row goes in exactly when both of its keys are free. -/
theorem insert_isSome_iff [DecidableEq κ] [DecidableEq ν] {r : ρ} :
    (t.insert r).isSome ↔ ∀ x ∈ t.rows, pk x ≠ pk r ∧ uk x ≠ uk r := by
  unfold insert
  split
  · next h =>
    simp only [List.mem_map, not_exists, not_and] at h
    simp only [Option.isSome_some, true_iff]
    exact fun x hx => ⟨h.1 x hx, h.2 x hx⟩
  · next h =>
    simp only [Option.isSome_none, Bool.false_eq_true, false_iff]
    intro hx
    apply h
    simp only [List.mem_map, not_exists, not_and]
    exact ⟨fun x hm => (hx x hm).1, fun x hm => (hx x hm).2⟩

theorem mem_insert [DecidableEq κ] [DecidableEq ν] {r x : ρ} (h : t.insert r = some t') :
    x ∈ t'.rows ↔ x ∈ t.rows ∨ x = r := by
  rw [rows_insert h, List.mem_append, List.mem_singleton]

theorem mem_update {p : ρ → Bool} {f : ρ → ρ} {hf} {x : ρ} :
    x ∈ (t.update p f hf).rows ↔ ∃ r ∈ t.rows, (if p r then f r else r) = x :=
  List.mem_map

/-- An update keeps the keys: the row is still there under them. -/
theorem exists_mem_update {p : ρ → Bool} {f : ρ → ρ} (hf) {r : ρ} (hr : r ∈ t.rows) :
    ∃ r' ∈ (t.update p f hf).rows, pk r' = pk r ∧ uk r' = uk r := by
  refine ⟨if p r then f r else r, mem_update.2 ⟨r, hr, rfl⟩, ?_⟩
  split
  · exact hf r
  · exact ⟨rfl, rfl⟩

/-- A row is left as it is unless the statement hits it and changes it. -/
theorem mem_update_self_iff {p : ρ → Bool} {f : ρ → ρ} {hf} {r : ρ} (hr : r ∈ t.rows) :
    r ∈ (t.update p f hf).rows ↔ (p r → f r = r) := by
  rw [mem_update]
  constructor
  · rintro ⟨r', hr', heq⟩ hp
    have hkey : pk r' = pk r := by
      rw [← heq]
      split
      · exact (hf r').1.symm
      · rfl
    have hsame := eq_of_key_eq t.pk_nodup hr' hr hkey
    rw [hsame, if_pos hp] at heq
    exact heq
  · intro h
    refine ⟨r, hr, ?_⟩
    by_cases hp : p r
    · rw [if_pos hp, h hp]
    · rw [if_neg hp]

theorem mem_delete {p : ρ → Bool} {x : ρ} : x ∈ (t.delete p).rows ↔ x ∈ t.rows ∧ p x = false := by
  simp [delete]

theorem find_uk_iff [DecidableEq ν] {k : ν} {r : ρ} :
    t.find (fun x => uk x = k) = some r ↔ r ∈ t.rows ∧ uk r = k :=
  find?_key_iff t.uk_nodup

theorem find_pk_iff [DecidableEq κ] {k : κ} {r : ρ} :
    t.find (fun x => pk x = k) = some r ↔ r ∈ t.rows ∧ pk r = k :=
  find?_key_iff t.pk_nodup

theorem find_uk_none [DecidableEq ν] {k : ν} :
    t.find (fun x => uk x = k) = none ↔ ∀ r ∈ t.rows, uk r ≠ k :=
  find?_key_none

theorem find_pk_none [DecidableEq κ] {k : κ} :
    t.find (fun x => pk x = k) = none ↔ ∀ r ∈ t.rows, pk r ≠ k :=
  find?_key_none

/-- The row of a key after an update, which leaves the keys alone. -/
theorem find_update_key {μ : Type} [DecidableEq μ] {key : ρ → μ} (p : ρ → Bool) (f : ρ → ρ) (hf)
    (hkey : ∀ r, key (f r) = key r) (k : μ) :
    (t.update p f hf).find (fun x => key x = k) =
      (t.find fun x => key x = k).map fun r => if p r then f r else r := by
  unfold find update
  rw [List.find?_map]
  have hcomp : ((fun x => decide (key x = k)) ∘ fun r => if p r then f r else r) =
      fun x => decide (key x = k) := by
    funext r
    simp only [Function.comp]
    split
    · rw [hkey r]
    · rfl
  rw [hcomp]

theorem find_update_pk [DecidableEq κ] (p : ρ → Bool) (f : ρ → ρ) (hf) (k : κ) :
    (t.update p f hf).find (fun x => pk x = k) =
      (t.find fun x => pk x = k).map fun r => if p r then f r else r :=
  find_update_key p f hf (fun r => (hf r).1) k

theorem find_update_uk [DecidableEq ν] (p : ρ → Bool) (f : ρ → ρ) (hf) (k : ν) :
    (t.update p f hf).find (fun x => uk x = k) =
      (t.find fun x => uk x = k).map fun r => if p r then f r else r :=
  find_update_key p f hf (fun r => (hf r).2) k

/-- The row of a key after an insertion, for a key that the new row does not share. -/
theorem find_insert_key [DecidableEq κ] [DecidableEq ν] {μ : Type} [DecidableEq μ] {key : ρ → μ}
    {r : ρ} (h : t.insert r = some t') (hfree : ∀ x ∈ t.rows, key x ≠ key r) (k : μ) :
    t'.find (fun x => key x = k) = if k = key r then some r else t.find fun x => key x = k := by
  unfold find
  rw [rows_insert h, List.find?_append]
  split
  · next hk =>
    have hnone : t.rows.find? (fun x => decide (key x = k)) = none := by
      rw [find?_key_none, hk]
      exact hfree
    rw [hnone, hk]
    simp
  · next hk =>
    have hlast : [r].find? (fun x => decide (key x = k)) = none := by
      simpa using fun he : key r = k => hk he.symm
    rw [hlast, Option.or_none]

theorem find_insert_uk [DecidableEq κ] [DecidableEq ν] {r : ρ} (h : t.insert r = some t') (k : ν) :
    t'.find (fun x => uk x = k) = if k = uk r then some r else t.find fun x => uk x = k :=
  find_insert_key h (fun x hx => (insert_isSome_iff.1 (Option.isSome_of_eq_some h) x hx).2) k

theorem find_insert_pk [DecidableEq κ] [DecidableEq ν] {r : ρ} (h : t.insert r = some t') (k : κ) :
    t'.find (fun x => pk x = k) = if k = pk r then some r else t.find fun x => pk x = k :=
  find_insert_key h (fun x hx => (insert_isSome_iff.1 (Option.isSome_of_eq_some h) x hx).1) k

/-- Updating by primary key the row `r` of the table is updating it by its unique key. -/
theorem update_pk_eq_update_uk [DecidableEq κ] [DecidableEq ν] {r : ρ} (hr : r ∈ t.rows)
    (f : ρ → ρ) (hf : ∀ r, pk (f r) = pk r ∧ uk (f r) = uk r) :
    t.update (fun x => pk x = pk r) f hf = t.update (fun x => uk x = uk r) f hf := by
  apply ext
  refine List.map_congr_left fun x hx => ?_
  have hiff : pk x = pk r ↔ uk x = uk r :=
    ⟨fun h => by rw [eq_of_key_eq t.pk_nodup hx hr h],
     fun h => by rw [eq_of_key_eq t.uk_nodup hx hr h]⟩
  simp only [decide_eq_true_eq, hiff]

theorem affected_uk_pos [DecidableEq ν] {k : ν} (q : ρ → Bool) :
    0 < t.affected (fun x => decide (uk x = k) && q x) ↔
      ∃ r, t.find (fun x => uk x = k) = some r ∧ q r = true := by
  unfold affected
  rw [List.countP_pos_iff]
  constructor
  · rintro ⟨r, hr, hq⟩
    simp only [Bool.and_eq_true, decide_eq_true_eq] at hq
    exact ⟨r, find_uk_iff.2 ⟨hr, hq.1⟩, hq.2⟩
  · rintro ⟨r, hr, hq⟩
    obtain ⟨hm, hk⟩ := find_uk_iff.1 hr
    exact ⟨r, hm, by simp [hk, hq]⟩

/-! ## Sums after a statement -/

theorem sum_congr {w w' : ρ → Int} (h : ∀ r ∈ t.rows, w r = w' r) : t.sum w = t.sum w' := by
  unfold sum
  rw [List.map_congr_left h]

theorem sum_eq_zero {w : ρ → Int} (h : ∀ r ∈ t.rows, w r = 0) : t.sum w = 0 :=
  List.sum_eq_zero (by simpa using h)

theorem sum_insert [DecidableEq κ] [DecidableEq ν] {r : ρ} (h : t.insert r = some t')
    (w : ρ → Int) : t'.sum w = t.sum w + w r := by
  unfold sum
  rw [rows_insert h]
  simp

theorem sum_update (p : ρ → Bool) (f : ρ → ρ) (hf) (w : ρ → Int) :
    (t.update p f hf).sum w = t.sum w + t.sum fun r => if p r then w (f r) - w r else 0 := by
  unfold sum
  rw [← sum_map_add_sub]
  show ((t.rows.map _).map w).sum = _
  rw [List.map_map]
  congr 1
  refine List.map_congr_left fun r _ => ?_
  simp only [Function.comp]
  split <;> ring

theorem sum_ite_uk [DecidableEq ν] {r : ρ} (hr : r ∈ t.rows) (g : ρ → Int) :
    (t.sum fun x => if uk x = uk r then g x else 0) = g r :=
  sum_ite_key t.uk_nodup hr g

theorem sum_ite_pk [DecidableEq κ] {r : ρ} (hr : r ∈ t.rows) (g : ρ → Int) :
    (t.sum fun x => if pk x = pk r then g x else 0) = g r :=
  sum_ite_key t.pk_nodup hr g

theorem sum_update_pk [DecidableEq κ] {r : ρ} (hr : r ∈ t.rows) (f : ρ → ρ) (hf) (w : ρ → Int) :
    (t.update (fun x => pk x = pk r) f hf).sum w = t.sum w + (w (f r) - w r) := by
  rw [sum_update]
  congr 1
  simpa using sum_ite_pk hr fun x => w (f x) - w x

theorem update_eq_self_iff {p : ρ → Bool} {f : ρ → ρ} {hf} :
    t.update p f hf = t ↔ ∀ r ∈ t.rows, p r = true → f r = r := by
  have hrows : t.update p f hf = t ↔ t.rows.map (fun r => if p r then f r else r) = t.rows.map id := by
    rw [List.map_id]
    exact ⟨fun h => congrArg rows h, fun h => ext h⟩
  rw [hrows, List.map_inj_left]
  refine forall₂_congr fun r _ => ?_
  by_cases hp : p r = true
  · simp [hp]
  · simp [hp]

/-- An update that matches no row does nothing. -/
theorem update_none {p : ρ → Bool} {f : ρ → ρ} {hf} (h : ∀ r ∈ t.rows, p r = false) :
    t.update p f hf = t :=
  update_eq_self_iff.2 fun r hr hp => by simp [h r hr] at hp

end Table

end Lib
