import Mathlib

/-!
# Tables partitioned by range

A partition takes the rows whose key lies in its range, from the lower bound up to the upper one.  A table
carries that its ranges are disjoint and that every row is in the range of its partition.  A row is accepted
just if some partition takes its key (`insert_isSome_iff`), and goes into one alone (`rows_insert`).

Partitions are attached, unless they overlap with others (`attach_isSome_iff`), and dropped with their rows
(`rows_drop`).
-/

namespace Lib

structure Partition (κ ρ : Type) where
  name : String
  lower : κ
  upper : κ
  rows : List ρ

variable {κ ρ : Type} [LinearOrder κ]

/-- The key is in the range. -/
def Partition.Takes (p : Partition κ ρ) (k : κ) : Prop := p.lower ≤ k ∧ k < p.upper

instance (p : Partition κ ρ) (k : κ) : Decidable (p.Takes k) := inferInstanceAs (Decidable (_ ∧ _))

/-- Of two ranges with something in them. -/
def Partition.Overlaps (p q : Partition κ ρ) : Prop := p.lower < q.upper ∧ q.lower < p.upper

instance (p q : Partition κ ρ) : Decidable (p.Overlaps q) := inferInstanceAs (Decidable (_ ∧ _))

structure Partitioned (κ ρ : Type) [LinearOrder κ] (key : ρ → κ) where
  parts : List (Partition κ ρ)
  disjoint : parts.Pairwise fun p q => ¬ p.Overlaps q
  within : ∀ p ∈ parts, ∀ r ∈ p.rows, p.Takes (key r)

namespace Partitioned

variable {key : ρ → κ} (t : Partitioned κ ρ key)

def empty : Partitioned κ ρ key := ⟨[], .nil, fun _ hp => nomatch hp⟩

/-- All rows of the table. -/
def rows : List ρ := t.parts.flatMap (·.rows)

/-- Some partition takes the key. -/
def Covers (k : κ) : Prop := ∃ p ∈ t.parts, p.Takes k

instance (k : κ) : Decidable (t.Covers k) := inferInstanceAs (Decidable (∃ p ∈ t.parts, p.Takes k))

/-- A new partition, which is refused if it overlaps with another. -/
def attach (name : String) (lower upper : κ) : Option (Partitioned κ ρ key) :=
  if h : ∀ p ∈ t.parts, ¬ p.Overlaps ⟨name, lower, upper, []⟩ then
    some {
      parts := t.parts ++ [⟨name, lower, upper, []⟩]
      disjoint := List.pairwise_append.2 ⟨t.disjoint, List.pairwise_singleton _ _, fun p hp q hq =>
        List.mem_singleton.1 hq ▸ h p hp⟩
      within := by
        intro p hp r hr
        rcases List.mem_append.1 hp with hp | hp
        · exact t.within p hp r hr
        · rw [List.mem_singleton.1 hp] at hr
          exact nomatch hr }
  else none

variable (key) in
/-- The row goes into the partition that takes its key. -/
def add (r : ρ) (p : Partition κ ρ) : Partition κ ρ :=
  if p.Takes (key r) then { p with rows := p.rows ++ [r] } else p

variable (key) in
theorem add_bounds (r : ρ) (p : Partition κ ρ) :
    (add key r p).name = p.name ∧ (add key r p).lower = p.lower ∧
      (add key r p).upper = p.upper := by
  unfold add
  split
  · exact ⟨rfl, rfl, rfl⟩
  · exact ⟨rfl, rfl, rfl⟩

def insert (r : ρ) : Option (Partitioned κ ρ key) :=
  if t.Covers (key r) then
    some {
      parts := t.parts.map (add key r)
      disjoint := by
        refine List.pairwise_map.2 (t.disjoint.imp fun {p q} h => ?_)
        obtain ⟨-, hpl, hpu⟩ := add_bounds key r p
        obtain ⟨-, hql, hqu⟩ := add_bounds key r q
        unfold Partition.Overlaps at h ⊢
        rwa [hpl, hpu, hql, hqu]
      within := by
        intro p' hp' r' hr'
        obtain ⟨p, hp, rfl⟩ := List.mem_map.1 hp'
        obtain ⟨-, hl, hu⟩ := add_bounds key r p
        unfold Partition.Takes
        rw [hl, hu]
        unfold add at hr'
        split at hr'
        · next htakes =>
          rcases List.mem_append.1 hr' with hr' | hr'
          · exact t.within p hp r' hr'
          · exact List.mem_singleton.1 hr' ▸ htakes
        · exact t.within p hp r' hr' }
  else none

/-- The partitions that are dropped go with their rows. -/
def drop (f : Partition κ ρ → Bool) : Partitioned κ ρ key where
  parts := t.parts.filter fun p => !f p
  disjoint := t.disjoint.filter _
  within p hp := t.within p (List.mem_of_mem_filter hp)

variable {t} {t' : Partitioned κ ρ key} {p q : Partition κ ρ} {k : κ} {r : ρ} {name : String} {lower upper : κ}

theorem overlaps_of_takes (hp : p.Takes k) (hq : q.Takes k) : p.Overlaps q :=
  ⟨hp.1.trans_lt hq.2, hq.1.trans_lt hp.2⟩

theorem insert_isSome_iff : (t.insert r).isSome ↔ t.Covers (key r) := by
  unfold insert
  split <;> simp [*]

theorem parts_insert (h : t.insert r = some t') : t'.parts = t.parts.map (add key r) := by
  unfold insert at h
  split at h
  · cases h
    rfl
  · cases h

theorem map_add_of_forall {ps : List (Partition κ ρ)} (h : ∀ q ∈ ps, ¬ q.Takes (key r)) :
    ps.map (add key r) = ps :=
  (List.map_congr_left fun q hq => if_neg (h q hq)).trans (List.map_id ps)

theorem rows_map_add {ps : List (Partition κ ρ)} (hdisjoint : ps.Pairwise fun p q => ¬ p.Overlaps q)
    (hp : p ∈ ps) (hk : p.Takes (key r)) :
    ((ps.map (add key r)).flatMap (·.rows)).Perm (r :: ps.flatMap (·.rows)) := by
  induction ps with
  | nil => exact nomatch hp
  | cons q ps ih =>
    obtain ⟨hq, hps⟩ := List.pairwise_cons.1 hdisjoint
    rw [List.map_cons, List.flatMap_cons, List.flatMap_cons]
    by_cases hqk : q.Takes (key r)
    · rw [map_add_of_forall fun q' hq' hk' => hq q' hq' (overlaps_of_takes hqk hk'), add, if_pos hqk,
        List.append_assoc]
      exact List.perm_middle
    · rw [add, if_neg hqk]
      have hmem : p ∈ ps := by
        rcases List.mem_cons.1 hp with rfl | hp
        · exact absurd hk hqk
        · exact hp
      exact ((ih hps hmem).append_left q.rows).trans List.perm_middle

/-- The table has one row more. -/
theorem rows_insert (h : t.insert r = some t') : t'.rows.Perm (r :: t.rows) := by
  obtain ⟨p, hp, hk⟩ := insert_isSome_iff.1 (Option.isSome_iff_exists.2 ⟨t', h⟩)
  unfold rows
  rw [parts_insert h]
  exact rows_map_add t.disjoint hp hk

theorem parts_attach (h : t.attach name lower upper = some t') :
    t'.parts = t.parts ++ [⟨name, lower, upper, []⟩] := by
  unfold attach at h
  split at h
  · cases h
    rfl
  · cases h

theorem rows_attach (h : t.attach name lower upper = some t') : t'.rows = t.rows := by
  unfold rows
  rw [parts_attach h, List.flatMap_append]
  exact List.append_nil _

theorem attach_isSome_iff :
    (t.attach name lower upper).isSome ↔ ∀ p ∈ t.parts, ¬ p.Overlaps ⟨name, lower, upper, []⟩ := by
  unfold attach
  split
  · next h => exact iff_of_true rfl h
  · next h => exact iff_of_false nofun h

/-- What is dropped and what is kept are the rows of the table. -/
theorem rows_drop (t : Partitioned κ ρ key) (f : Partition κ ρ → Bool) :
    t.rows.Perm ((t.drop f).rows ++ (t.parts.filter f).flatMap (·.rows)) := by
  unfold rows drop
  rw [← List.flatMap_append]
  exact ((List.filter_append_perm f t.parts).symm.trans List.perm_append_comm).flatMap_right _

end Partitioned

end Lib
