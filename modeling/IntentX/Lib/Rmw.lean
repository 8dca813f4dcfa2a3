import IntentX.Lib.Machine

/-!
# Reading, changing and writing back

Tasks change a cell without holding it: each reads the value, applies its change to what it read, and
writes the result back.  A write is fresh if what was read is still there.

If every change makes the value larger in rank by so much, whatever it is applied to, the cell holds
what the changes make of its first value one after the other if and only if every write was fresh;
otherwise its rank is too small, from the first write on that was not (`value_eq_iff`).
-/

namespace Lib.Rmw

open Machine

/-- The value of a cell, the one that it started with, what the tasks have read, and the changes that
were written, the latest first. -/
structure Cell (α δ ι : Type) where
  first : α
  value : α
  held : ι → Option α
  written : List δ

inductive Event (δ ι : Type)
  /-- the task reads the value -/
  | take (i : ι)
  /-- the task starts from the first value, whatever the present one is -/
  | assume (i : ι)
  /-- the task writes back what it read, changed -/
  | put (i : ι) (d : δ)
  /-- the task gives up -/
  | drop (i : ι)

section Cells

variable {α δ ι : Type} [DecidableEq ι] (apply : δ → α → α)

def Cell.new (a : α) : Cell α δ ι := ⟨a, a, fun _ => none, []⟩

def Cell.hold (c : Cell α δ ι) (i : ι) (a : Option α) : ι → Option α :=
  fun j => if j = i then a else c.held j

def step (c : Cell α δ ι) : Event δ ι → Cell α δ ι
  | .take i => { c with held := c.hold i (some c.value) }
  | .assume i => { c with held := c.hold i (some c.first) }
  | .put i d =>
    match c.held i with
    | some a => { c with value := apply d a, held := c.hold i none, written := d :: c.written }
    | none => c
  | .drop i => { c with held := c.hold i none }

/-- What the changes make of the first value, one after the other. -/
def Cell.serial (c : Cell α δ ι) : α := c.written.foldr apply c.first

/-- What is written back was read from the present value. -/
def Fresh (c : Cell α δ ι) : Event δ ι → Prop
  | .put i _ => ∀ a ∈ c.held i, a = c.value
  | _ => True

/-- Every change raises the rank by its weight, which is not zero. -/
structure Raises (rank : α → Nat) (weight : δ → Nat) : Prop where
  rank : ∀ d a, rank (apply d a) = rank a + weight d
  pos : ∀ d, 0 < weight d

variable {apply} {rank : α → Nat} {weight : δ → Nat} {c : Cell α δ ι}

/-- What has been read is the value, or of a smaller rank. -/
structure Cell.Exact (apply : δ → α → α) (rank : α → Nat) (c : Cell α δ ι) : Prop where
  value : c.value = c.serial apply
  first : c.first = c.value ∨ rank c.first < rank c.value
  held : ∀ i, ∀ a ∈ c.held i, a = c.value ∨ rank a < rank c.value

/-- Whatever is there or has been read is of too small a rank. -/
structure Cell.Short (apply : δ → α → α) (rank : α → Nat) (c : Cell α δ ι) : Prop where
  value : rank c.value < rank (c.serial apply)
  first : rank c.first < rank (c.serial apply)
  held : ∀ i, ∀ a ∈ c.held i, rank a < rank (c.serial apply)

theorem hold_self (c : Cell α δ ι) (i : ι) (a : Option α) : c.hold i a i = a := if_pos rfl

theorem mem_hold {i j : ι} {a : α} {b : Option α} (h : a ∈ c.hold i b j) : a ∈ b ∨ a ∈ c.held j := by
  unfold Cell.hold at h
  split at h
  · exact .inl h
  · exact .inr h

theorem exact_hold (h : c.Exact apply rank) {i : ι} {b : Option α}
    (hb : ∀ a ∈ b, a = c.value ∨ rank a < rank c.value) :
    Cell.Exact apply rank { c with held := c.hold i b } :=
  ⟨h.value, h.first, fun j a ha => (mem_hold ha).elim (hb a) (h.held j a)⟩

theorem short_hold (h : c.Short apply rank) {i : ι} {b : Option α}
    (hb : ∀ a ∈ b, rank a < rank (c.serial apply)) : Cell.Short apply rank { c with held := c.hold i b } :=
  ⟨h.value, h.first, fun j a ha => (mem_hold ha).elim (hb a) (h.held j a)⟩

omit [DecidableEq ι] in
theorem exact_new (a : α) : (Cell.new a : Cell α δ ι).Exact apply rank := ⟨rfl, .inl rfl, nofun⟩

theorem exact_step (hr : Raises apply rank weight) {e : Event δ ι} (h : c.Exact apply rank)
    (hf : Fresh c e) : (step apply c e).Exact apply rank := by
  cases e with
  | take i => exact exact_hold h fun a ha => .inl (Option.some.inj ha).symm
  | assume i =>
    refine exact_hold h fun a ha => ?_
    obtain rfl := Option.some.inj ha
    exact h.first
  | drop i => exact exact_hold h nofun
  | put i d =>
    cases hi : c.held i with
    | none =>
      simp only [step, hi]
      exact h
    | some a =>
      obtain rfl : a = c.value := hf a hi
      have hlt : rank c.value < rank (apply d c.value) := by
        rw [hr.rank]
        exact Nat.lt_add_of_pos_right (hr.pos d)
      have hup : ∀ b, b = c.value ∨ rank b < rank c.value → rank b < rank (apply d c.value) := by
        rintro b (rfl | hb)
        · exact hlt
        · exact Nat.lt_trans hb hlt
      simp only [step, hi]
      refine ⟨?_, .inr (hup _ h.first), fun j b hb => .inr ?_⟩
      · show apply d c.value = apply d (c.serial apply)
        rw [← h.value]
      · exact (mem_hold hb).elim (fun hb => nomatch hb) fun hb => hup b (h.held j b hb)

/-- Once everything is of too small a rank, it stays so. -/
theorem short_step (hr : Raises apply rank weight) {e : Event δ ι} (h : c.Short apply rank) :
    (step apply c e).Short apply rank := by
  cases e with
  | take i => exact short_hold h fun a ha => (Option.some.inj ha) ▸ h.value
  | assume i => exact short_hold h fun a ha => (Option.some.inj ha) ▸ h.first
  | drop i => exact short_hold h nofun
  | put i d =>
    cases hi : c.held i with
    | none =>
      simp only [step, hi]
      exact h
    | some a =>
      have hserial : rank (apply d (c.serial apply)) = rank (c.serial apply) + weight d := hr.rank d _
      have hpos := hr.pos d
      simp only [step, hi]
      refine ⟨?_, ?_, fun j b hb => ?_⟩
      · show rank (apply d a) < rank (apply d (c.serial apply))
        rw [hr.rank, hserial]
        exact Nat.add_lt_add_right (h.held i a hi) _
      · show rank c.first < rank (apply d (c.serial apply))
        have hfirst := h.first
        omega
      · show rank b < rank (apply d (c.serial apply))
        have hb := (mem_hold hb).elim (fun hb => nomatch hb) (h.held j b)
        omega

/-- A write that is not fresh. -/
theorem short_of_stale (hr : Raises apply rank weight) {e : Event δ ι} (h : c.Exact apply rank)
    (hf : ¬ Fresh c e) : (step apply c e).Short apply rank := by
  cases e with
  | take i => exact absurd trivial hf
  | assume i => exact absurd trivial hf
  | drop i => exact absurd trivial hf
  | put i d =>
    simp only [Fresh, not_forall] at hf
    obtain ⟨a, hi, hne⟩ := hf
    have hlt : rank a < rank c.value := (h.held i a hi).resolve_left hne
    have hserial : rank (apply d (c.serial apply)) = rank c.value + weight d := by
      rw [hr.rank, h.value]
    have hpos := hr.pos d
    have hup : ∀ b, b = c.value ∨ rank b < rank c.value → rank b < rank (apply d (c.serial apply)) := by
      rintro b (rfl | hb) <;> omega
    have hi : c.held i = some a := hi
    simp only [step, hi]
    refine ⟨?_, hup _ h.first, fun j b hb => ?_⟩
    · show rank (apply d a) < rank (apply d (c.serial apply))
      rw [hr.rank, hserial]
      exact Nat.add_lt_add_right hlt _
    · exact (mem_hold hb).elim (fun hb => nomatch hb) fun hb => hup b (h.held j b hb)

/-- **The value is that of the changes one after the other if and only if every write was fresh.** -/
theorem value_eq_iff (hr : Raises apply rank weight) {a : α} {es : List (Event δ ι)} :
    (run (step apply) (.new a) es).value = (run (step apply) (.new a) es).serial apply ↔
      Each (step apply) Fresh (.new a) es := by
  rcases run_dichotomy (I := Cell.Exact apply rank) (J := Cell.Short apply rank) (P := Fresh)
      (fun _ _ h _ hf => exact_step hr h hf) (fun _ _ h _ hf => short_of_stale hr h hf)
      (fun _ _ h _ => short_step hr h) (exact_new a) (each_true _ es : Each (step apply) _ (.new a) es) with ⟨heach, h⟩ | ⟨hnot, h⟩
  · exact ⟨fun _ => heach, fun _ => h.value⟩
  · refine ⟨fun heq => ?_, fun heach => absurd heach hnot⟩
    have hlt := h.value
    rw [heq] at hlt
    exact absurd hlt (Nat.lt_irrefl _)

end Cells

end Lib.Rmw
