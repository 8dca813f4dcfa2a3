import Mathlib.Data.List.Basic
import Mathlib.Data.List.Perm.Basic

/-!
# Machines driven by a list of events

A machine takes one step for every event.  `Each` says that every step of a run has a property of
the state before it and of its event.  `run_keeps` and `each_of_keeps` are the invariant rules,
under a condition that every step meets; `each_iff_of_keeps` turns an equivalence between two
properties of a step, true where the invariant holds, into one between two properties of a run.
`run_dichotomy` follows a run to the first step that does not have a property, and on from there.
`nodup_log_iff` is about a log that grows by what a step puts out.

`Simulates` says that what one machine does in a step is, seen from another machine, a list of steps
of that one; then so is every run (`Simulates.run`).

Where every step accounts for what it puts in and takes out, so does the run (`perm_seen`).

What some steps set and others reset holds if it was set, or held from the start, and was not reset
since (`holds_iff_since`).
-/

namespace Lib.Machine

variable {σ ε : Type} (step : σ → ε → σ)

/-- The state after the events. -/
def run (s : σ) (es : List ε) : σ := es.foldl step s

/-- Every step of the run has the property. -/
def Each (P : σ → ε → Prop) : σ → List ε → Prop
  | _, [] => True
  | s, e :: es => P s e ∧ Each P (step s e) es

instance Each.decidable (P : σ → ε → Prop) [∀ s e, Decidable (P s e)] :
    ∀ (es : List ε) (s : σ), Decidable (Each step P s es)
  | [], _ => .isTrue trivial
  | e :: es, s =>
    have := Each.decidable P es (step s e)
    inferInstanceAs (Decidable (P s e ∧ Each step P (step s e) es))

instance (P : σ → ε → Prop) [∀ s e, Decidable (P s e)] (s : σ) (es : List ε) :
    Decidable (Each step P s es) := Each.decidable step P es s

variable {step} {P C : σ → ε → Prop} {I : σ → Prop} {s : σ} {es : List ε}

@[simp] theorem run_nil : run step s [] = s := rfl

@[simp] theorem run_cons {e : ε} : run step s (e :: es) = run step (step s e) es := rfl

theorem run_append {es' : List ε} : run step s (es ++ es') = run step (run step s es) es' :=
  List.foldl_append

theorem run_snoc {e : ε} : run step s (es ++ [e]) = step (run step s es) e := run_append

theorem Each.and (h : Each step P s es) (h' : Each step C s es) :
    Each step (fun s e => P s e ∧ C s e) s es := by
  induction es generalizing s with
  | nil => trivial
  | cons e es ih => exact ⟨⟨h.1, h'.1⟩, ih h.2 h'.2⟩

theorem each_true (s : σ) (es : List ε) : Each step (fun _ _ => True) s es := by
  induction es generalizing s with
  | nil => trivial
  | cons e es ih => exact ⟨trivial, ih _⟩

/-- A property of the events alone. -/
theorem each_of_forall {Q : ε → Prop} (h : ∀ e ∈ es, Q e) : Each step (fun _ e => Q e) s es := by
  induction es generalizing s with
  | nil => trivial
  | cons e es ih =>
    exact ⟨h e List.mem_cons_self, ih fun e he => h e (List.mem_cons_of_mem _ he)⟩

theorem run_keeps (hI : ∀ s e, I s → C s e → I (step s e)) (hs : I s) (hC : Each step C s es) :
    I (run step s es) := by
  induction es generalizing s with
  | nil => exact hs
  | cons e es ih => exact ih (hI s e hs hC.1) hC.2

theorem each_of_keeps (hI : ∀ s e, I s → C s e → I (step s e)) (hP : ∀ s e, I s → C s e → P s e)
    (hs : I s) (hC : Each step C s es) : Each step P s es := by
  induction es generalizing s with
  | nil => trivial
  | cons e es ih => exact ⟨hP s e hs hC.1, ih (hI s e hs hC.1) hC.2⟩

/-- Where every step meets `G`, two properties that agree under the invariant hold along the same
runs. -/
theorem each_iff_of_keeps {G : σ → ε → Prop} (hI : ∀ s e, I s → G s e → C s e → I (step s e))
    (hPC : ∀ s e, I s → G s e → (P s e ↔ C s e)) (hs : I s) (hG : Each step G s es) :
    Each step P s es ↔ Each step C s es := by
  induction es generalizing s with
  | nil => exact Iff.rfl
  | cons e es ih =>
    constructor
    · rintro ⟨hP, hes⟩
      have hC := (hPC s e hs hG.1).1 hP
      exact ⟨hC, (ih (hI s e hs hG.1 hC) hG.2).1 hes⟩
    · rintro ⟨hC, hes⟩
      exact ⟨(hPC s e hs hG.1).2 hC, (ih (hI s e hs hG.1 hC) hG.2).2 hes⟩

/-- A run keeps `I` as long as every step has the property; from the first step on that has not, it
keeps `J`. -/
theorem run_dichotomy {J : σ → Prop} (hI : ∀ s e, I s → C s e → P s e → I (step s e))
    (hIJ : ∀ s e, I s → C s e → ¬ P s e → J (step s e)) (hJ : ∀ s e, J s → C s e → J (step s e))
    (hs : I s) (hC : Each step C s es) :
    (Each step P s es ∧ I (run step s es)) ∨ (¬ Each step P s es ∧ J (run step s es)) := by
  induction es generalizing s with
  | nil => exact .inl ⟨trivial, hs⟩
  | cons e es ih =>
    by_cases hP : P s e
    · rcases ih (hI s e hs hC.1 hP) hC.2 with ⟨heach, h⟩ | ⟨hnot, h⟩
      · exact .inl ⟨⟨hP, heach⟩, h⟩
      · exact .inr ⟨fun heach => hnot heach.2, h⟩
    · refine .inr ⟨fun heach => hP heach.1, ?_⟩
      rw [run_cons]
      exact run_keeps hJ (hIJ s e hs hC.1 hP) hC.2

/-- Nothing stands twice in a log if and only if no step puts out what stands there already. -/
theorem nodup_log_iff {α : Type} (log : σ → List α) {out : σ → ε → Option α}
    (hlog : ∀ s e, log (step s e) = (out s e).toList ++ log s) :
    (log (run step s es)).Nodup ↔
      (log s).Nodup ∧ Each step (fun s e => ∀ x ∈ out s e, x ∉ log s) s es := by
  induction es generalizing s with
  | nil => exact (and_iff_left trivial).symm
  | cons e es ih =>
    rw [run_cons, ih, Each, ← and_assoc, hlog]
    refine and_congr_left fun _ => ?_
    rcases out s e with _ | x
    · simp
    · simp [and_comm]

/-! ## One machine seen from another -/

section Simulation

variable {σ' ε' : Type} {step' : σ' → ε' → σ'} {view : σ → σ'} {events : σ → ε → List ε'}

/-- Under the invariant `I`, a step that meets `C` keeps it and is seen as the steps of `events`. -/
structure Simulates (step : σ → ε → σ) (step' : σ' → ε' → σ') (I : σ → Prop) (C : σ → ε → Prop)
    (view : σ → σ') (events : σ → ε → List ε') : Prop where
  keeps : ∀ s e, I s → C s e → I (step s e)
  view : ∀ s e, I s → C s e → view (step s e) = run step' (view s) (events s e)

/-- What is seen of a run. -/
def seen (step : σ → ε → σ) (events : σ → ε → List ε') : σ → List ε → List ε'
  | _, [] => []
  | s, e :: es => events s e ++ seen step events (step s e) es

theorem each_append {P : σ → ε → Prop} {s : σ} {es es' : List ε} :
    Each step P s (es ++ es') ↔ Each step P s es ∧ Each step P (run step s es) es' := by
  induction es generalizing s with
  | nil => exact (and_iff_right trivial).symm
  | cons e es ih => rw [List.cons_append, Each, ih, Each, run_cons, and_assoc]

theorem Simulates.run (h : Simulates step step' I C view events) (hs : I s) (hC : Each step C s es) :
    view (Machine.run step s es) = Machine.run step' (view s) (seen step events s es) := by
  induction es generalizing s with
  | nil => rfl
  | cons e es ih =>
    rw [run_cons, ih (h.keeps s e hs hC.1) hC.2, h.view s e hs hC.1, seen, run_append]

/-- A property of the steps that are seen. -/
theorem Simulates.each (h : Simulates step step' I C view events) {P' : σ' → ε' → Prop} (hs : I s)
    (hC : Each step C s es) :
    Each step' P' (view s) (seen step events s es) ↔
      Each step (fun s e => Each step' P' (view s) (events s e)) s es := by
  induction es generalizing s with
  | nil => exact Iff.rfl
  | cons e es ih =>
    rw [seen, each_append, Each, ← h.view s e hs hC.1, ih (h.keeps s e hs hC.1) hC.2]

/-- Where a step is seen as one at most, a step that is seen is a step of the run. -/
theorem exists_of_seen_cons (hle : ∀ s e, (events s e).length ≤ 1) {l l' : List ε'} {x : ε'}
    (h : seen step events s es = l ++ x :: l') :
    ∃ es₁ e es₂, es = es₁ ++ e :: es₂ ∧ seen step events s es₁ = l ∧
      events (Machine.run step s es₁) e = [x] ∧
      seen step events (step (Machine.run step s es₁) e) es₂ = l' := by
  induction es generalizing s l with
  | nil => exact nomatch List.append_eq_nil_iff.1 h.symm
  | cons e es ih =>
    rw [seen] at h
    have hone := hle s e
    rcases hev : events s e with _ | ⟨y, ys⟩
    · rw [hev, List.nil_append] at h
      obtain ⟨es₁, e', es₂, rfl, hl, hx, hl'⟩ := ih h
      refine ⟨e :: es₁, e', es₂, rfl, ?_, hx, hl'⟩
      rw [seen, hev, hl, List.nil_append]
    · rw [hev] at h hone
      obtain rfl : ys = [] := List.eq_nil_of_length_eq_zero (Nat.le_zero.1 (Nat.le_of_succ_le_succ hone))
      rcases l with _ | ⟨z, l⟩
      · obtain ⟨rfl, htail⟩ := List.cons.inj h
        exact ⟨[], e, es, rfl, rfl, hev, htail⟩
      · obtain ⟨rfl, htail⟩ := List.cons.inj h
        obtain ⟨es₁, e', es₂, rfl, hl, hx, hl'⟩ := ih htail
        refine ⟨e :: es₁, e', es₂, rfl, ?_, hx, hl'⟩
        rw [seen, hev, hl, List.singleton_append]

theorem each_of_seen {Q : ε' → Prop} (h : ∀ x ∈ seen step events s es, Q x) :
    Each step (fun s e => ∀ x ∈ events s e, Q x) s es := by
  induction es generalizing s with
  | nil => trivial
  | cons e es ih =>
    exact ⟨fun x hx => h x (List.mem_append_left _ hx), ih fun x hx => h x (List.mem_append_right _ hx)⟩

/-- What is there at the end or was taken out is what was there at the start or was put in. -/
theorem perm_seen {α : Type} (rows : σ → List α) {ins outs : σ → ε → List α}
    (hI : ∀ s e, I s → C s e → I (step s e))
    (hrows : ∀ s e, I s → C s e → (rows (step s e) ++ outs s e).Perm (rows s ++ ins s e))
    (hs : I s) (hC : Each step C s es) :
    (rows (Machine.run step s es) ++ seen step outs s es).Perm (rows s ++ seen step ins s es) := by
  induction es generalizing s with
  | nil => exact .refl _
  | cons e es ih =>
    rw [run_cons, seen, seen, ← List.append_assoc (rows s)]
    refine List.perm_append_comm_assoc _ _ _ |>.trans ?_
    refine ((ih (hI s e hs hC.1) hC.2).append_left (outs s e)).trans ?_
    rw [← List.append_assoc]
    exact ((List.perm_append_comm.trans (hrows s e hs hC.1))).append_right _

/-- A count that grows by what is taken out. -/
theorem count_seen {α : Type} (count : σ → Nat) {outs : σ → ε → List α}
    (hI : ∀ s e, I s → C s e → I (step s e))
    (hcount : ∀ s e, I s → C s e → count (step s e) = count s + (outs s e).length)
    (hs : I s) (hC : Each step C s es) :
    count (Machine.run step s es) = count s + (seen step outs s es).length := by
  induction es generalizing s with
  | nil => rfl
  | cons e es ih =>
    rw [run_cons, ih (hI s e hs hC.1) hC.2, hcount s e hs hC.1, seen, List.length_append, Nat.add_assoc]

end Simulation

/-! ## What was set, and not reset since -/

/-- Set by a step of the run, or held from the start, and not reset after it. -/
def Since (step : σ → ε → σ) (H : σ → Prop) (sets resets : σ → ε → Prop) (s : σ) (es : List ε) : Prop :=
  (H s ∧ Each step (fun s e => ¬ resets s e) s es) ∨
  ∃ es₁ e es₂, es = es₁ ++ e :: es₂ ∧ sets (run step s es₁) e ∧
    Each step (fun s e => ¬ resets s e) (run step s (es₁ ++ [e])) es₂

theorem holds_iff_since {H : σ → Prop} {sets resets : σ → ε → Prop}
    (hI : ∀ s e, I s → C s e → I (step s e))
    (hH : ∀ s e, I s → C s e → (H (step s e) ↔ sets s e ∨ (H s ∧ ¬ resets s e)))
    (hs : I s) (hC : Each step C s es) : H (run step s es) ↔ Since step H sets resets s es := by
  induction es generalizing s with
  | nil =>
    refine ⟨fun h => .inl ⟨h, trivial⟩, ?_⟩
    rintro (⟨h, -⟩ | ⟨es₁, e, es₂, hnil, -⟩)
    · exact h
    · exact absurd hnil (by simp)
  | cons e es ih =>
    rw [run_cons, ih (hI s e hs hC.1) hC.2]
    constructor
    · rintro (⟨h, hes⟩ | ⟨es₁, e', es₂, rfl, hset, hes⟩)
      · rcases (hH s e hs hC.1).1 h with hset | ⟨h, hr⟩
        · exact .inr ⟨[], e, es, rfl, hset, hes⟩
        · exact .inl ⟨h, hr, hes⟩
      · exact .inr ⟨e :: es₁, e', es₂, rfl, hset, hes⟩
    · rintro (⟨h, hr, hes⟩ | ⟨es₁, e', es₂, hsplit, hset, hes⟩)
      · exact .inl ⟨(hH s e hs hC.1).2 (.inr ⟨h, hr⟩), hes⟩
      · rcases es₁ with _ | ⟨x, es₁⟩
        · obtain ⟨rfl, rfl⟩ := List.cons.inj hsplit
          exact .inl ⟨(hH s e hs hC.1).2 (.inl hset), hes⟩
        · obtain ⟨rfl, rfl⟩ := List.cons.inj hsplit
          exact .inr ⟨es₁, e', es₂, rfl, hset, hes⟩

end Lib.Machine
