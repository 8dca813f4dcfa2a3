import IntentX.Lib.Machine
import Mathlib.Data.List.Induction

/-!
# Reading through a cache

A reader that finds nothing cached asks the source and stores its answer.  What is stored can be
found for its time to live, unless it is removed before that.  The source changes meanwhile, and
nothing keeps a reader from storing what it read before a removal.

What is found is an answer of the source from when a reader asked it, stored by this reader no later
than it takes to, found no later than the time to live after that, and not removed since (`Recent`,
`lookup_recent`).
-/

namespace Lib.ReadThrough

open Machine

/-- What is stored, and until when it can be found. -/
structure Entry (α : Type) where
  value : α
  expires : Nat

/-- An answer of the source, and when it was read. -/
structure Read (κ α : Type) where
  key : κ
  value : α
  since : Nat

@[ext] structure Store (σ κ α ι : Type) where
  now : Nat
  source : σ
  entries : κ → Option (Entry α)
  held : ι → Option (Read κ α)

inductive Event (σ κ ι : Type)
  | tick (d : Nat)
  | change (source : σ)
  /-- the reader asks the source -/
  | fetch (i : ι) (k : κ)
  /-- the reader stores what it read -/
  | fill (i : ι)
  /-- the reader does not store what it read -/
  | forget (i : ι)
  /-- the entries of these keys are removed -/
  | drop (gone : κ → Bool)

section Stores

variable {σ κ α ι : Type} [DecidableEq κ] [DecidableEq ι] (look : σ → κ → Option α) (ttl : κ → Nat)

def Store.new (source : σ) : Store σ κ α ι := ⟨0, source, fun _ => none, fun _ => none⟩

def Store.hold (s : Store σ κ α ι) (i : ι) (r : Option (Read κ α)) : ι → Option (Read κ α) :=
  fun j => if j = i then r else s.held j

/-- What is found under the key. -/
def Store.lookup (s : Store σ κ α ι) (k : κ) : Option α :=
  match s.entries k with
  | some e => if s.now ≤ e.expires then some e.value else none
  | none => none

def step (s : Store σ κ α ι) : Event σ κ ι → Store σ κ α ι
  | .tick d => { s with now := s.now + d }
  | .change source => { s with source := source }
  | .fetch i k => { s with held := s.hold i ((look s.source k).map fun v => ⟨k, v, s.now⟩) }
  | .fill i =>
    match s.held i with
    | some r =>
      { s with
        entries := fun k => if k = r.key then some ⟨r.value, s.now + ttl k⟩ else s.entries k
        held := s.hold i none }
    | none => s
  | .forget i => { s with held := s.hold i none }
  | .drop gone => { s with entries := fun k => if gone k then none else s.entries k }

/-- A reader stores what it read at most `D` ago. -/
def Within (D : Nat) (s : Store σ κ α ι) : Event σ κ ι → Prop
  | .fill i => ∀ r ∈ s.held i, s.now ≤ r.since + D
  | _ => True

/-- In the run of `es` from `s` the source answered the reader `i` with `r.value` at the time
`r.since`. -/
def Answered (s : Store σ κ α ι) (es : List (Event σ κ ι)) (i : ι) (r : Read κ α) : Prop :=
  ∃ es₁ es₂, es = es₁ ++ .fetch i r.key :: es₂ ∧
    look (run (step look ttl) s es₁).source r.key = some r.value ∧ (run (step look ttl) s es₁).now = r.since

/-- In the run of `es` from `s` a reader stored `v`, which the source had answered it at most `D`
before, when the time was `stored`, and it was not removed since. -/
def Recent (D : Nat) (s : Store σ κ α ι) (es : List (Event σ κ ι)) (k : κ) (v : α) (stored : Nat) : Prop :=
  ∃ i since es₁ es₂, es = es₁ ++ .fill i :: es₂ ∧
    (run (step look ttl) s es₁).held i = some ⟨k, v, since⟩ ∧ Answered look ttl s es₁ i ⟨k, v, since⟩ ∧
    (run (step look ttl) s es₁).now = stored ∧ stored ≤ since + D ∧
    ∀ gone, Event.drop gone ∈ es₂ → gone k = false

variable {look ttl} {s s₀ : Store σ κ α ι} {es : List (Event σ κ ι)} {D : Nat} {k : κ} {v : α} {i : ι}

omit [DecidableEq κ] in
theorem mem_hold {j : ι} {b : Option (Read κ α)} {r : Read κ α} (h : s.hold i b j = some r) :
    (j = i ∧ b = some r) ∨ s.held j = some r := by
  unfold Store.hold at h
  split at h
  · exact .inl ⟨‹_›, h⟩
  · exact .inr h

theorem Recent.snoc {t : Nat} (h : Recent look ttl D s₀ es k v t) {e : Event σ κ ι}
    (he : ∀ gone, e = .drop gone → gone k = false) : Recent look ttl D s₀ (es ++ [e]) k v t := by
  obtain ⟨i, since, es₁, es₂, rfl, hheld, hans, ht, hD, hdrop⟩ := h
  refine ⟨i, since, es₁, es₂ ++ [e], List.append_assoc .., hheld, hans, ht, hD, fun gone hmem => ?_⟩
  rcases List.mem_append.1 hmem with hmem | hmem
  · exact hdrop gone hmem
  · exact he gone (List.mem_singleton.1 hmem).symm

theorem Answered.snoc {r : Read κ α} (h : Answered look ttl s₀ es i r) (e : Event σ κ ι) :
    Answered look ttl s₀ (es ++ [e]) i r := by
  obtain ⟨es₁, es₂, rfl, hv, hsince⟩ := h
  exact ⟨es₁, es₂ ++ [e], List.append_assoc .., hv, hsince⟩

/-- What a reader read is stored: from now on it can be found. -/
theorem Answered.recent {r : Read κ α} (h : Answered look ttl s₀ es i r)
    (hheld : (run (step look ttl) s₀ es).held i = some r)
    (hD : (run (step look ttl) s₀ es).now ≤ r.since + D) :
    Recent look ttl D s₀ (es ++ [.fill i]) r.key r.value (run (step look ttl) s₀ es).now :=
  ⟨i, r.since, es, [], rfl, hheld, h, rfl, hD, nofun⟩

/-- What is stored and what was read, after a run from `s₀`. -/
structure Store.Traced (look : σ → κ → Option α) (ttl : κ → Nat) (D : Nat) (s₀ : Store σ κ α ι)
    (es : List (Event σ κ ι)) (s : Store σ κ α ι) : Prop where
  entries : ∀ k, ∀ e ∈ s.entries k, ∃ t, e.expires = t + ttl k ∧ Recent look ttl D s₀ es k e.value t
  held : ∀ i, ∀ r ∈ s.held i, Answered look ttl s₀ es i r

theorem traced_step {e : Event σ κ ι}
    (h : Store.Traced look ttl D s₀ es (run (step look ttl) s₀ es))
    (hD : Within D (run (step look ttl) s₀ es) e) :
    Store.Traced look ttl D s₀ (es ++ [e]) (run (step look ttl) s₀ (es ++ [e])) := by
  have hentries : (∀ gone, e ≠ .drop gone) → ∀ k, ∀ x ∈ (run (step look ttl) s₀ es).entries k,
      ∃ t, x.expires = t + ttl k ∧ Recent look ttl D s₀ (es ++ [e]) k x.value t := by
    intro hne k x hx
    obtain ⟨t, ht, hrecent⟩ := h.entries k x hx
    exact ⟨t, ht, hrecent.snoc fun gone he => absurd he (hne gone)⟩
  have hheld : ∀ i, ∀ r ∈ (run (step look ttl) s₀ es).held i, Answered look ttl s₀ (es ++ [e]) i r :=
    fun i r hr => (h.held i r hr).snoc e
  rw [run_snoc]
  cases e with
  | tick d => exact ⟨hentries nofun, hheld⟩
  | change source => exact ⟨hentries nofun, hheld⟩
  | fetch i k =>
    refine ⟨hentries nofun, fun j r hr => ?_⟩
    rcases mem_hold hr with ⟨hj, hread⟩ | hold
    · obtain ⟨v, hv, rfl⟩ := Option.map_eq_some_iff.1 hread
      exact hj ▸ ⟨es, [], rfl, hv, rfl⟩
    · exact hheld j r hold
  | fill i =>
    cases hi : (run (step look ttl) s₀ es).held i with
    | none =>
      simp only [step, hi]
      exact ⟨hentries nofun, hheld⟩
    | some r =>
      simp only [step, hi]
      refine ⟨fun k x hx => ?_, fun j r' hr => ?_⟩
      · dsimp only at hx
        split at hx
        · rename_i hk
          subst hk
          obtain rfl := Option.some.inj hx
          exact ⟨_, rfl, (h.held i r hi).recent hi (hD r hi)⟩
        · exact hentries nofun k x hx
      · rcases mem_hold hr with ⟨-, hr⟩ | hr
        · exact nomatch hr
        · exact hheld j r' hr
  | forget i =>
    refine ⟨hentries nofun, fun j r hr => ?_⟩
    rcases mem_hold hr with ⟨-, hr⟩ | hr
    · exact nomatch hr
    · exact hheld j r hr
  | drop gone =>
    refine ⟨fun k x hx => ?_, hheld⟩
    simp only [step, Option.mem_def] at hx
    split at hx
    · exact nomatch hx
    · rename_i hk
      obtain ⟨t, ht, hrecent⟩ := h.entries k x hx
      refine ⟨t, ht, hrecent.snoc fun gone' he => ?_⟩
      obtain rfl := Event.drop.inj he
      exact Bool.eq_false_iff.2 hk

theorem traced_run (source : σ) (hD : Each (step look ttl) (Within D) (Store.new source) es) :
    Store.Traced look ttl D (Store.new source) es (run (step look ttl) (Store.new source) es) := by
  induction es using List.reverseRecOn with
  | nil => exact ⟨nofun, nofun⟩
  | append_singleton es e ih =>
    obtain ⟨hes, he, -⟩ := each_append.1 hD
    exact traced_step (ih hes) he

/-- **What is found is recent.** -/
theorem lookup_recent {source : σ} (hD : Each (step look ttl) (Within D) (Store.new source) es)
    (h : (run (step look ttl) (Store.new source) es).lookup k = some v) :
    ∃ t, (run (step look ttl) (Store.new source) es).now ≤ t + ttl k ∧
      Recent look ttl D (Store.new source) es k v t := by
  unfold Store.lookup at h
  split at h
  · rename_i e he
    split at h
    · rename_i hnow
      obtain rfl := Option.some.inj h
      obtain ⟨t, ht, hrecent⟩ := (traced_run source hD).entries k e he
      exact ⟨t, ht ▸ hnow, hrecent⟩
    · exact nomatch h
  · exact nomatch h

end Stores

end Lib.ReadThrough
