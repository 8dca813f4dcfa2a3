import IntentX.Lib.Fault
import Mathlib.Data.List.Nodup
import Mathlib.Logic.Function.Basic
import Mathlib.Logic.Relation

/-!
# Concurrent transactions with row locks

Each of a family of threads runs a call inside a transaction against one store.  An operation sees
the committed store with the thread's own writes on top (`view`); it first takes the lock it needs,
and waits while another thread holds it.  Operations may fail, commits may fail, and a call that
ends with an error is rolled back: only a commit changes the store.

When every call starts with an operation that takes one common lock (or else gives up), the
threads run one after the other whatever the interleaving: every reachable store is the result of
running the committed calls alone, in the order of their commits (`Tx.reach_serial`).
-/

namespace Lib

namespace Tx

variable {Op : Type} {Reply : Op → Type} {ε E α σ ι ρ : Type}

/-- A thread is inside its transaction, with the operations it has done, or has returned. -/
inductive Phase (Op : Type) (Reply : Op → Type) (ε E α : Type) where
  | running (p : Prog Op Reply ε (Except E α)) (done : List Op)
  | returned (r : Except E α)

def Phase.result : Phase Op Reply ε E α → Option (Except E α)
  | .running .. => none
  | .returned r => some r

structure Sys (Op : Type) (Reply : Op → Type) (ε E α σ ι ρ : Type) where
  store : σ
  threads : ι → Phase Op Reply ε E α
  owner : ρ → Option ι

/-- The store with the operations of a transaction on top. -/
def view (h : Handler Op Reply ε σ) (done : List Op) (s : σ) : σ :=
  done.foldl (fun s o => (h o s).2) s

/-- The locks after thread `i` has given back its own. -/
def release [DecidableEq ι] (owner : ρ → Option ι) (i : ι) : ρ → Option ι :=
  fun r => if owner r = some i then none else owner r

/-- What a thread does in one step. -/
inductive Act (ε E : Type) where
  | exec
  | fail (e : ε)
  | commit
  | commitFail (e : E)
  | rollback

section Steps

variable [DecidableEq ι] [DecidableEq ρ] (h : Handler Op Reply ε σ) (lock : Op → σ → Option ρ)

inductive Step (i : ι) : Act ε E → Sys Op Reply ε E α σ ι ρ → Sys Op Reply ε E α σ ι ρ → Prop
  | exec {c o k done} (ht : c.threads i = .running (.call o k) done)
      (hl : ∀ r, lock o (view h done c.store) = some r → c.owner r = none ∨ c.owner r = some i) :
      Step i .exec c
        { c with
          threads := Function.update c.threads i
            (.running (k (h o (view h done c.store)).1) (done ++ [o]))
          owner := fun r =>
            if lock o (view h done c.store) = some r then some i else c.owner r }
  | fail {c o k done e} (ht : c.threads i = .running (.call o k) done) :
      Step i (.fail e) c
        { c with threads := Function.update c.threads i (.running (k (.error e)) done) }
  | commit {c a done} (ht : c.threads i = .running (.ret (.ok a)) done) :
      Step i .commit c
        { store := view h done c.store
          threads := Function.update c.threads i (.returned (.ok a))
          owner := release c.owner i }
  | commitFail {c a done e} (ht : c.threads i = .running (.ret (.ok a)) done) :
      Step i (.commitFail e) c
        { c with
          threads := Function.update c.threads i (.returned (.error e))
          owner := release c.owner i }
  | rollback {c e done} (ht : c.threads i = .running (.ret (.error e)) done) :
      Step i .rollback c
        { c with
          threads := Function.update c.threads i (.returned (.error e))
          owner := release c.owner i }

/-- Any thread takes any of its steps. -/
def Reach : Sys Op Reply ε E α σ ι ρ → Sys Op Reply ε E α σ ι ρ → Prop :=
  Relation.ReflTransGen fun c c' => ∃ i act, Step h lock i act c c'

/-- All threads are at the start of their calls and no lock is held. -/
def start (P : ι → Prog Op Reply ε (Except E α)) (s : σ) : Sys Op Reply ε E α σ ι ρ :=
  ⟨s, fun i => .running (P i) [], fun _ => none⟩

end Steps

section Facts

variable [DecidableEq ι] [DecidableEq ρ] {h : Handler Op Reply ε σ} {lock : Op → σ → Option ρ}
  {c c' : Sys Op Reply ε E α σ ι ρ} {i j : ι} {act : Act ε E}

/-- A thread that returns an error leaves the store as it was. -/
theorem Step.store_of_error {e : E} (hs : Step h lock i act c c')
    (he : c'.threads i = .returned (.error e)) : c'.store = c.store := by
  cases hs with
  | commit ht =>
    simp only [Function.update_self] at he
    cases he
  | exec ht hl => rfl
  | fail ht => rfl
  | commitFail ht => rfl
  | rollback ht => rfl

/-- A thread that has failed with `e` returns `e`. -/
theorem Step.failed {e : E} (hs : Step h lock i act c c')
    (hj : (∃ done, c.threads j = .running (.ret (.error e)) done) ∨ c.threads j = .returned (.error e)) :
    (∃ done, c'.threads j = .running (.ret (.error e)) done) ∨ c'.threads j = .returned (.error e) := by
  by_cases hji : j = i
  · subst hji
    cases hs <;> rename_i ht <;> simp_all
  · have hsame : c'.threads j = c.threads j := by
      cases hs <;> exact Function.update_of_ne hji _ _
    rwa [hsame]

theorem Reach.failed {e : E} (hr : Reach h lock c c')
    (hj : (∃ done, c.threads j = .running (.ret (.error e)) done) ∨ c.threads j = .returned (.error e)) :
    (∃ done, c'.threads j = .running (.ret (.error e)) done) ∨ c'.threads j = .returned (.error e) := by
  induction hr with
  | refl => exact hj
  | tail _ hstep ih =>
    obtain ⟨i, act, hs⟩ := hstep
    exact hs.failed ih

end Facts

/-! ## Schedules -/

section Schedule

variable [DecidableEq ι] [DecidableEq ρ] (h : Handler Op Reply ε σ) (lock : Op → σ → Option ρ)

/-- The lock an operation needs is free or held by the thread. -/
def grants (c : Sys Op Reply ε E α σ ι ρ) (i : ι) : Option ρ → Bool
  | none => true
  | some r => decide (c.owner r = none ∨ c.owner r = some i)

/-- The next operation, the commit or the rollback of thread `i`, where it is not blocked. -/
def next (c : Sys Op Reply ε E α σ ι ρ) (i : ι) : Option (Sys Op Reply ε E α σ ι ρ) :=
  match c.threads i with
  | .running (.call o k) done =>
    if grants c i (lock o (view h done c.store)) then
      some { c with
        threads := Function.update c.threads i
          (.running (k (h o (view h done c.store)).1) (done ++ [o]))
        owner := fun r => if lock o (view h done c.store) = some r then some i else c.owner r }
    else none
  | .running (.ret (.ok a)) done =>
    some ⟨view h done c.store, Function.update c.threads i (.returned (.ok a)), release c.owner i⟩
  | .running (.ret (.error e)) _ =>
    some { c with
      threads := Function.update c.threads i (.returned (.error e)), owner := release c.owner i }
  | .returned _ => none

/-- Let the threads of the schedule move in turn. -/
def play (c : Sys Op Reply ε E α σ ι ρ) : List ι → Option (Sys Op Reply ε E α σ ι ρ)
  | [] => some c
  | i :: is => (next h lock c i).bind fun c' => play c' is

variable {h lock}

theorem next_reach {c c' : Sys Op Reply ε E α σ ι ρ} {i : ι} (hn : next h lock c i = some c') :
    Reach h lock c c' := by
  unfold next at hn
  split at hn
  · next o k done ht =>
    split at hn
    · next hg =>
      cases hn
      refine .single ⟨i, .exec, .exec ht fun r hr => ?_⟩
      rw [hr] at hg
      exact of_decide_eq_true hg
    · cases hn
  · next ht => cases hn; exact .single ⟨i, .commit, .commit ht⟩
  · next ht => cases hn; exact .single ⟨i, .rollback, .rollback ht⟩
  · cases hn

theorem play_reach {c c' : Sys Op Reply ε E α σ ι ρ} {is : List ι}
    (hp : play h lock c is = some c') : Reach h lock c c' := by
  induction is generalizing c with
  | nil =>
    cases hp
    exact .refl
  | cons i is ih =>
    obtain ⟨c₁, hn, hrest⟩ := Option.bind_eq_some_iff.1 hp
    exact (next_reach hn).trans (ih hrest)

end Schedule

/-! ## Partial runs -/

/-- `P`, run alone from `s`, has done the operations `done` and is now at `p`. -/
inductive Runs (h : Handler Op Reply ε σ) (P : Prog Op Reply ε (Except E α)) (s : σ) :
    List Op → Prog Op Reply ε (Except E α) → Prop
  | refl : Runs h P s [] P
  | step {done o k} (hr : Runs h P s done (.call o k)) :
      Runs h P s (done ++ [o]) (k (h o (view h done s)).1)

section Runs

variable {h : Handler Op Reply ε σ} {P p : Prog Op Reply ε (Except E α)} {s : σ} {done : List Op}

@[simp] theorem view_nil : view h [] s = s := rfl

theorem view_append (o : Op) : view h (done ++ [o]) s = (h o (view h done s)).2 := by
  unfold view
  rw [List.foldl_append]
  rfl

/-- What is left to run gives what the whole gives. -/
theorem Runs.run (hr : Runs h P s done p) : Prog.run h P s = Prog.run h p (view h done s) := by
  induction hr with
  | refl => rfl
  | step hr ih =>
    rw [ih, view_append]
    rfl

theorem Runs.failFast (hr : Runs h P s done p) (hP : P.FailFast) : p.FailFast := by
  induction hr with
  | refl => exact hP
  | @step done o k hr ih =>
    rcases hv : (h o (view h done s)).1 with e | r
    · obtain ⟨e', he⟩ := ih.1 e
      rw [he]
      trivial
    · exact ih.2 r

end Runs

/-! ## One common lock -/

/-- Every call starts with an operation that takes the lock `L`, or that makes it give up. -/
structure CommonLock (h : Handler Op Reply ε σ) (lock : Op → σ → Option ρ) (L : ρ)
    (P : ι → Prog Op Reply ε (Except E α)) : Prop where
  first : ∀ i, ∃ o k, P i = .call o k ∧
    ∀ s, lock o s = some L ∨ ∃ e, k (h o s).1 = .ret (.error e)
  failFast : ∀ i, (P i).FailFast

/-- The calls of `order`, run alone one after the other, all succeed and lead from `s₀` to `s`. -/
inductive Serial (h : Handler Op Reply ε σ) (P : ι → Prog Op Reply ε (Except E α)) (s₀ : σ) :
    List ι → σ → Prop
  | nil : Serial h P s₀ [] s₀
  | snoc {order s i a s'} (hs : Serial h P s₀ order s) (hr : Prog.run h (P i) s = (.ok a, s')) :
      Serial h P s₀ (order ++ [i]) s'

/-- A thread has not begun, has failed, or holds the lock and has run a part of its call on the
store as it is. -/
def ThreadInv (h : Handler Op Reply ε σ) (L : ρ) (P : ι → Prog Op Reply ε (Except E α))
    (c : Sys Op Reply ε E α σ ι ρ) (i : ι) : Prop :=
  match c.threads i with
  | .returned _ => True
  | .running p done => (p = P i ∧ done = []) ∨ (∃ e, p = .ret (.error e)) ∨
      (c.owner L = some i ∧ Runs h (P i) c.store done p)

/-- The store is the serial run of the threads that have committed. -/
structure Inv (h : Handler Op Reply ε σ) (L : ρ) (P : ι → Prog Op Reply ε (Except E α)) (s₀ : σ)
    (order : List ι) (c : Sys Op Reply ε E α σ ι ρ) : Prop where
  threads : ∀ i, ThreadInv h L P c i
  serial : Serial h P s₀ order c.store
  committed : ∀ i, (∃ a, c.threads i = .returned (.ok a)) ↔ i ∈ order
  nodup : order.Nodup

section Common

variable {h : Handler Op Reply ε σ} {lock : Op → σ → Option ρ} {L : ρ}
  {P : ι → Prog Op Reply ε (Except E α)} {s₀ : σ} {order : List ι}
  {c c' : Sys Op Reply ε E α σ ι ρ} {i : ι} {act : Act ε E}

/-- A thread other than the one that moves keeps its invariant, as long as the store is the same
and it keeps the lock it has. -/
theorem ThreadInv.other {j : ι} (hj : ThreadInv h L P c j) (ht : c'.threads j = c.threads j)
    (hs : c'.store = c.store) (ho : c.owner L = some j → c'.owner L = some j) :
    ThreadInv h L P c' j := by
  unfold ThreadInv at hj ⊢
  rw [ht]
  split at hj
  · trivial
  · rcases hj with hfresh | hfail | ⟨hown, hrun⟩
    · exact .inl hfresh
    · exact .inr (.inl hfail)
    · exact .inr (.inr ⟨ho hown, by rw [hs]; exact hrun⟩)

/-- What is left of a call that is under way still gives up at the first failure. -/
theorem ThreadInv.failFast {p : Prog Op Reply ε (Except E α)} {done : List Op}
    (hL : CommonLock h lock L P) (hi : ThreadInv h L P c i) (ht : c.threads i = .running p done) :
    p.FailFast := by
  unfold ThreadInv at hi
  rw [ht] at hi
  rcases hi with ⟨rfl, -⟩ | ⟨e, rfl⟩ | ⟨-, hrun⟩
  · exact hL.failFast i
  · trivial
  · exact hrun.failFast (hL.failFast i)

variable [DecidableEq ι]

theorem release_ne {owner : ρ → Option ι} {j : ι} {r : ρ} (hj : owner r = some j) (hne : j ≠ i) :
    release owner i r = some j := by
  unfold release
  rw [if_neg, hj]
  rw [hj]
  exact fun he => hne (Option.some.inj he)

/-- A step that does not commit leaves the set of committed threads as it is. -/
theorem committed_update {ph : Phase Op Reply ε E α} (hph : ∀ a, ph ≠ .returned (.ok a))
    (hrun : ∀ a, c.threads i ≠ .returned (.ok a)) (j : ι) :
    (∃ a, Function.update c.threads i ph j = .returned (.ok a)) ↔
      ∃ a, c.threads j = .returned (.ok a) := by
  by_cases hji : j = i
  · subst hji
    rw [Function.update_self]
    exact iff_of_false (fun ⟨a, ha⟩ => hph a ha) fun ⟨a, ha⟩ => hrun a ha
  · rw [Function.update_of_ne hji]

/-- A step that does not commit keeps the invariant when its own thread keeps it and the others
keep the common lock. -/
theorem Inv.uncommitted {ph : Phase Op Reply ε E α} {owner : ρ → Option ι}
    (hI : Inv h L P s₀ order c) (hrun : ∀ a, c.threads i ≠ .returned (.ok a))
    (hph : ∀ a, ph ≠ .returned (.ok a))
    (hi : ThreadInv h L P ⟨c.store, Function.update c.threads i ph, owner⟩ i)
    (ho : ∀ j, j ≠ i → c.owner L = some j → owner L = some j) :
    Inv h L P s₀ order ⟨c.store, Function.update c.threads i ph, owner⟩ where
  threads j := by
    by_cases hji : j = i
    · subst hji
      exact hi
    · exact (hI.threads j).other (Function.update_of_ne hji _ _) rfl (ho j hji)
  serial := hI.serial
  committed j := (committed_update hph hrun j).trans (hI.committed j)
  nodup := hI.nodup

/-- A thread that returns gives its locks back. -/
theorem Inv.returned {r : Except E α} (hI : Inv h L P s₀ order c)
    (hrun : ∀ a, c.threads i ≠ .returned (.ok a)) (hr : ∀ a, r ≠ .ok a) :
    Inv h L P s₀ order
      ⟨c.store, Function.update c.threads i (.returned r), release c.owner i⟩ := by
  refine hI.uncommitted hrun (fun a ha => hr a (Phase.returned.inj ha)) ?_
    fun j hji hj => release_ne hj hji
  unfold ThreadInv
  simp only [Function.update_self]

/-- A commit puts its thread at the end of the order: its view is what its call does alone. -/
theorem Inv.commit {a : α} {done : List Op} (hI : Inv h L P s₀ order c)
    (ht : c.threads i = .running (.ret (.ok a)) done) (hmine : c.owner L = some i)
    (hrun : Runs h (P i) c.store done (.ret (.ok a))) :
    Inv h L P s₀ (order ++ [i])
      ⟨view h done c.store, Function.update c.threads i (.returned (.ok a)), release c.owner i⟩ where
  threads j := by
    by_cases hji : j = i
    · subst hji
      unfold ThreadInv
      simp only [Function.update_self]
    · -- any other thread that was under way would hold the lock
      have hj := hI.threads j
      unfold ThreadInv at hj ⊢
      simp only [Function.update_of_ne hji]
      split at hj
      · trivial
      · rcases hj with hfresh | hfail | ⟨hown, -⟩
        · exact .inl hfresh
        · exact .inr (.inl hfail)
        · rw [hmine] at hown
          exact absurd (Option.some.inj hown).symm hji
  serial := .snoc hI.serial hrun.run
  committed j := by
    by_cases hji : j = i
    · subst hji
      simp
    · simp only [Function.update_of_ne hji, List.mem_append, List.mem_singleton, hji, or_false]
      exact hI.committed j
  nodup := by
    have hnot : i ∉ order := by
      intro hmem
      obtain ⟨a', ha'⟩ := (hI.committed i).2 hmem
      rw [ht] at ha'
      cases ha'
    exact hI.nodup.append (List.nodup_singleton i) (by simpa using hnot)

variable [DecidableEq ρ]

/-- An operation of a thread takes the common lock, goes on under it, or makes the call give up. -/
theorem ThreadInv.exec {o : Op} {k : Except ε (Reply o) → Prog Op Reply ε (Except E α)}
    {done : List Op} (hL : CommonLock h lock L P) (hi : ThreadInv h L P c i)
    (ht : c.threads i = .running (.call o k) done) :
    ThreadInv h L P
      { c with
        threads := Function.update c.threads i
          (.running (k (h o (view h done c.store)).1) (done ++ [o]))
        owner := fun r => if lock o (view h done c.store) = some r then some i else c.owner r } i := by
  unfold ThreadInv at hi ⊢
  rw [ht] at hi
  simp only [Function.update_self]
  rcases hi with ⟨hp, rfl⟩ | ⟨e, he⟩ | ⟨hmine, hrun⟩
  · obtain ⟨o', k', hP, hfirst⟩ := hL.first i
    obtain ⟨rfl, hk⟩ := Prog.call.inj (hp.trans hP)
    cases hk
    rcases hfirst c.store with hlock | ⟨e, he⟩
    · have hr : Runs h (P i) c.store [] (.call o k) := by
        rw [hp]
        exact .refl
      exact .inr (.inr ⟨if_pos hlock, hr.step⟩)
    · exact .inr (.inl ⟨e, he⟩)
  · cases he
  · refine .inr (.inr ⟨?_, hrun.step⟩)
    split
    · rfl
    · exact hmine

/-- **One step keeps the invariant**; a commit puts its thread at the end of the order. -/
theorem Inv.step (hL : CommonLock h lock L P) (hI : Inv h L P s₀ order c)
    (hstep : Step h lock i act c c') : ∃ order', Inv h L P s₀ order' c' := by
  have hne : ∀ {p done}, c.threads i = .running p done → ∀ a, c.threads i ≠ .returned (.ok a) :=
    fun ht a => by rw [ht]; exact fun he => by cases he
  have hi := hI.threads i
  cases hstep with
  | @exec _ o k done ht hl =>
    refine ⟨order, hI.uncommitted (hne ht) (by simp) (hi.exec hL ht) fun j hji hj => ?_⟩
    -- whoever holds the common lock keeps it: it was free or belonged to this thread
    rw [if_neg, hj]
    intro hlock
    rcases hl L hlock with hfree | hmine
    · rw [hfree] at hj
      cases hj
    · rw [hmine] at hj
      exact hji (Option.some.inj hj).symm
  | @fail _ o k done e ht =>
    refine ⟨order, hI.uncommitted (hne ht) (by simp) ?_ fun _ _ hj => hj⟩
    unfold ThreadInv
    simp only [Function.update_self]
    exact .inr (.inl ((hi.failFast hL ht).1 e))
  | @commit _ a done ht =>
    unfold ThreadInv at hi
    rw [ht] at hi
    rcases hi with ⟨hp, -⟩ | ⟨e, he⟩ | ⟨hmine, hrun⟩
    · -- a call starts with an operation, so it cannot have returned at once
      obtain ⟨o, k, hP, -⟩ := hL.first i
      rw [hP] at hp
      cases hp
    · cases he
    · exact ⟨order ++ [i], hI.commit ht hmine hrun⟩
  | commitFail ht => exact ⟨order, hI.returned (hne ht) (by simp)⟩
  | rollback ht => exact ⟨order, hI.returned (hne ht) (by simp)⟩

/-- **Serial order.**  Every reachable state is that of the committed calls run one after the
other. -/
theorem reach_serial (hL : CommonLock h lock L P) (hr : Reach h lock (start P s₀) c) :
    ∃ order, Inv h L P s₀ order c := by
  induction hr with
  | refl => exact ⟨[], fun i => .inl ⟨rfl, rfl⟩, .nil, fun i => by simp [start], List.nodup_nil⟩
  | tail _ hstep ih =>
    obtain ⟨order, hI⟩ := ih
    obtain ⟨i, act, hs⟩ := hstep
    exact hI.step hL hs

end Common

end Tx

end Lib
