import IntentX.Lib.Prog
import Mathlib.Logic.Function.Basic

/-!
# Two programs interleaved

`Interleaves h p q s l a b s'`: the operations of `p` and `q`, issued against one store in the order
of the log `l`, take `s` to `s'` and the two programs return `a` and `b`.

Over a store of cells whose operations are *local* (each acts on the cell of its key), two
operations that do not conflict commute.  If no operation of `q` is followed in the log by a
conflicting operation of `p`, the operations of `p` can be moved to the front: the interleaving
does what `p` and then `q` do alone (`Interleaves.serial`).

A concrete store is brought under this by a simulation: programs that issue only admissible
operations (`Prog.Ensures`) behave on the store as on its view in cells (`Interleaves.simulate`).
-/

namespace Lib

variable {Op : Type} {Reply : Op → Type} {ε E α β σ τ κ ν : Type}

/-- `true` marks an operation of the first program. -/
inductive Interleaves (h : Handler Op Reply ε σ) :
    Prog Op Reply ε α → Prog Op Reply ε β → σ → List (Bool × Op) → α → β → σ → Prop
  | done {a b s} : Interleaves h (.ret a) (.ret b) s [] a b s
  | left {o k q s l a b s'} (hr : Interleaves h (k (h o s).1) q (h o s).2 l a b s') :
      Interleaves h (.call o k) q s ((true, o) :: l) a b s'
  | right {p o k s l a b s'} (hr : Interleaves h p (k (h o s).1) (h o s).2 l a b s') :
      Interleaves h p (.call o k) s ((false, o) :: l) a b s'

/-- The interleaving of a schedule (`true`: the first program moves), if it lets both programs
finish and no move goes to one that has. -/
def weave (h : Handler Op Reply ε σ) :
    List Bool → Prog Op Reply ε α → Prog Op Reply ε β → σ → Option (List (Bool × Op) × α × β × σ)
  | [], .ret a, .ret b, s => some ([], a, b, s)
  | true :: is, .call o k, q, s =>
    (weave h is (k (h o s).1) q (h o s).2).map fun r => ((true, o) :: r.1, r.2)
  | false :: is, p, .call o k, s =>
    (weave h is p (k (h o s).1) (h o s).2).map fun r => ((false, o) :: r.1, r.2)
  | _, _, _, _ => none

theorem Interleaves.of_weave {h : Handler Op Reply ε σ} {is : List Bool} {p : Prog Op Reply ε α}
    {q : Prog Op Reply ε β} {s s' : σ} {l : List (Bool × Op)} {a : α} {b : β}
    (hw : weave h is p q s = some (l, a, b, s')) : Interleaves h p q s l a b s' := by
  fun_induction weave h is p q s generalizing l with
  | case1 s a b =>
    cases hw
    exact .done
  | case2 is o k q s ih =>
    obtain ⟨⟨l', r⟩, hr, he⟩ := Option.map_eq_some_iff.1 hw
    cases he
    exact .left (ih hr)
  | case3 is p o k s ih =>
    obtain ⟨⟨l', r⟩, hr, he⟩ := Option.map_eq_some_iff.1 hw
    cases he
    exact .right (ih hr)
  | case4 => cases hw

theorem Interleaves.swap {h : Handler Op Reply ε σ} {p : Prog Op Reply ε α} {q : Prog Op Reply ε β}
    {s s' : σ} {l : List (Bool × Op)} {a : α} {b : β} (hi : Interleaves h p q s l a b s') :
    Interleaves h q p s (l.map fun x => (!x.1, x.2)) b a s' := by
  induction hi with
  | done => exact .done
  | left _ ih => exact .right ih
  | right _ ih => exact .left ih

/-! ## Local operations -/

/-- Every operation acts on the cell of its key, if it has one: its answer and what it writes
depend on that cell alone.  The operations of `reads` write nothing. -/
structure Local (h : Handler Op Reply ε (κ → ν)) (key : Op → Option κ) (reads : Op → Prop) : Prop where
  reply : ∀ o s s', (∀ k, key o = some k → s k = s' k) → (h o s).1 = (h o s').1
  frame : ∀ o s k, key o ≠ some k → (h o s).2 k = s k
  write : ∀ o s s' k, key o = some k → s k = s' k → (h o s).2 k = (h o s').2 k
  read : ∀ o s, reads o → (h o s).2 = s

/-- Two operations on one cell, one of which writes. -/
def Conflict (key : Op → Option κ) (reads : Op → Prop) (o o' : Op) : Prop :=
  (∃ k, key o = some k ∧ key o' = some k) ∧ ¬ (reads o ∧ reads o')

/-- No operation of the second program is followed by a conflicting one of the first. -/
def LeftFirst (key : Op → Option κ) (reads : Op → Prop) (l : List (Bool × Op)) : Prop :=
  l.Pairwise fun x y => x.1 = false → y.1 = true → ¬ Conflict key reads x.2 y.2

section Local

variable {h : Handler Op Reply ε (κ → ν)} {key : Op → Option κ} {reads : Op → Prop}

/-- An operation answers the same before and after one that it does not conflict with. -/
theorem Local.reply_comm (hL : Local h key reads) {o o' : Op} (hc : ¬ Conflict key reads o o')
    (s : κ → ν) : (h o' (h o s).2).1 = (h o' s).1 := by
  by_cases hr : reads o
  · rw [hL.read o s hr]
  · refine hL.reply o' _ _ fun k hk => hL.frame o s k fun hk' => hc ⟨⟨k, hk', hk⟩, fun h => hr h.1⟩

theorem Conflict.symm {o o' : Op} (hc : Conflict key reads o o') : Conflict key reads o' o :=
  ⟨hc.1.imp fun _ h => h.symm, fun h => hc.2 h.symm⟩

theorem Local.state_comm (hL : Local h key reads) {o o' : Op} (hc : ¬ Conflict key reads o o')
    (s : κ → ν) : (h o' (h o s).2).2 = (h o (h o' s).2).2 := by
  by_cases hr : reads o
  · rw [hL.read o s hr, hL.read o _ hr]
  by_cases hr' : reads o'
  · rw [hL.read o' s hr', hL.read o' _ hr']
  have hne : ∀ k, key o = some k → key o' ≠ some k := fun k hk hk' => hc ⟨⟨k, hk, hk'⟩, fun h => hr h.1⟩
  funext k
  by_cases hk : key o = some k
  · rw [hL.frame o' _ k (hne k hk)]
    exact hL.write o s _ k hk (hL.frame o' s k (hne k hk)).symm
  · rw [hL.frame o _ k hk]
    by_cases hk' : key o' = some k
    · exact hL.write o' _ s k hk' (hL.frame o s k hk)
    · rw [hL.frame o' _ k hk', hL.frame o' s k hk', hL.frame o s k hk]

end Local

/-! ## Moving the first program to the front -/

namespace Prog

/-- The operations issued by a run alone, in order. -/
def log (h : Handler Op Reply ε σ) : Prog Op Reply ε α → σ → List Op
  | ret _, _ => []
  | call o k, s => o :: log h (k (h o s).1) (h o s).2

variable {h : Handler Op Reply ε (κ → ν)} {key : Op → Option κ} {reads : Op → Prop}

/-- An operation that conflicts with none of those of a program can be done before or after it. -/
theorem run_comm (hL : Local h key reads) {o : Op} (p : Prog Op Reply ε α) (s : κ → ν)
    (hc : ∀ o' ∈ log h p (h o s).2, ¬ Conflict key reads o o') :
    log h p (h o s).2 = log h p s ∧ (run h p (h o s).2).1 = (run h p s).1 ∧
      (run h p (h o s).2).2 = (h o (run h p s).2).2 ∧ (h o (run h p s).2).1 = (h o s).1 := by
  induction p generalizing s with
  | ret a => exact ⟨rfl, rfl, rfl, rfl⟩
  | call o' k ih =>
    have hco := hc o' List.mem_cons_self
    have hrep := hL.reply_comm hco s
    have hst := hL.state_comm hco s
    have hrep' := hL.reply_comm (fun h => hco h.symm) s
    simp only [log, run, List.mem_cons, forall_eq_or_imp] at hc ⊢
    rw [hrep, hst] at hc ⊢
    obtain ⟨hlog, hres, hfin, hans⟩ := ih (h o' s).1 (h o' s).2 hc.2
    exact ⟨by rw [hlog], hres, hfin, hans.trans hrep'⟩

end Prog

section Serial

variable {h : Handler Op Reply ε (κ → ν)} {key : Op → Option κ} {reads : Op → Prop}

/-- The operations of the first program in a log. -/
def lefts (l : List (Bool × Op)) : List Op := (l.filter (·.1)).map (·.2)

/-- **Conflict-ordered interleavings are serial.** -/
theorem Interleaves.serial (hL : Local h key reads) {p : Prog Op Reply ε α} {q : Prog Op Reply ε β}
    {s s' : κ → ν} {l : List (Bool × Op)} {a : α} {b : β} (hi : Interleaves h p q s l a b s')
    (hl : LeftFirst key reads l) :
    lefts l = Prog.log h p s ∧ (Prog.run h p s).1 = a ∧
      Prog.run h q (Prog.run h p s).2 = (b, s') := by
  induction hi with
  | done => exact ⟨rfl, rfl, rfl⟩
  | @left o k q s l a b s' _ ih =>
    obtain ⟨hlog, hres, hfin⟩ := ih (List.pairwise_cons.1 hl).2
    exact ⟨congrArg (o :: ·) hlog, hres, hfin⟩
  | @right p o k s l a b s' _ ih =>
    obtain ⟨hhead, htail⟩ := List.pairwise_cons.1 hl
    obtain ⟨hlog, hres, hfin⟩ := ih htail
    -- the rest of the first program runs after `o`, and conflicts with it nowhere
    have hc : ∀ o' ∈ Prog.log h p (h o s).2, ¬ Conflict key reads o o' := by
      intro o' ho'
      rw [← hlog] at ho'
      obtain ⟨x, hx, rfl⟩ := List.mem_map.1 ho'
      obtain ⟨hmem, htrue⟩ := List.mem_filter.1 hx
      exact hhead x hmem rfl htrue
    obtain ⟨hlog', hres', hfin', hans⟩ := Prog.run_comm hL p s hc
    refine ⟨hlog.trans hlog', hres'.symm.trans hres, ?_⟩
    show Prog.run h (k (h o (Prog.run h p s).2).1) (h o (Prog.run h p s).2).2 = (b, s')
    rw [hans, ← hfin']
    exact hfin

end Serial

/-! ## Simulation -/

/-- From any state of the invariant the program issues only operations of `V`, and what it returns
satisfies `Q`. -/
def Prog.Ensures (h : Handler Op Reply ε σ) (I : σ → Prop) (V : Op → Prop) (Q : α → Prop) :
    Prog Op Reply ε α → Prop
  | .ret a => Q a
  | .call o k => V o ∧ ∀ s, I s → Ensures h I V Q (k (h o s).1)

/-- On the states of the invariant, the operations of `V` do to `s` what they do to its view. -/
structure Simulates (h : Handler Op Reply ε σ) (h' : Handler Op Reply ε τ) (view : σ → τ)
    (I : σ → Prop) (V : Op → Prop) : Prop where
  inv : ∀ o s, V o → I s → I (h o s).2
  reply : ∀ o s, V o → I s → (h' o (view s)).1 = (h o s).1
  state : ∀ o s, V o → I s → (h' o (view s)).2 = view (h o s).2

section Simulate

variable {h : Handler Op Reply ε σ} {h' : Handler Op Reply ε τ} {view : σ → τ} {I : σ → Prop}
  {V : Op → Prop} {Q : α → Prop} {R : β → Prop}

theorem Simulates.run (hS : Simulates h h' view I V) {p : Prog Op Reply ε α} {s : σ}
    (hp : p.Ensures h I V Q) (hs : I s) :
    Prog.run h' p (view s) = ((Prog.run h p s).1, view (Prog.run h p s).2) ∧ I (Prog.run h p s).2 := by
  induction p generalizing s with
  | ret a => exact ⟨rfl, hs⟩
  | call o k ih =>
    simp only [Prog.run]
    rw [hS.reply o s hp.1 hs, hS.state o s hp.1 hs]
    exact ih _ (hp.2 s hs) (hS.inv o s hp.1 hs)

/-- An interleaving on the store is the same interleaving on the view. -/
theorem Interleaves.simulate (hS : Simulates h h' view I V) {p : Prog Op Reply ε α}
    {q : Prog Op Reply ε β} {s s' : σ} {l : List (Bool × Op)} {a : α} {b : β}
    (hi : Interleaves h p q s l a b s') (hp : p.Ensures h I V Q) (hq : q.Ensures h I V R) (hs : I s) :
    Interleaves h' p q (view s) l a b (view s') := by
  induction hi with
  | done => exact .done
  | @left o k q s l a b s' _ ih =>
    have hrest := ih (hp.2 s hs) hq (hS.inv o s hp.1 hs)
    refine .left ?_
    rw [hS.reply o s hp.1 hs, hS.state o s hp.1 hs]
    exact hrest
  | @right p o k s l a b s' _ ih =>
    have hrest := ih hp (hq.2 s hs) (hS.inv o s hq.1 hs)
    refine .right ?_
    rw [hS.reply o s hq.1 hs, hS.state o s hq.1 hs]
    exact hrest

theorem Prog.Ensures.bind {p : Prog Op Reply ε α} {f : α → Prog Op Reply ε β}
    (hp : p.Ensures h I V Q) (hf : ∀ a, Q a → (f a).Ensures h I V R) :
    (p >>= f).Ensures h I V R := by
  induction p with
  | ret a => exact hf a hp
  | call o k ih => exact ⟨hp.1, fun s hs => ih _ (hp.2 s hs)⟩

end Simulate

namespace Call

/-- The call issues only operations of `V`, and a value it returns satisfies `Q`. -/
def Ensures (h : Handler Op Reply ε σ) (I : σ → Prop) (V : Op → Prop) (Q : α → Prop)
    (p : Call Op Reply ε E α) : Prop :=
  p.run.Ensures h I V fun r => ∀ a, r = .ok a → Q a

variable {h : Handler Op Reply ε σ} {I : σ → Prop} {V : Op → Prop} {Q : α → Prop} {R : β → Prop}

theorem ensures_pure {a : α} (ha : Q a) : Ensures h I V Q (pure a : Call Op Reply ε E α) := by
  intro a' he
  cases he
  exact ha

theorem ensures_throw (e : E) : Ensures h I V Q (throw e : Call Op Reply ε E α) := by
  intro a he
  cases he

theorem ensures_op {o : Op} {Q : Reply o → Prop} (f : ε → E) (hV : V o)
    (hQ : ∀ s r, I s → (h o s).1 = .ok r → Q r) :
    Ensures h I V Q (op o f : Call Op Reply ε E (Reply o)) := by
  refine ⟨hV, fun s hs r he => ?_⟩
  rcases hr : (h o s).1 with e | r'
  · rw [hr] at he
    cases he
  · rw [hr] at he
    cases he
    exact hQ s _ hs hr

theorem ensures_bind {p : Call Op Reply ε E α} {f : α → Call Op Reply ε E β}
    (hp : Ensures h I V Q p) (hf : ∀ a, Q a → Ensures h I V R (f a)) :
    Ensures h I V R (p >>= f) := by
  unfold Ensures at hp ⊢
  rw [ExceptT.run_bind]
  refine hp.bind fun r hr => ?_
  cases r with
  | error e => exact ensures_throw e
  | ok a => exact hf a (hr a rfl)

theorem ensures_failIf (c : Prop) [Decidable c] (e : E) {f : Unit → Call Op Reply ε E α}
    (hf : Ensures h I V Q (f ())) : Ensures h I V Q (failIf c e >>= f) := by
  rw [failIf_bind]
  split
  · exact ensures_throw e
  · exact hf

theorem ensures_mapErr {E' : Type} {f : E → E'} {p : Call Op Reply ε E α} (hp : Ensures h I V Q p) :
    Ensures h I V Q (mapErr f p) := by
  unfold Ensures at hp ⊢
  show (p.run >>= fun r => Prog.ret (r.mapError f)).Ensures h I V _
  refine hp.bind fun r hr a he => ?_
  cases r with
  | error e => cases he
  | ok a' =>
    cases he
    exact hr _ rfl

end Call

end Lib
