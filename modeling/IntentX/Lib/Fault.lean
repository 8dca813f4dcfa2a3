import IntentX.Lib.Prog

/-!
# Programs whose operations may fail

`Prog.runFault h bad n` runs a program with its `n`-th operation failing; a fault that comes after
a part of the program is a fault of the rest (`Call.execFault_bind_ge`).  A call is *fail-fast* when
it gives up at the first error the store answers.
-/

namespace Lib

namespace Prog

variable {Op : Type} {Reply : Op → Type} {ε E α β σ : Type}

/-- The operation at position `n` fails with `bad` and leaves the store as it is. -/
def runFault (h : Handler Op Reply ε σ) (bad : ε) : Nat → Prog Op Reply ε α → σ → α × σ
  | _, ret a, s => (a, s)
  | 0, call _ k, s => run h (k (.error bad)) s
  | n + 1, call o k, s => runFault h bad n (k (h o s).1) (h o s).2

/-- The number of operations issued by a run without faults. -/
def cost (h : Handler Op Reply ε σ) : Prog Op Reply ε α → σ → Nat
  | ret _, _ => 0
  | call o k, s => cost h (k (h o s).1) (h o s).2 + 1

/-- Every error of the store ends the program with an error. -/
def FailFast : Prog Op Reply ε (Except E α) → Prop
  | ret _ => True
  | call _ k => (∀ e, ∃ e', k (.error e) = ret (.error e')) ∧ ∀ r, FailFast (k (.ok r))

variable {h : Handler Op Reply ε σ} {bad : ε}

theorem runFault_bind_ge {p : Prog Op Reply ε α} (f : α → Prog Op Reply ε β) {s : σ} {n : Nat}
    (hn : cost h p s ≤ n) :
    runFault h bad n (p >>= f) s = runFault h bad (n - cost h p s) (f (run h p s).1) (run h p s).2 := by
  induction p generalizing s n with
  | ret a => rfl
  | call o k ih =>
    cases n with
    | zero => simp [cost] at hn
    | succ n =>
      simp only [cost, Nat.add_le_add_iff_right] at hn
      simp only [call_bind, runFault, run, cost, Nat.add_sub_add_right]
      exact ih _ hn

end Prog

namespace Call

variable {Op : Type} {Reply : Op → Type} {ε E E' α β σ : Type}

def FailFast (p : Call Op Reply ε E α) : Prop := Prog.FailFast p.run

def execFault (h : Handler Op Reply ε σ) (bad : ε) (n : Nat) (p : Call Op Reply ε E α) (s : σ) :
    Except E α × σ :=
  Prog.runFault h bad n p.run s

def cost (h : Handler Op Reply ε σ) (p : Call Op Reply ε E α) (s : σ) : Nat := Prog.cost h p.run s

/-! ## Fail-fast calls -/

theorem failFast_pure (a : α) : FailFast (pure a : Call Op Reply ε E α) := trivial

theorem failFast_throw (e : E) : FailFast (throw e : Call Op Reply ε E α) := trivial

theorem failFast_op (o : Op) (f : ε → E) : FailFast (op o f : Call Op Reply ε E (Reply o)) :=
  ⟨fun e => ⟨f e, rfl⟩, fun _ => trivial⟩

theorem failFast_failIf (c : Prop) [Decidable c] (e : E) :
    FailFast (failIf c e : Call Op Reply ε E Unit) := by
  unfold failIf
  split
  · exact failFast_throw e
  · exact failFast_pure ()

theorem failFast_orThrow (o : Option α) (e : E) : FailFast (orThrow o e : Call Op Reply ε E α) := by
  cases o with
  | none => exact failFast_throw e
  | some a => exact failFast_pure a

theorem failFast_bind {p : Call Op Reply ε E α} {f : α → Call Op Reply ε E β} (hp : FailFast p)
    (hf : ∀ a, FailFast (f a)) : FailFast (p >>= f) := by
  unfold FailFast at hp ⊢
  rw [ExceptT.run_bind]
  generalize p.run = q at hp
  induction q with
  | ret a =>
    cases a with
    | error e => trivial
    | ok a => exact hf a
  | call o k ih =>
    refine ⟨fun e => ?_, fun r => ih (.ok r) (hp.2 r)⟩
    obtain ⟨e', he⟩ := hp.1 e
    exact ⟨e', congrArg (Prog.bind · _) he⟩

theorem failFast_mapErr {f : E → E'} {p : Call Op Reply ε E α} (hp : FailFast p) :
    FailFast (mapErr f p) := by
  unfold FailFast at hp ⊢
  show Prog.FailFast (p.run >>= fun r => Prog.ret (r.mapError f))
  generalize p.run = q at hp
  induction q with
  | ret a => trivial
  | call o k ih =>
    refine ⟨fun e => ?_, fun r => ih (.ok r) (hp.2 r)⟩
    obtain ⟨e', he⟩ := hp.1 e
    exact ⟨f e', congrArg (Prog.bind · _) he⟩

theorem failFast_doIf {c : Prop} [Decidable c] {p : Call Op Reply ε E Unit} (hp : FailFast p) :
    FailFast (doIf c p) := by
  unfold doIf
  split
  · exact hp
  · exact failFast_pure ()

/-! ## Runs with a fault -/

variable {h : Handler Op Reply ε σ} {bad : ε} {s : σ} {n : Nat}

theorem execFault_bind_ge {p : Call Op Reply ε E α} (f : α → Call Op Reply ε E β)
    (hn : cost h p s ≤ n) :
    execFault h bad n (p >>= f) s =
      match exec h p s with
      | (.ok a, s') => execFault h bad (n - cost h p s) (f a) s'
      | (.error e, s') => (.error e, s') := by
  unfold execFault
  rw [ExceptT.run_bind, Prog.runFault_bind_ge _ hn]
  unfold exec cost
  rcases Prog.run h p.run s with ⟨r, s'⟩
  cases r with
  | error e => exact match n - Prog.cost h p.run s with | 0 => rfl | _ + 1 => rfl
  | ok a => rfl

theorem execFault_pure (a : α) : execFault h bad n (pure a : Call Op Reply ε E α) s = (.ok a, s) := by
  cases n <;> rfl

theorem execFault_throw (e : E) :
    execFault h bad n (throw e : Call Op Reply ε E α) s = (.error e, s) := by
  cases n <;> rfl

/-- The first operation is the one that fails. -/
theorem execFault_op_zero (o : Op) (f : ε → E) (g : Reply o → Call Op Reply ε E α) :
    execFault h bad 0 (op o f >>= g) s = (.error (f bad), s) := rfl

/-- The first operation is answered and a later one fails. -/
theorem execFault_op_succ (o : Op) (f : ε → E) (g : Reply o → Call Op Reply ε E α) :
    execFault h bad (n + 1) (op o f >>= g) s =
      match h o s with
      | (.ok r, s') => execFault h bad n (g r) s'
      | (.error e, s') => (.error (f e), s') := by
  rw [execFault_bind_ge _ (show cost h (op o f) s ≤ n + 1 from Nat.le_add_left 1 n)]
  rw [exec_op]
  rcases h o s with ⟨r, s'⟩
  cases r <;> rfl

end Call

end Lib
