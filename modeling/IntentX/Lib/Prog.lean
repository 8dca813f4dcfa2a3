import Mathlib.Logic.Basic

/-!
# Programs that issue operations against a store

`Prog Op Reply ε α` is a program that issues operations `o : Op` one at a time.  Each is
answered by a `Reply o` or by an error `ε`, and the program continues with the answer, so
the places where another program can run in between are exactly its `call` nodes.

* `Prog.run h` runs a program alone, the operations meaning what the handler `h` says.
* `Call` adds an error of the program's own (`ExceptT`); `Call.exec` runs one, and
  `Call.exec_bind_ok` peels a successful run apart, one bind at a time.  `Call.Ends` is about all
  runs, failed ones included.
-/

namespace Lib

/-- A program over the operations `Op`: it has returned, or it issues an operation and
continues with the answer. -/
inductive Prog (Op : Type) (Reply : Op → Type) (ε α : Type) where
  | ret (a : α)
  | call (o : Op) (k : Except ε (Reply o) → Prog Op Reply ε α)

/-- What the operations do to a store `σ`, and what they answer. -/
abbrev Handler (Op : Type) (Reply : Op → Type) (ε σ : Type) :=
  (o : Op) → σ → Except ε (Reply o) × σ

namespace Prog

variable {Op : Type} {Reply : Op → Type} {ε α β σ : Type}

def bind : Prog Op Reply ε α → (α → Prog Op Reply ε β) → Prog Op Reply ε β
  | ret a, f => f a
  | call o k, f => call o fun r => (k r).bind f

instance : Monad (Prog Op Reply ε) where
  pure := ret
  bind := bind

/-- The operation that the program issues next. -/
def next : Prog Op Reply ε α → Option Op
  | ret _ => none
  | call o _ => some o

/-- Issue one operation and look at its answer. -/
def ask (o : Op) : Prog Op Reply ε (Except ε (Reply o)) := call o ret

theorem call_bind (o : Op) (k : Except ε (Reply o) → Prog Op Reply ε α)
    (f : α → Prog Op Reply ε β) : (call o k >>= f) = call o fun r => k r >>= f := rfl

theorem bind_ret (p : Prog Op Reply ε α) : p.bind ret = p := by
  induction p with
  | ret a => rfl
  | call o k ih => exact congrArg (call o) (funext ih)

theorem bind_bind (p : Prog Op Reply ε α) (f : α → Prog Op Reply ε β) {γ : Type}
    (g : β → Prog Op Reply ε γ) : (p.bind f).bind g = p.bind fun a => (f a).bind g := by
  induction p with
  | ret a => rfl
  | call o k ih => exact congrArg (call o) (funext ih)

instance : LawfulMonad (Prog Op Reply ε) :=
  LawfulMonad.mk' (Prog Op Reply ε) bind_ret (fun _ _ => rfl) fun p f g => bind_bind p f g

/-! ## Running a program alone -/

def run (h : Handler Op Reply ε σ) : Prog Op Reply ε α → σ → α × σ
  | ret a, s => (a, s)
  | call o k, s => run h (k (h o s).1) (h o s).2

theorem run_bind (h : Handler Op Reply ε σ) (p : Prog Op Reply ε α)
    (f : α → Prog Op Reply ε β) (s : σ) :
    run h (p >>= f) s = run h (f (run h p s).1) (run h p s).2 := by
  induction p generalizing s with
  | ret a => rfl
  | call o k ih => exact ih _ _

/-! ## The operations of a program -/

/-- Every operation the program can issue, whatever the answers, satisfies `S`. -/
def Issues (S : Op → Prop) : Prog Op Reply ε α → Prop
  | ret _ => True
  | call o k => S o ∧ ∀ r, Issues S (k r)

theorem issues_bind {S : Op → Prop} {p : Prog Op Reply ε α} {f : α → Prog Op Reply ε β}
    (hp : p.Issues S) (hf : ∀ a, (f a).Issues S) : (p >>= f).Issues S := by
  induction p with
  | ret a => exact hf a
  | call o k ih => exact ⟨hp.1, fun r => ih r (hp.2 r)⟩

theorem issues_ask {S : Op → Prop} {o : Op} (ho : S o) : (ask o : Prog Op Reply ε _).Issues S :=
  ⟨ho, fun _ => trivial⟩

theorem Issues.mono {S S' : Op → Prop} {p : Prog Op Reply ε α} (hp : p.Issues S)
    (h : ∀ o, S o → S' o) : p.Issues S' := by
  induction p with
  | ret a => trivial
  | call o k ih => exact ⟨h o hp.1, fun r => ih r (hp.2 r)⟩

theorem issues_of_forall {S : Op → Prop} (hS : ∀ o, S o) (p : Prog Op Reply ε α) : p.Issues S := by
  induction p with
  | ret a => trivial
  | call o k ih => exact ⟨hS o, ih⟩

/-- An invariant that the operations of the program keep. -/
theorem run_keeps {S : Op → Prop} {I : σ → Prop} {h : Handler Op Reply ε σ}
    (hS : ∀ o, S o → ∀ s, I s → I (h o s).2) {p : Prog Op Reply ε α} (hp : p.Issues S) {s : σ}
    (hs : I s) : I (run h p s).2 := by
  induction p generalizing s with
  | ret a => exact hs
  | call o k ih => exact ih _ (hp.2 _) (hS o hp.1 s hs)

/-! ## Programs over more operations -/

/-- The program over a larger set of operations: `f` names the operations there, and `back` reads
their answers. -/
def embed {Op' : Type} {Reply' : Op' → Type} {ε' : Type} (f : Op → Op')
    (back : (o : Op) → Except ε' (Reply' (f o)) → Except ε (Reply o)) :
    Prog Op Reply ε α → Prog Op' Reply' ε' α
  | ret a => ret a
  | call o k => call (f o) fun r => embed f back (k (back o r))

theorem embed_bind {Op' : Type} {Reply' : Op' → Type} {ε' : Type} {f : Op → Op'}
    {back : (o : Op) → Except ε' (Reply' (f o)) → Except ε (Reply o)} (p : Prog Op Reply ε α)
    (g : α → Prog Op Reply ε β) :
    embed f back (p >>= g) = embed f back p >>= fun a => embed f back (g a) := by
  induction p with
  | ret a => rfl
  | call o k ih => exact congrArg (call (f o)) (funext fun r => ih _)

theorem issues_embed {Op' : Type} {Reply' : Op' → Type} {ε' : Type} {f : Op → Op'}
    {back : (o : Op) → Except ε' (Reply' (f o)) → Except ε (Reply o)} {S : Op' → Prop}
    {p : Prog Op Reply ε α} (hp : p.Issues fun o => S (f o)) : (embed f back p).Issues S := by
  induction p with
  | ret a => trivial
  | call o k ih => exact ⟨hp.1, fun r => ih _ (hp.2 _)⟩

/-- An embedded program does to its part of the store what the program does. -/
theorem run_embed {Op' : Type} {Reply' : Op' → Type} {ε' σ' : Type} {f : Op → Op'}
    {back : (o : Op) → Except ε' (Reply' (f o)) → Except ε (Reply o)} {h : Handler Op Reply ε σ}
    {h' : Handler Op' Reply' ε' σ'} (put : σ → σ')
    (hreply : ∀ o s, back o (h' (f o) (put s)).1 = (h o s).1)
    (hstore : ∀ o s, (h' (f o) (put s)).2 = put (h o s).2) (p : Prog Op Reply ε α) (s : σ) :
    run h' (embed f back p) (put s) = ((run h p s).1, put (run h p s).2) := by
  induction p generalizing s with
  | ret a => rfl
  | call o k ih =>
    show run h' (embed f back (k (back o (h' (f o) (put s)).1))) (h' (f o) (put s)).2 = _
    rw [hreply, hstore, ih]
    rfl

end Prog

/-! ## Calls: programs with an error of their own -/

/-- A program that ends in a value or in an error `E`. -/
abbrev Call (Op : Type) (Reply : Op → Type) (ε E α : Type) := ExceptT E (Prog Op Reply ε) α

namespace Call

variable {Op : Type} {Reply : Op → Type} {ε E E' α β σ : Type}

/-- Issue one operation; an error of the store becomes `f` of it. -/
def op (o : Op) (f : ε → E) : Call Op Reply ε E (Reply o) :=
  ExceptT.mk (.call o fun r => .ret (r.mapError f))

/-- Issue one operation and go on without its answer when it fails. -/
def attempt (o : Op) : Call Op Reply ε E (Option (Reply o)) :=
  ExceptT.mk (.call o fun r => .ret (.ok r.toOption))

def failIf (c : Prop) [Decidable c] (e : E) : Call Op Reply ε E Unit :=
  if c then throw e else pure ()

def doIf (c : Prop) [Decidable c] (p : Call Op Reply ε E Unit) : Call Op Reply ε E Unit :=
  if c then p else pure ()

def orThrow (o : Option α) (e : E) : Call Op Reply ε E α :=
  match o with
  | some a => pure a
  | none => throw e

def mapErr (f : E → E') (p : Call Op Reply ε E α) : Call Op Reply ε E' α :=
  ExceptT.mk ((·.mapError f) <$> p.run)

/-- Go on whatever comes of a call. -/
def ignore (p : Call Op Reply ε E α) : Call Op Reply ε E' Unit :=
  ExceptT.mk ((fun _ => .ok ()) <$> p.run)

def exec (h : Handler Op Reply ε σ) (p : Call Op Reply ε E α) (s : σ) : Except E α × σ :=
  Prog.run h p.run s

variable {h : Handler Op Reply ε σ}

@[simp] theorem exec_pure (a : α) (s : σ) :
    exec h (pure a : Call Op Reply ε E α) s = (.ok a, s) := rfl

@[simp] theorem exec_throw (e : E) (s : σ) :
    exec h (throw e : Call Op Reply ε E α) s = (.error e, s) := rfl

@[simp] theorem exec_op (o : Op) (f : ε → E) (s : σ) :
    exec h (op o f) s = ((h o s).1.mapError f, (h o s).2) := rfl

@[simp] theorem mapError_ok (f : E → E') (a : α) :
    (Except.ok a : Except E α).mapError f = .ok a := rfl

@[simp] theorem mapError_error (f : E → E') (e : E) :
    (Except.error e : Except E α).mapError f = .error (f e) := rfl

/-- An operation succeeds iff its handler does. -/
theorem exec_op_ok {o : Op} {f : ε → E} {r : Reply o} {s s' : σ} :
    exec h (op o f) s = (.ok r, s') ↔ h o s = (.ok r, s') := by
  rw [exec_op]
  rcases h o s with ⟨r', s₁⟩
  cases r' <;> simp

theorem mapError_eq_error {r : Except E α} {f : E → E'} {e : E'} :
    r.mapError f = .error e ↔ ∃ e₀, r = .error e₀ ∧ f e₀ = e := by
  cases r <;> simp

theorem mapErr_op (f : E → E') (o : Op) (g : ε → E) :
    mapErr f (op o g : Call Op Reply ε E (Reply o)) = op o fun e => f (g e) := by
  show Prog.call o _ = Prog.call o _
  congr 1
  funext r
  cases r <;> rfl

theorem mapErr_pure (f : E → E') (a : α) :
    mapErr f (pure a : Call Op Reply ε E α) = pure a := rfl

theorem mapErr_bind (f : E → E') (p : Call Op Reply ε E α) (g : α → Call Op Reply ε E β) :
    mapErr f (p >>= g) = mapErr f p >>= fun a => mapErr f (g a) := by
  apply ExceptT.ext
  simp only [mapErr, ExceptT.run_bind, ExceptT.run_mk, map_bind, bind_map_left]
  congr 1
  funext r
  cases r <;> rfl

theorem failIf_bind (c : Prop) [Decidable c] (e : E) (f : Unit → Call Op Reply ε E α) :
    (failIf c e >>= f) = if c then throw e else f () := by
  unfold failIf
  split <;> rfl

theorem exec_mapErr (f : E → E') (p : Call Op Reply ε E α) (s : σ) :
    exec h (mapErr f p) s = ((exec h p s).1.mapError f, (exec h p s).2) := by
  unfold exec mapErr
  show Prog.run h (p.run >>= fun r => Prog.ret (r.mapError f)) s = _
  rw [Prog.run_bind]
  rfl

theorem exec_ignore (p : Call Op Reply ε E α) (s : σ) :
    exec h (ignore p : Call Op Reply ε E' Unit) s = (.ok (), (exec h p s).2) := by
  unfold exec ignore
  show Prog.run h (p.run >>= fun _ => Prog.ret (Except.ok ())) s = _
  rw [Prog.run_bind]
  rfl

/-- Look at what comes of a call. -/
theorem exec_lift (p : Call Op Reply ε E α) (s : σ) :
    exec h (ExceptT.lift p.run : Call Op Reply ε E' _) s = (.ok (exec h p s).1, (exec h p s).2) := by
  unfold exec
  show Prog.run h (p.run >>= fun r => Prog.ret (Except.ok r)) s = _
  rw [Prog.run_bind]
  rfl

theorem exec_bind (p : Call Op Reply ε E α) (f : α → Call Op Reply ε E β) (s : σ) :
    exec h (p >>= f) s =
      match exec h p s with
      | (.ok a, s') => exec h (f a) s'
      | (.error e, s') => (.error e, s') := by
  unfold exec
  rw [ExceptT.run_bind, Prog.run_bind]
  rcases Prog.run h p.run s with ⟨r, s'⟩
  cases r <;> rfl

/-- A successful sequence is a successful first part followed by a successful second. -/
theorem exec_bind_ok {p : Call Op Reply ε E α} {f : α → Call Op Reply ε E β} {s s' : σ} {b : β} :
    exec h (p >>= f) s = (.ok b, s') ↔
      ∃ a s₁, exec h p s = (.ok a, s₁) ∧ exec h (f a) s₁ = (.ok b, s') := by
  rw [exec_bind]
  rcases exec h p s with ⟨r, s₁⟩
  cases r with
  | error e => simp
  | ok a =>
    constructor
    · intro hf
      exact ⟨a, s₁, rfl, hf⟩
    · rintro ⟨a', s₂, he, hf⟩
      cases he
      exact hf

/-- An operation that is answered, and what comes after it. -/
theorem exec_op_bind_ok {o : Op} {f : ε → E} {g : Reply o → Call Op Reply ε E α} {s s' : σ}
    {r : Reply o} (hx : h o s = (.ok r, s')) : exec h (op o f >>= g) s = exec h (g r) s' := by
  rw [exec_bind, exec_op, hx]
  rfl

/-- An operation that fails ends the call. -/
theorem exec_op_bind_error {o : Op} {f : ε → E} {g : Reply o → Call Op Reply ε E α} {s s' : σ}
    {e : ε} (hx : h o s = (.error e, s')) : exec h (op o f >>= g) s = (.error (f e), s') := by
  rw [exec_bind, exec_op, hx]
  rfl

@[simp] theorem exec_failIf_ok {c : Prop} [Decidable c] {e : E} {s s' : σ} {u : Unit} :
    exec h (failIf c e : Call Op Reply ε E Unit) s = (.ok u, s') ↔ ¬ c ∧ s = s' := by
  unfold failIf
  split <;> simp_all

theorem exec_doIf (c : Prop) [Decidable c] (p : Call Op Reply ε E Unit) (s : σ) :
    exec h (doIf c p) s = if c then exec h p s else (.ok (), s) := by
  unfold doIf
  split <;> rfl

@[simp] theorem exec_orThrow_ok {o : Option α} {e : E} {a : α} {s s' : σ} :
    exec h (orThrow o e : Call Op Reply ε E α) s = (.ok a, s') ↔ o = some a ∧ s = s' := by
  cases o <;> simp [orThrow]

@[simp] theorem exec_mapErr_ok {f : E → E'} {p : Call Op Reply ε E α} {a : α} {s s' : σ} :
    exec h (mapErr f p) s = (.ok a, s') ↔ exec h p s = (.ok a, s') := by
  rw [exec_mapErr]
  rcases exec h p s with ⟨r, s₁⟩
  cases r <;> simp

/-! ## The operations of a call -/

/-- Every operation the call can issue satisfies `S`. -/
def Issues (S : Op → Prop) (p : Call Op Reply ε E α) : Prop := p.run.Issues S

section Issues

variable {S : Op → Prop}

theorem issues_pure (a : α) : Issues S (pure a : Call Op Reply ε E α) := trivial

theorem issues_throw (e : E) : Issues S (throw e : Call Op Reply ε E α) := trivial

theorem issues_op {o : Op} {f : ε → E} (ho : S o) : Issues S (op o f : Call Op Reply ε E _) :=
  ⟨ho, fun _ => trivial⟩

theorem issues_attempt {o : Op} (ho : S o) : Issues S (attempt o : Call Op Reply ε E _) :=
  ⟨ho, fun _ => trivial⟩

theorem issues_bind {p : Call Op Reply ε E α} {f : α → Call Op Reply ε E β} (hp : Issues S p)
    (hf : ∀ a, Issues S (f a)) : Issues S (p >>= f) := by
  unfold Issues
  rw [ExceptT.run_bind]
  refine Prog.issues_bind hp fun r => ?_
  cases r with
  | ok a => exact hf a
  | error e => trivial

theorem issues_mapErr {f : E → E'} {p : Call Op Reply ε E α} (hp : Issues S p) :
    Issues S (mapErr f p) := by
  show (p.run >>= fun r => Prog.ret (r.mapError f)).Issues S
  exact Prog.issues_bind hp fun _ => trivial

theorem issues_lift {p : Call Op Reply ε E α} (hp : Issues S p) :
    Issues S (ExceptT.lift p.run : Call Op Reply ε E' _) := by
  show (p.run >>= fun r => Prog.ret (Except.ok r)).Issues S
  exact Prog.issues_bind hp fun _ => trivial

theorem issues_orThrow {o : Option α} {e : E} : Issues S (orThrow o e : Call Op Reply ε E α) := by
  cases o <;> trivial

theorem issues_failIf {c : Prop} [Decidable c] {e : E} :
    Issues S (failIf c e : Call Op Reply ε E Unit) := by
  unfold failIf
  split <;> trivial

theorem issues_doIf {c : Prop} [Decidable c] {p : Call Op Reply ε E Unit} (hp : Issues S p) :
    Issues S (doIf c p) := by
  unfold doIf
  split
  · exact hp
  · trivial

end Issues

/-! ## The errors of a call -/

/-- Whatever error the call returns satisfies `P`. -/
def Throws (h : Handler Op Reply ε σ) (P : E → Prop) (p : Call Op Reply ε E α) : Prop :=
  ∀ s e s', exec h p s = (.error e, s') → P e

section Throws

variable {P : E → Prop}

theorem throws_pure (a : α) : Throws h P (pure a : Call Op Reply ε E α) :=
  fun _ _ _ hx => nomatch hx

theorem throws_op {o : Op} {f : ε → E} (hf : ∀ e, P (f e)) : Throws h P (op o f) := by
  intro s e s' hx
  obtain ⟨e₀, -, rfl⟩ := mapError_eq_error.1 (Prod.mk.inj hx).1
  exact hf e₀

theorem throws_mapErr {p : Call Op Reply ε E' α} {f : E' → E} (hf : ∀ e, P (f e)) :
    Throws h P (mapErr f p) := by
  intro s e s' hx
  rw [exec_mapErr] at hx
  obtain ⟨e₀, -, rfl⟩ := mapError_eq_error.1 (Prod.mk.inj hx).1
  exact hf e₀

theorem throws_bind {p : Call Op Reply ε E α} {f : α → Call Op Reply ε E β} (hp : Throws h P p)
    (hf : ∀ a, Throws h P (f a)) : Throws h P (p >>= f) := by
  intro s e s' hx
  rw [exec_bind] at hx
  rcases hr : exec h p s with ⟨r, s₁⟩
  rw [hr] at hx
  cases r with
  | ok a => exact hf a s₁ e s' hx
  | error e₀ =>
    obtain ⟨rfl, rfl⟩ : e₀ = e ∧ s₁ = s' := by simpa using hx
    exact hp s e₀ s₁ hr

end Throws

/-! ## Where a call ends -/

/-- Whatever the call returns, it leaves the store in a state of `I`. -/
def Ends (h : Handler Op Reply ε σ) (I : σ → Prop) (p : Call Op Reply ε E α) (s : σ) : Prop :=
  I (exec h p s).2

section Ends

variable {I : σ → Prop} {s : σ}

theorem Ends.holds {p : Call Op Reply ε E α} {r : Except E α} {s' : σ} (hp : Ends h I p s)
    (hx : exec h p s = (r, s')) : I s' := by
  unfold Ends at hp
  rwa [hx] at hp

theorem ends_pure {a : α} (hs : I s) : Ends h I (pure a : Call Op Reply ε E α) s := hs

theorem ends_throw {e : E} (hs : I s) : Ends h I (throw e : Call Op Reply ε E α) s := hs

theorem ends_op {o : Op} {f : ε → E} (hs : I (h o s).2) : Ends h I (op o f) s := hs

theorem ends_attempt {o : Op} (hs : I (h o s).2) :
    Ends h I (attempt o : Call Op Reply ε E _) s := hs

theorem ends_orThrow {o : Option α} {e : E} (hs : I s) :
    Ends h I (orThrow o e : Call Op Reply ε E α) s := by
  cases o <;> exact hs

theorem ends_doIf {c : Prop} [Decidable c] {p : Call Op Reply ε E Unit} (hs : I s)
    (hp : Ends h I p s) : Ends h I (doIf c p) s := by
  unfold doIf
  split
  · exact hp
  · exact hs

/-- The first part ends in the invariant, and so does the second from wherever the first
succeeds. -/
theorem ends_bind {p : Call Op Reply ε E α} {f : α → Call Op Reply ε E β} (hp : Ends h I p s)
    (hf : ∀ a s', exec h p s = (.ok a, s') → I s' → Ends h I (f a) s') : Ends h I (p >>= f) s := by
  unfold Ends at hp ⊢
  rw [exec_bind]
  rcases hr : exec h p s with ⟨r, s'⟩
  rw [hr] at hp
  cases r with
  | error e => exact hp
  | ok a => exact hf a s' hr hp

theorem ends_bind_of_exec {p : Call Op Reply ε E α} {f : α → Call Op Reply ε E β} {a : α} {s' : σ}
    (hp : exec h p s = (.ok a, s')) (hf : Ends h I (f a) s') : Ends h I (p >>= f) s := by
  unfold Ends at hf ⊢
  rwa [exec_bind, hp]

theorem ends_orThrow_bind {o : Option α} {e : E} {f : α → Call Op Reply ε E β} (hs : I s)
    (hf : ∀ a, o = some a → Ends h I (f a) s) : Ends h I (orThrow o e >>= f) s := by
  refine ends_bind (ends_orThrow hs) fun a s' hr _ => ?_
  obtain ⟨ho, rfl⟩ := exec_orThrow_ok.1 hr
  exact hf a ho

end Ends

/-! ## Transactions run alone -/

/-- A call inside a transaction: an error rolls the store back. -/
def transaction (h : Handler Op Reply ε σ) (p : Call Op Reply ε E α) (s : σ) : Except E α × σ :=
  match exec h p s with
  | (.ok a, s') => (.ok a, s')
  | (.error e, _) => (.error e, s)

@[simp] theorem transaction_ok {p : Call Op Reply ε E α} {a : α} {s s' : σ} :
    transaction h p s = (.ok a, s') ↔ exec h p s = (.ok a, s') := by
  unfold transaction
  rcases exec h p s with ⟨r, s₁⟩
  cases r <;> simp

theorem transaction_error {p : Call Op Reply ε E α} {e : E} {s s' : σ}
    (hx : transaction h p s = (.error e, s')) : s' = s := by
  unfold transaction at hx
  split at hx
  · cases hx
  · exact (Prod.mk.inj hx).2.symm

/-- A transaction either does what its body does or leaves the store as it was. -/
theorem transaction_cases (p : Call Op Reply ε E α) (s : σ) :
    (∃ a s', exec h p s = (.ok a, s') ∧ transaction h p s = (.ok a, s')) ∨
      ∃ e, transaction h p s = (.error e, s) := by
  unfold transaction
  rcases exec h p s with ⟨r, s'⟩
  cases r with
  | ok a => exact .inl ⟨a, s', rfl, rfl⟩
  | error e => exact .inr ⟨e, rfl⟩

end Call

end Lib
