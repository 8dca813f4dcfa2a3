import IntentX.Lib.Pool

/-!
# Rely and guarantee for pools of tasks

A property of a pool is proved one task at a time.  A `Protocol` says what holds in every state of
a run (`inv`), how the state may change while a task is not looking (`rely`), what each operation
that a task issues has to meet when it takes effect (`may`), and what is taken for granted of the
operations of the run (`given`).  A state is the store together with the operations so far.

`Protocol.Follows i Q p x` says that task `i`, about to run `p` in state `x`, issues operations
that meet `may`, whatever the other tasks do in between within `rely`, and that `Q` holds when it
returns.  In between the task itself is idle (`Trace.Idle`), so it can count on what it has done.
It is proved along the program, `follows_bind` and `follows_bind_run` taking a sequence apart.  If
every task follows the protocol, so does every run (`Protocol.run_follows`).
-/

namespace Lib

variable {Op : Type} {Reply : Op → Type} {ε E σ ι ν α β : Type}

/-- The operations of a run so far, newest first, and the store they have led to. -/
abbrev Trace (Op σ ι : Type) := List (Done Op σ ι) × σ

/-- Task `i` issues `o`. -/
def Trace.next (h : ν → Handler Op Reply ε σ) (x : Trace Op σ ι) (i : ι) (n : ν) (o : Op) :
    Trace Op σ ι :=
  (⟨i, o, x.2⟩ :: x.1, (h n o x.2).2)

/-- Task `i` issues nothing between `x` and `y`. -/
def Trace.Idle (i : ι) (x y : Trace Op σ ι) : Prop := ∃ m, y.1 = m ++ x.1 ∧ ∀ d ∈ m, d.task ≠ i

theorem Trace.Idle.refl (i : ι) (x : Trace Op σ ι) : x.Idle i x := ⟨[], rfl, fun _ hd => nomatch hd⟩

theorem Trace.Idle.trans {i : ι} {x y z : Trace Op σ ι} (h : x.Idle i y) (h' : y.Idle i z) :
    x.Idle i z := by
  obtain ⟨m, hm, hi⟩ := h
  obtain ⟨m', hm', hi'⟩ := h'
  refine ⟨m' ++ m, by rw [hm', hm, List.append_assoc], fun d hd => ?_⟩
  rcases List.mem_append.1 hd with hd | hd
  · exact hi' d hd
  · exact hi d hd

theorem Trace.Idle.next {h : ν → Handler Op Reply ε σ} {i j : ι} (hij : i ≠ j) (x : Trace Op σ ι)
    (n : ν) (o : Op) : x.Idle j (x.next h i n o) :=
  ⟨[⟨i, o, x.2⟩], rfl, fun d hd => by rwa [List.mem_singleton.1 hd]⟩

/-- What passes over the operations of others reads the same after them. -/
theorem Trace.Idle.reading {f : List (Done Op σ ι) → α} {i : ι} {x y : Trace Op σ ι} (h : x.Idle i y)
    (hf : ∀ d l, d.task ≠ i → f (d :: l) = f l) : f y.1 = f x.1 := by
  obtain ⟨m, hm, hi⟩ := h
  rw [hm]
  clear hm
  induction m with
  | nil => rfl
  | cons d m ih =>
    rw [List.cons_append, hf d _ (hi d List.mem_cons_self)]
    exact ih fun d' hd' => hi d' (List.mem_cons_of_mem d hd')

structure Protocol (h : ν → Handler Op Reply ε σ) (ι : Type) where
  inv : Trace Op σ ι → Prop
  rely : Trace Op σ ι → Trace Op σ ι → Prop
  may : ι → Trace Op σ ι → Op → Prop
  given : ι → Trace Op σ ι → Op → Prop
  refl : ∀ x, rely x x
  trans : ∀ {x y z}, rely x y → rely y z → rely x z
  step : ∀ {i x o} (n : ν), inv x → may i x o → given i x o →
    inv (x.next h i n o) ∧ rely x (x.next h i n o)

namespace Protocol

variable {h : ν → Handler Op Reply ε σ} (P : Protocol h ι)

def Follows (i : ι) (Q : α → Trace Op σ ι → Prop) : Prog Op Reply ε α → Trace Op σ ι → Prop
  | .ret a, x => Q a x
  | .call o k, x => ∀ y, P.rely x y → x.Idle i y → P.inv y → P.given i y o →
      P.may i y o ∧ ∀ n, Follows i Q (k (h n o y.2).1) (y.next h i n o)

/-- What is taken for granted of the operations of a run. -/
def Given : List (Done Op σ ι) → Prop
  | [] => True
  | d :: l => P.given d.task (l, d.store) d.op ∧ Given l

variable {P} {i : ι} {x y : Trace Op σ ι}

theorem given_of_forall (hg : ∀ i x o, P.given i x o) (l : List (Done Op σ ι)) : P.Given l := by
  induction l with
  | nil => trivial
  | cons d l ih => exact ⟨hg _ _ _, ih⟩

theorem given_of_mem {l : List (Done Op σ ι)} (hg : ∀ d ∈ l, ∀ l', P.given d.task (l', d.store) d.op) :
    P.Given l := by
  induction l with
  | nil => trivial
  | cons d l ih => exact ⟨hg d List.mem_cons_self _, ih fun d' hd => hg d' (List.mem_cons_of_mem _ hd)⟩

/-! ## Rules for programs -/

theorem follows_ret {Q : α → Trace Op σ ι → Prop} {a : α} (hq : Q a x) :
    P.Follows i Q (.ret a) x := hq

theorem follows_bind {Q : β → Trace Op σ ι → Prop} {p : Prog Op Reply ε α}
    {f : α → Prog Op Reply ε β} (hp : P.Follows i (fun a y => P.Follows i Q (f a) y) p x) :
    P.Follows i Q (p >>= f) x := by
  induction p generalizing x with
  | ret a => exact hp
  | call o k ih =>
    intro y hr hidle hinv hg
    obtain ⟨hmay, hk⟩ := hp y hr hidle hinv hg
    exact ⟨hmay, fun n => ih _ (hk n)⟩

theorem Follows.mono {Q Q' : α → Trace Op σ ι → Prop} {p : Prog Op Reply ε α}
    (hp : P.Follows i Q p x) (hq : ∀ a y, Q a y → Q' a y) : P.Follows i Q' p x := by
  induction p generalizing x with
  | ret a => exact hq a x hp
  | call o k ih =>
    intro y hr hidle hinv hg
    obtain ⟨hmay, hk⟩ := hp y hr hidle hinv hg
    exact ⟨hmay, fun n => ih _ (hk n)⟩

/-- A program that is still to run does not mind what the others do. -/
theorem Follows.rely {p : Prog Op Reply ε α} (hp : P.Follows i (fun _ _ => True) p x)
    (hr : P.rely x y) (hidle : x.Idle i y) : P.Follows i (fun _ _ => True) p y := by
  cases p with
  | ret a => trivial
  | call o k => exact fun z hz hz' hinv hg => hp z (P.trans hr hz) (hidle.trans hz') hinv hg

/-- A protocol that asks for less of the tasks, and allows less to the others. -/
theorem Follows.of_protocol {P' : Protocol h ι} {Q : α → Trace Op σ ι → Prop}
    (hrely : ∀ x y, P'.rely x y → P.rely x y) (hinv : ∀ x, P'.inv x → P.inv x)
    (hgiven : ∀ x o, P'.given i x o → P.given i x o) (hmay : ∀ x o, P.may i x o → P'.may i x o)
    {p : Prog Op Reply ε α} (hp : P.Follows i Q p x) : P'.Follows i Q p x := by
  induction p generalizing x with
  | ret a => exact hp
  | call o k ih =>
    intro y hr hidle hi hg
    obtain ⟨hm, hk⟩ := hp y (hrely _ _ hr) hidle (hinv _ hi) (hgiven _ _ hg)
    exact ⟨hmay _ _ hm, fun n => ih _ (hk n)⟩

/-! ## Rules for calls -/

theorem follows_pure {Q : Except E α → Trace Op σ ι → Prop} {a : α} (hq : Q (.ok a) x) :
    P.Follows i Q (pure a : Call Op Reply ε E α).run x := hq

theorem follows_op {o : Op} {f : ε → E} {Q : Except E (Reply o) → Trace Op σ ι → Prop}
    (hq : ∀ y, P.rely x y → P.inv y → P.given i y o →
      P.may i y o ∧ ∀ n, Q ((h n o y.2).1.mapError f) (y.next h i n o)) :
    P.Follows i Q (Call.op o f).run x := fun y hr _ => hq y hr

theorem follows_attempt {o : Op} {Q : Except E (Option (Reply o)) → Trace Op σ ι → Prop}
    (hq : ∀ y, P.rely x y → x.Idle i y → P.inv y → P.given i y o →
      P.may i y o ∧ ∀ n, Q (.ok (h n o y.2).1.toOption) (y.next h i n o)) :
    P.Follows i Q (Call.attempt o : Call Op Reply ε E _).run x := hq

theorem follows_bind_run {Q : Except E β → Trace Op σ ι → Prop} {p : Call Op Reply ε E α}
    {f : α → Call Op Reply ε E β}
    (hp : P.Follows i (fun r y => match r with
      | .ok a => P.Follows i Q (f a).run y
      | .error e => Q (.error e) y) p.run x) :
    P.Follows i Q (p >>= f).run x := by
  rw [ExceptT.run_bind]
  refine follows_bind (hp.mono fun r y hr => ?_)
  cases r with
  | ok a => exact hr
  | error e => exact hr

theorem follows_failIf {c : Prop} [Decidable c] {e : E} {Q : Except E Unit → Trace Op σ ι → Prop}
    (herr : c → Q (.error e) x) (hok : ¬ c → Q (.ok ()) x) :
    P.Follows i Q (Call.failIf c e : Call Op Reply ε E Unit).run x := by
  unfold Call.failIf
  split
  · next hc => exact herr hc
  · next hc => exact hok hc

theorem follows_orThrow {o : Option α} {e : E} {Q : Except E α → Trace Op σ ι → Prop}
    (herr : o = none → Q (.error e) x) (hok : ∀ a, o = some a → Q (.ok a) x) :
    P.Follows i Q (Call.orThrow o e : Call Op Reply ε E α).run x := by
  cases o with
  | none => exact herr rfl
  | some a => exact hok a rfl

theorem follows_mapErr {E' : Type} {f : E → E'} {p : Call Op Reply ε E α}
    {Q : Except E' α → Trace Op σ ι → Prop}
    (hp : P.Follows i (fun r y => Q (r.mapError f) y) p.run x) :
    P.Follows i Q (Call.mapErr f p).run x := by
  show P.Follows i Q (p.run >>= fun r => Prog.ret (r.mapError f)) x
  exact follows_bind hp

/-- Go on whatever comes of a call. -/
theorem follows_lift {p : Call Op Reply ε E α} {E' : Type}
    {Q : Except E' (Except E α) → Trace Op σ ι → Prop}
    (hp : P.Follows i (fun r y => Q (.ok r) y) p.run x) :
    P.Follows i Q (ExceptT.lift p.run : Call Op Reply ε E' _).run x := by
  show P.Follows i Q (p.run >>= fun r => Prog.ret (Except.ok r)) x
  exact follows_bind hp

/-! ## Rules for embedded calls -/

section Embed

variable {Op₀ : Type} {Reply₀ : Op₀ → Type} {ε₀ : Type} {f : Op₀ → Op}
  {back : (o : Op₀) → Except ε (Reply (f o)) → Except ε₀ (Reply₀ o)}

theorem follows_embed_bind {p : Call Op₀ Reply₀ ε₀ E α} {g : α → Call Op₀ Reply₀ ε₀ E β}
    {Q : Except E β → Trace Op σ ι → Prop}
    (hp : P.Follows i (fun r y => match r with
      | .ok a => P.Follows i Q (Prog.embed f back (g a).run) y
      | .error e => Q (.error e) y) (Prog.embed f back p.run) x) :
    P.Follows i Q (Prog.embed f back (p >>= g).run) x := by
  rw [ExceptT.run_bind, Prog.embed_bind]
  refine follows_bind (hp.mono fun r y hr => ?_)
  cases r with
  | ok a => exact hr
  | error e => exact hr

theorem follows_embed_op {o : Op₀} {g : ε₀ → E} {Q : Except E (Reply₀ o) → Trace Op σ ι → Prop}
    (hq : ∀ y, P.rely x y → P.inv y → P.given i y (f o) →
      P.may i y (f o) ∧ ∀ n, Q ((back o (h n (f o) y.2).1).mapError g) (y.next h i n (f o))) :
    P.Follows i Q (Prog.embed f back (Call.op o g : Call Op₀ Reply₀ ε₀ E _).run) x :=
  fun y hr _ => hq y hr

theorem follows_embed_attempt {o : Op₀} {Q : Except E (Option (Reply₀ o)) → Trace Op σ ι → Prop}
    (hq : ∀ y, P.rely x y → P.inv y → P.given i y (f o) →
      P.may i y (f o) ∧ ∀ n, Q (.ok (back o (h n (f o) y.2).1).toOption) (y.next h i n (f o))) :
    P.Follows i Q (Prog.embed f back (Call.attempt o : Call Op₀ Reply₀ ε₀ E _).run) x :=
  fun y hr _ => hq y hr

theorem follows_embed_orThrow {o : Option α} {e : E} {Q : Except E α → Trace Op σ ι → Prop}
    (herr : o = none → Q (.error e) x) (hok : ∀ a, o = some a → Q (.ok a) x) :
    P.Follows i Q (Prog.embed f back (Call.orThrow o e : Call Op₀ Reply₀ ε₀ E α).run) x := by
  cases o with
  | none => exact herr rfl
  | some a => exact hok a rfl

end Embed

/-! ## Programs whose answers do not matter -/

/-- Task `i` may run `p` in any state. -/
def Obeys (P : Protocol h ι) (i : ι) (p : Prog Op Reply ε α) : Prop :=
  ∀ x, P.Follows i (fun _ _ => True) p x

theorem obeys_ret (a : α) : P.Obeys i (.ret a : Prog Op Reply ε α) := fun _ => trivial

theorem obeys_ask {o : Op} (ho : ∀ y, P.may i y o) : P.Obeys i (Prog.ask o) :=
  fun _ y _ _ _ _ => ⟨ho y, fun _ => trivial⟩

theorem obeys_op {o : Op} {f : ε → E} (ho : ∀ y, P.may i y o) :
    P.Obeys i (Call.op o f : Call Op Reply ε E _).run :=
  fun _ y _ _ _ _ => ⟨ho y, fun _ => trivial⟩

theorem obeys_bind {p : Prog Op Reply ε α} {f : α → Prog Op Reply ε β} (hp : P.Obeys i p)
    (hf : ∀ a, P.Obeys i (f a)) : P.Obeys i (p >>= f) :=
  fun x => follows_bind ((hp x).mono fun a y _ => hf a y)

theorem obeys_bind_run {p : Call Op Reply ε E α} {f : α → Call Op Reply ε E β}
    (hp : P.Obeys i p.run) (hf : ∀ a, P.Obeys i (f a).run) : P.Obeys i (p >>= f).run := by
  refine fun x => follows_bind_run ((hp x).mono fun r y _ => ?_)
  cases r with
  | ok a => exact hf a y
  | error e => trivial

theorem obeys_failIf {c : Prop} [Decidable c] {e : E} :
    P.Obeys i (Call.failIf c e : Call Op Reply ε E Unit).run :=
  fun _ => follows_failIf (fun _ => trivial) fun _ => trivial

/-- A program obeys if none of its operations asks for anything. -/
theorem obeys_of_issues {S : Op → Prop} (hS : ∀ o, S o → ∀ y, P.may i y o) {p : Prog Op Reply ε α}
    (hp : p.Issues S) : P.Obeys i p := by
  induction p with
  | ret a => exact obeys_ret a
  | call o k ih => exact fun _ y _ _ _ _ => ⟨hS o hp.1 y, fun n => ih _ (hp.2 _) _⟩

/-! ## Runs -/

variable [DecidableEq ι]

/-- What a protocol makes of a run: the invariant holds at its end, and each of its operations met
the invariant and what the operation has to meet; the end is within reach of every step. -/
structure Kept (P : Protocol h ι) (l : List (Done Op σ ι)) (s : σ) : Prop where
  inv : P.inv (l, s)
  past : ∀ d ∈ l, ∃ l', P.inv (l', d.store) ∧ P.may d.task (l', d.store) d.op ∧
    P.given d.task (l', d.store) d.op ∧ P.rely (l', d.store) (l, s)

/-- **Every run of tasks that follow the protocol keeps it.** -/
theorem run_follows {p₀ p : Pool Op Reply ε σ ι} {l : List (Done Op σ ι)}
    (run : Pool.Run h p₀ l p) (hgiven : P.Given l) (hinv : P.inv ([], p₀.store))
    (htask : ∀ i, P.Follows i (fun _ _ => True) (p₀.task i) ([], p₀.store)) :
    P.Kept l p.store ∧ ∀ i, P.Follows i (fun _ _ => True) (p.task i) (l, p.store) := by
  induction run with
  | start => exact ⟨⟨hinv, fun d hd => (nomatch hd)⟩, htask⟩
  | @step l p run i n o k ht ih =>
    obtain ⟨hkept, htasks⟩ := ih hgiven.2
    have hi := htasks i
    rw [ht] at hi
    obtain ⟨hmay, hk⟩ := hi (l, p.store) (P.refl _) (Trace.Idle.refl i _) hkept.inv hgiven.1
    obtain ⟨hnext, hrely⟩ := P.step n hkept.inv hmay hgiven.1
    refine ⟨⟨hnext, fun d hd => ?_⟩, fun j => ?_⟩
    · rcases List.mem_cons.1 hd with rfl | hd
      · exact ⟨l, hkept.inv, hmay, hgiven.1, hrely⟩
      · obtain ⟨l', hinv', hmay', hg', hr'⟩ := hkept.past d hd
        exact ⟨l', hinv', hmay', hg', P.trans hr' hrely⟩
    · show P.Follows j _ (Function.update p.task i _ j) _
      by_cases hji : j = i
      · subst hji
        rw [Function.update_self]
        exact hk n
      · rw [Function.update_of_ne hji]
        exact (htasks j).rely hrely (Trace.Idle.next (fun hij => hji hij.symm) (l, p.store) n o)

end Protocol

end Lib
