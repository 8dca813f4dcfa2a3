import IntentX.Lib.Pool

/-!
# Programs that send one message

Some of the operations of a program send a message, which `sends` reads off them.  A program `Yields` what
it returns when it sends nothing, whatever it is answered, and `Commits` to `S` when all that it sends is
one message, which is in `S`.  Each is proved along the program: what is sent is made up first, by a part
that yields it, and sent by a part that `Repeats` it.

In a run of a pool whose tasks commit, each task has sent one message, however often (`run_once`).
-/

namespace Lib

variable {Op : Type} {Reply : Op → Type} {ε E E' σ ι ν τ α β : Type} {sends : Op → Option τ}

namespace Prog

/-- Sends nothing, and returns what `Q` holds of. -/
def Yields (sends : Op → Option τ) (Q : α → Prop) : Prog Op Reply ε α → Prop
  | ret a => Q a
  | call o k => sends o = none ∧ ∀ r, Yields sends Q (k r)

/-- Sends nothing but `t`. -/
def Repeats (sends : Op → Option τ) (t : τ) (p : Prog Op Reply ε α) : Prop :=
  p.Issues fun o => ∀ t', sends o = some t' → t' = t

/-- Sends nothing but one message of `S`. -/
def Commits (sends : Op → Option τ) (S : τ → Prop) : Prog Op Reply ε α → Prop
  | ret _ => True
  | call o k => match sends o with
    | none => ∀ r, Commits sends S (k r)
    | some t => S t ∧ ∀ r, (k r).Repeats sends t

variable {Q : α → Prop} {Q' : β → Prop} {S : τ → Prop} {t : τ}

theorem yields_of_issues {p : Prog Op Reply ε α} (h : p.Issues fun o => sends o = none) :
    p.Yields sends fun _ => True := by
  induction p with
  | ret a => trivial
  | call o k ih => exact ⟨h.1, fun r => ih r (h.2 r)⟩

theorem Yields.mono {Q' : α → Prop} {p : Prog Op Reply ε α} (hp : p.Yields sends Q)
    (h : ∀ a, Q a → Q' a) : p.Yields sends Q' := by
  induction p with
  | ret a => exact h a hp
  | call o k ih => exact ⟨hp.1, fun r => ih r (hp.2 r)⟩

theorem yields_bind {p : Prog Op Reply ε α} {f : α → Prog Op Reply ε β} (hp : p.Yields sends Q)
    (hf : ∀ a, Q a → (f a).Yields sends Q') : (p >>= f).Yields sends Q' := by
  induction p with
  | ret a => exact hf a hp
  | call o k ih => exact ⟨hp.1, fun r => ih r (hp.2 r)⟩

theorem commits_bind {p : Prog Op Reply ε α} {f : α → Prog Op Reply ε β} (hp : p.Yields sends Q)
    (hf : ∀ a, Q a → (f a).Commits sends S) : (p >>= f).Commits sends S := by
  induction p with
  | ret a => exact hf a hp
  | call o k ih =>
    have hnext : ∀ r, (k r >>= f).Commits sends S := fun r => ih r (hp.2 r)
    rw [call_bind, Commits, hp.1]
    exact hnext

/-- What is done with the result does not matter. -/
theorem commits_bind_ret {p : Prog Op Reply ε α} {f : α → β} (hp : p.Commits sends S) :
    (p >>= fun a => ret (f a)).Commits sends S := by
  induction p with
  | ret a => trivial
  | call o k ih =>
    rw [call_bind, Commits]
    unfold Commits at hp
    split
    · next ho =>
      rw [ho] at hp
      exact fun r => ih r (hp r)
    · next t ho =>
      rw [ho] at hp
      exact ⟨hp.1, fun r => issues_bind (hp.2 r) fun _ => trivial⟩

/-- What repeats a message of `S` commits to it. -/
theorem Repeats.commits {p : Prog Op Reply ε α} (hp : p.Repeats sends t) (ht : S t) :
    p.Commits sends S := by
  induction p with
  | ret a => trivial
  | call o k ih =>
    unfold Commits
    split
    · exact fun r => ih r (hp.2 r)
    · next t' hsent =>
      obtain rfl := hp.1 t' hsent
      exact ⟨ht, hp.2⟩

end Prog

/-! ## Calls -/

namespace Call

/-- Sends nothing, and `Q` holds of what it returns. -/
def Yields (sends : Op → Option τ) (Q : α → Prop) (p : Call Op Reply ε E α) : Prop :=
  p.run.Yields sends fun r => ∀ a, r = .ok a → Q a

def Commits (sends : Op → Option τ) (S : τ → Prop) (p : Call Op Reply ε E α) : Prop :=
  p.run.Commits sends S

variable {Q : α → Prop} {Q' : β → Prop} {S : τ → Prop}

theorem yields_pure {a : α} (h : Q a) : Yields sends Q (pure a : Call Op Reply ε E α) := by
  rintro _ ⟨⟩
  exact h

theorem yields_throw (e : E) : Yields sends Q (throw e : Call Op Reply ε E α) := nofun

theorem yields_failIf {c : Prop} [Decidable c] {e : E} :
    Yields sends (fun _ => ¬ c) (failIf c e : Call Op Reply ε E Unit) := by
  unfold failIf
  split
  · exact yields_throw e
  · next h => exact yields_pure h

theorem yields_of_issues {p : Call Op Reply ε E α} (h : Issues (fun o => sends o = none) p) :
    Yields sends (fun _ => True) p := (Prog.yields_of_issues h).mono fun _ _ _ _ => trivial

theorem yields_bind {p : Call Op Reply ε E α} {f : α → Call Op Reply ε E β} (hp : Yields sends Q p)
    (hf : ∀ a, Q a → Yields sends Q' (f a)) : Yields sends Q' (p >>= f) := by
  unfold Yields
  rw [ExceptT.run_bind]
  refine Prog.yields_bind hp fun r hr => ?_
  cases r with
  | ok a => exact hf a (hr a rfl)
  | error e => exact nofun

theorem yields_mapErr {f : E → E'} {p : Call Op Reply ε E α} (hp : Yields sends Q p) :
    Yields sends Q (mapErr f p) := by
  show (p.run >>= fun r => Prog.ret (r.mapError f)).Yields sends _
  refine Prog.yields_bind hp fun r hr a ha => ?_
  cases r with
  | ok b => exact hr a (congrArg Except.ok (Except.ok.inj ha))
  | error e => exact nomatch ha

theorem commits_bind {p : Call Op Reply ε E α} {f : α → Call Op Reply ε E β} (hp : Yields sends Q p)
    (hf : ∀ a, Q a → Commits sends S (f a)) : Commits sends S (p >>= f) := by
  unfold Commits
  rw [ExceptT.run_bind]
  refine Prog.commits_bind hp fun r hr => ?_
  cases r with
  | ok a => exact hf a (hr a rfl)
  | error e => trivial

end Call

/-! ## Runs -/

/-- Every task has sent one message, which is in its `S`. -/
def SendsOnce (sends : Op → Option τ) (S : ι → τ → Prop) (l : List (Done Op σ ι)) : Prop :=
  ∀ d ∈ l, ∀ t, sends d.op = some t → S d.task t ∧
    ∀ d' ∈ l, d'.task = d.task → ∀ t', sends d'.op = some t' → t' = t

/-- What a task has still to do: it has sent nothing and commits to `S`, or it has sent `t` and repeats
it. -/
def Committed (sends : Op → Option τ) (S : τ → Prop) (l : List (Done Op σ ι)) (i : ι)
    (p : Prog Op Reply ε α) : Prop :=
  (p.Commits sends S ∧ ∀ d ∈ l, d.task = i → sends d.op = none) ∨
  ∃ t, S t ∧ p.Repeats sends t ∧ ∀ d ∈ l, d.task = i → ∀ t', sends d.op = some t' → t' = t

section Runs

variable {S : ι → τ → Prop} {l : List (Done Op σ ι)} {i j : ι} {o : Op} {s : σ}

/-- The operations of the others do not matter. -/
theorem Committed.other {T : τ → Prop} {p : Prog Op Reply ε α} (h : Committed sends T l i p)
    (hj : j ≠ i) : Committed sends T (⟨j, o, s⟩ :: l) i p := by
  have hmem : ∀ d ∈ (⟨j, o, s⟩ : Done Op σ ι) :: l, d.task = i → d ∈ l := by
    intro d hd hi
    rcases List.mem_cons.1 hd with rfl | hd
    · exact absurd hi hj
    · exact hd
  rcases h with ⟨hc, hnone⟩ | ⟨t, ht, hr, hall⟩
  · exact .inl ⟨hc, fun d hd hi => hnone d (hmem d hd hi) hi⟩
  · exact .inr ⟨t, ht, hr, fun d hd hi => hall d (hmem d hd hi) hi⟩

/-- The task issues its next operation. -/
theorem Committed.next {T : τ → Prop} {k : Except ε (Reply o) → Prog Op Reply ε α}
    (h : Committed sends T l i (.call o k)) (r : Except ε (Reply o)) :
    Committed sends T (⟨i, o, s⟩ :: l) i (k r) := by
  rcases h with ⟨hc, hnone⟩ | ⟨t, ht, hr, hall⟩
  · unfold Prog.Commits at hc
    split at hc
    · next ho =>
      refine .inl ⟨hc r, fun d hd hi => ?_⟩
      rcases List.mem_cons.1 hd with rfl | hd
      · exact ho
      · exact hnone d hd hi
    · next t ho =>
      refine .inr ⟨t, hc.1, hc.2 r, fun d hd hi t' ht' => ?_⟩
      rcases List.mem_cons.1 hd with rfl | hd
      · exact Option.some.inj (ht'.symm.trans ho)
      · exact nomatch (hnone d hd hi).symm.trans ht'
  · refine .inr ⟨t, ht, hr.2 r, fun d hd hi t' ht' => ?_⟩
    rcases List.mem_cons.1 hd with rfl | hd
    · exact hr.1 t' ht'
    · exact hall d hd hi t' ht'

/-- What the task has sent, it has sent once. -/
theorem Committed.sent {T : τ → Prop} {p : Prog Op Reply ε α} (h : Committed sends T l i p)
    {d : Done Op σ ι} (hd : d ∈ l) (hi : d.task = i) {t : τ} (ht : sends d.op = some t) :
    T t ∧ ∀ d' ∈ l, d'.task = i → ∀ t', sends d'.op = some t' → t' = t := by
  rcases h with ⟨-, hnone⟩ | ⟨t₀, ht₀, -, hall⟩
  · exact nomatch (hnone d hd hi).symm.trans ht
  · obtain rfl := hall d hd hi t ht
    exact ⟨ht₀, hall⟩

variable [DecidableEq ι] {h : ν → Handler Op Reply ε σ} {p₀ p : Pool Op Reply ε σ ι}

theorem run_committed (run : Pool.Run h p₀ l p) (hc : ∀ i, (p₀.task i).Commits sends (S i)) (i : ι) :
    Committed sends (S i) l i (p.task i) := by
  induction run generalizing i with
  | start => exact .inl ⟨hc i, fun d hd => nomatch hd⟩
  | @step l p run j n o k ht ih =>
    by_cases hij : i = j
    · subst hij
      have hi := ih i
      rw [ht] at hi
      show Committed sends (S i) _ i (Function.update p.task i (k (h n o p.store).1) i)
      rw [Function.update_self]
      exact hi.next _
    · show Committed sends (S i) _ i (Function.update p.task j (k (h n o p.store).1) i)
      rw [Function.update_of_ne hij]
      exact (ih i).other fun hji => hij hji.symm

/-- In every run of tasks that commit, each has sent one message. -/
theorem run_once (run : Pool.Run h p₀ l p) (hc : ∀ i, (p₀.task i).Commits sends (S i)) :
    SendsOnce sends S l := fun d hd _ ht => (run_committed run hc d.task).sent hd rfl ht

end Runs

end Lib
