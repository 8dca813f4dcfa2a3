import IntentX.Lib.Prog
import Mathlib.Data.List.Nodup

/-!
# Processes that crash

A process runs a program act by act, and at each act its surroundings take a turn `n : ν`: they
say what the act does (`h n`).  A life of a process is a program with a list of turns.  When the
turns run out the process has crashed, just before the act it was about to issue; a run of the
system is a list of lives, each starting from the store the last one left behind.

* `Along C` is a condition on the surroundings: every act of the life meets `C`, which sees the act,
  the turns from it on and the store.  So a condition can also speak of the acts that follow.
* `Lasts C I Q` is the weakest precondition: if the life meets `C`, then `I` holds wherever the
  process may crash and `Q` of what it returns.
-/

namespace Lib.Prog

variable {Op : Type} {Reply : Op → Type} {ε σ ν ι α β X : Type}

/-! ## Lives -/

/-- The result with the turns that are left, nothing after a crash; and the store. -/
def play (h : ν → Handler Op Reply ε σ) : Prog Op Reply ε α → List ν → σ → Option (α × List ν) × σ
  | ret a, ns, s => (some (a, ns), s)
  | call _ _, [], s => (none, s)
  | call o k, n :: ns, s => play h (k (h n o s).1) ns (h n o s).2

/-- Each act of the life meets `C`. -/
def Along (h : ν → Handler Op Reply ε σ) (C : Op → List ν → σ → Prop) :
    Prog Op Reply ε α → List ν → σ → Prop
  | ret _, _, _ => True
  | call _ _, [], _ => True
  | call o k, n :: ns, s => C o (n :: ns) s ∧ Along h C (k (h n o s).1) ns (h n o s).2

/-- What follows a program that has ended goes on with the turns that are left. -/
theorem play_bind {h : ν → Handler Op Reply ε σ} {p : Prog Op Reply ε α} {f : α → Prog Op Reply ε β}
    {a : α} {ns left : List ν} {s s' : σ} (hp : play h p ns s = (some (a, left), s')) :
    play h (p >>= f) ns s = play h (f a) left s' := by
  induction p generalizing ns s with
  | ret b =>
    cases hp
    rfl
  | call o k ih =>
    cases ns with
    | nil => cases hp
    | cons n ns => exact ih _ hp

/-- A condition on each turn. -/
theorem along_of_forall {h : ν → Handler Op Reply ε σ} {C : Op → List ν → σ → Prop} {G : ν → Prop}
    (hC : ∀ o n ns s, G n → C o (n :: ns) s) {p : Prog Op Reply ε α} {ns : List ν} {s : σ}
    (hns : ∀ n ∈ ns, G n) : Along h C p ns s := by
  induction p generalizing ns s with
  | ret a => trivial
  | call o k ih =>
    cases ns with
    | nil => trivial
    | cons n ns =>
      refine ⟨hC o n ns s (hns n List.mem_cons_self), ih _ fun m hm => ?_⟩
      exact hns m (List.mem_cons_of_mem _ hm)

def lives (h : ν → Handler Op Reply ε σ) (w : ι → Prog Op Reply ε α) : List (ι × List ν) → σ → σ
  | [], s => s
  | (i, ns) :: rest, s => lives h w rest (play h (w i) ns s).2

def AlongLives (h : ν → Handler Op Reply ε σ) (C : Op → List ν → σ → Prop)
    (w : ι → Prog Op Reply ε α) : List (ι × List ν) → σ → Prop
  | [], _ => True
  | (i, ns) :: rest, s => Along h C (w i) ns s ∧ AlongLives h C w rest (play h (w i) ns s).2

instance Along.decidable {h : ν → Handler Op Reply ε σ} {C : Op → List ν → σ → Prop}
    [dec : ∀ o ns s, Decidable (C o ns s)] :
    (p : Prog Op Reply ε α) → (ns : List ν) → (s : σ) → Decidable (Along h C p ns s)
  | ret _, _, _ => isTrue trivial
  | call _ _, [], _ => isTrue trivial
  | call o k, n :: ns, s =>
    @instDecidableAnd _ _ (dec o (n :: ns) s) (Along.decidable (k (h n o s).1) ns (h n o s).2)

instance AlongLives.decidable {h : ν → Handler Op Reply ε σ} {C : Op → List ν → σ → Prop}
    [∀ o ns s, Decidable (C o ns s)] {w : ι → Prog Op Reply ε α} :
    (l : List (ι × List ν)) → (s : σ) → Decidable (AlongLives h C w l s)
  | [], _ => isTrue trivial
  | (i, ns) :: rest, s =>
    @instDecidableAnd _ _ (Along.decidable (w i) ns s) (AlongLives.decidable rest (play h (w i) ns s).2)

/-- One round of a loop after the other; answers the sum of what they answer. -/
def forEach (body : X → Prog Op Reply ε Nat) : List X → Prog Op Reply ε Nat
  | [] => return 0
  | x :: xs => do
    let n ← body x
    let m ← forEach body xs
    return n + m

theorem issues_forEach {S : Op → Prop} {body : X → Prog Op Reply ε Nat} (hbody : ∀ x, (body x).Issues S)
    (xs : List X) : (forEach body xs).Issues S := by
  induction xs with
  | nil => trivial
  | cons x xs ih => exact issues_bind (hbody x) fun _ => issues_bind ih fun _ => trivial

/-! ## The weakest precondition -/

def Lasts (h : ν → Handler Op Reply ε σ) (C : Op → List ν → σ → Prop) (I : σ → Prop)
    (Q : α → σ → Prop) : Prog Op Reply ε α → List ν → σ → Prop
  | ret a, _, s => Q a s
  | call _ _, [], s => I s
  | call o k, n :: ns, s => C o (n :: ns) s → Lasts h C I Q (k (h n o s).1) ns (h n o s).2

section Lasts

variable {h : ν → Handler Op Reply ε σ} {C : Op → List ν → σ → Prop} {I : σ → Prop} {ns : List ν}
  {s : σ}

theorem Lasts.crash {Q : α → σ → Prop} {p : Prog Op Reply ε α} (hp : Lasts h C I Q p ns s)
    (hc : Along h C p ns s) (hx : (play h p ns s).1 = none) : I (play h p ns s).2 := by
  induction p generalizing ns s with
  | ret a => cases hx
  | call o k ih =>
    cases ns with
    | nil => exact hp
    | cons n ns => exact ih _ (hp hc.1) hc.2 hx

theorem Lasts.result {Q : α → σ → Prop} {p : Prog Op Reply ε α} (hp : Lasts h C I Q p ns s)
    (hc : Along h C p ns s) {a : α} {left : List ν} (hx : (play h p ns s).1 = some (a, left)) :
    Q a (play h p ns s).2 := by
  induction p generalizing ns s with
  | ret b =>
    cases hx
    exact hp
  | call o k ih =>
    cases ns with
    | nil => cases hx
    | cons n ns => exact ih _ (hp hc.1) hc.2 hx

/-- When `Q` gives `I`, the store is in `I` however the life ends. -/
theorem Lasts.keeps {Q : α → σ → Prop} {p : Prog Op Reply ε α} (hp : Lasts h C I Q p ns s)
    (hc : Along h C p ns s) (hQ : ∀ a s', Q a s' → I s') : I (play h p ns s).2 := by
  cases hx : (play h p ns s).1 with
  | none => exact hp.crash hc hx
  | some r => exact hQ _ _ (hp.result hc hx)

theorem Lasts.imp {I' : σ → Prop} {Q Q' : α → σ → Prop} {p : Prog Op Reply ε α}
    (hp : Lasts h C I Q p ns s) (hI : ∀ s', I s' → I' s') (hQ : ∀ a s', Q a s' → Q' a s') :
    Lasts h C I' Q' p ns s := by
  induction p generalizing ns s with
  | ret a => exact hQ a s hp
  | call o k ih =>
    cases ns with
    | nil => exact hI s hp
    | cons n ns => exact fun hc => ih _ (hp hc)

theorem Lasts.mono {Q Q' : α → σ → Prop} {p : Prog Op Reply ε α} (hp : Lasts h C I Q p ns s)
    (hQ : ∀ a s', Q a s' → Q' a s') : Lasts h C I Q' p ns s :=
  hp.imp (fun _ => id) hQ

theorem lasts_bind {Q : β → σ → Prop} {p : Prog Op Reply ε α} {f : α → Prog Op Reply ε β}
    (hp : Lasts h C I (fun a s' => ∀ ns', Lasts h C I Q (f a) ns' s') p ns s) :
    Lasts h C I Q (p >>= f) ns s := by
  induction p generalizing ns s with
  | ret a => exact hp ns
  | call o k ih =>
    cases ns with
    | nil => exact hp
    | cons n ns => exact fun hc => ih _ (hp hc)

theorem lasts_call {Q : α → σ → Prop} {o : Op} {k : Except ε (Reply o) → Prog Op Reply ε α}
    (hI : ns = [] → I s)
    (hk : ∀ n ns', ns = n :: ns' → C o (n :: ns') s → Lasts h C I Q (k (h n o s).1) ns' (h n o s).2) :
    Lasts h C I Q (call o k) ns s := by
  cases ns with
  | nil => exact hI rfl
  | cons n ns => exact fun hc => hk n ns rfl hc

/-- `J` of what the loop has left carries over a round. -/
theorem lasts_forEach {J : List X → σ → Prop} {body : X → Prog Op Reply ε Nat}
    (hbody : ∀ x xs ns s, J (x :: xs) s → Lasts h C I (fun _ s' => J xs s') (body x) ns s)
    {xs : List X} (hJ : J xs s) : Lasts h C I (fun _ s' => J [] s') (forEach body xs) ns s := by
  induction xs generalizing ns s with
  | nil => exact hJ
  | cons x xs ih =>
    refine lasts_bind ((hbody x xs ns s hJ).mono fun _ s' hs' ns' => ?_)
    exact lasts_bind ((ih hs').mono fun _ _ hend _ => hend)

/-- An invariant that the acts of the program keep. -/
theorem lasts_of_issues {S : Op → Prop}
    (hS : ∀ o, S o → ∀ n ns s, C o (n :: ns) s → I s → I (h n o s).2) {p : Prog Op Reply ε α}
    (hp : p.Issues S) (hs : I s) : Lasts h C I (fun _ s' => I s') p ns s := by
  induction p generalizing ns s with
  | ret a => exact hs
  | call o k ih =>
    cases ns with
    | nil => exact hs
    | cons n ns => exact fun hc => ih _ (hp.2 _) (hS o hp.1 n ns s hc hs)

/-- What every life keeps, all the lives keep. -/
theorem lives_keep {w : ι → Prog Op Reply ε α}
    (hw : ∀ i ns s, I s → Lasts h C I (fun _ s' => I s') (w i) ns s) {l : List (ι × List ν)}
    (hc : AlongLives h C w l s) (hs : I s) : I (lives h w l s) := by
  induction l generalizing s with
  | nil => exact hs
  | cons life rest ih => exact ih hc.2 ((hw life.1 life.2 s hs).keeps hc.1 fun _ _ => id)

end Lasts

end Lib.Prog

namespace Lib

instance existsOk {ε α : Type} : (r : Except ε α) → Decidable (∃ a, r = .ok a)
  | .ok a => isTrue ⟨a, rfl⟩
  | .error _ => isFalse nofun

instance existsError {ε α : Type} : (r : Except ε α) → Decidable (∃ e, r = .error e)
  | .ok _ => isFalse nofun
  | .error e => isTrue ⟨e, rfl⟩

/-! ## Effects that leave a mark -/

/-- No effect was done twice, and each has left its mark. -/
def Once {κ : Type} (done : List κ) (marked : κ → Prop) : Prop :=
  done.Nodup ∧ ∀ k ∈ done, marked k

namespace Once

variable {κ : Type} {done : List κ} {marked marked' : κ → Prop} {k : κ}

theorem nil : Once [] marked := ⟨List.nodup_nil, fun _ hk => nomatch hk⟩

theorem mono (h : Once done marked) (hm : ∀ k, marked k → marked' k) : Once done marked' :=
  ⟨h.1, fun k hk => hm k (h.2 k hk)⟩

theorem add (h : Once done marked) (hk : k ∉ done) (hmark : marked k) : Once (k :: done) marked := by
  refine ⟨List.nodup_cons.2 ⟨hk, h.1⟩, fun k' hk' => ?_⟩
  rcases List.mem_cons.1 hk' with rfl | hk'
  · exact hmark
  · exact h.2 k' hk'

theorem count_le [DecidableEq κ] (h : Once done marked) (k : κ) : done.count k ≤ 1 :=
  List.nodup_iff_count_le_one.1 h.1 k

end Once

end Lib

namespace Lib.Call

variable {Op : Type} {Reply : Op → Type} {ε E σ ν α β : Type} {h : ν → Handler Op Reply ε σ}
  {C : Op → List ν → σ → Prop} {I : σ → Prop} {ns : List ν} {s : σ}

theorem lasts_op {Q : Except E α → σ → Prop} {o : Op} {f : ε → E} {g : Reply o → Call Op Reply ε E α}
    (hI : ns = [] → I s)
    (hok : ∀ n ns' a, ns = n :: ns' → C o (n :: ns') s → (h n o s).1 = .ok a →
      Prog.Lasts h C I Q (g a).run ns' (h n o s).2)
    (herr : ∀ n ns' e, ns = n :: ns' → C o (n :: ns') s → (h n o s).1 = .error e →
      Q (.error (f e)) (h n o s).2) :
    Prog.Lasts h C I Q (op o f >>= g).run ns s := by
  refine Prog.lasts_call hI fun n ns' hns hc => ?_
  cases hr : (h n o s).1 with
  | ok a => exact hok n ns' a hns hc hr
  | error e => exact herr n ns' e hns hc hr

/-- One operation of a life that goes on. -/
theorem play_op_bind (o : Op) (f : ε → E) (g : Reply o → Call Op Reply ε E α) (n : ν) (ns : List ν)
    (s : σ) : Prog.play h (op o f >>= g).run (n :: ns) s =
      match h n o s with
      | (.ok a, s') => Prog.play h (g a).run ns s'
      | (.error e, s') => (some (.error (f e), ns), s') := by
  show Prog.play h _ ns (h n o s).2 = _
  rcases h n o s with ⟨r, s'⟩
  cases r <;> rfl

end Lib.Call
