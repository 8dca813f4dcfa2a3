import IntentX.Lib.Prog
import Mathlib.Logic.Function.Basic

/-!
# Pools of tasks

Any number of programs share a store.  At each step one of them issues its next operation, and the
operation takes effect at once; `ν` is what the environment decides at that step.  A run records
its operations, newest first, each with the task that issued it and the store it met.

`Pool.play` runs a given schedule, and what it plays is a run (`Pool.Run.play`).
-/

namespace Lib

variable {Op : Type} {Reply : Op → Type} {ε σ ι ν : Type}

structure Pool (Op : Type) (Reply : Op → Type) (ε σ ι : Type) where
  store : σ
  task : ι → Prog Op Reply ε Unit

/-- An operation of a run. -/
structure Done (Op σ ι : Type) where
  task : ι
  op : Op
  store : σ

namespace Pool

variable [DecidableEq ι] (h : ν → Handler Op Reply ε σ)

/-- The pool after task `i`, which continues with `k`, has issued `o`. -/
def after (p : Pool Op Reply ε σ ι) (i : ι) (n : ν) (o : Op)
    (k : Except ε (Reply o) → Prog Op Reply ε Unit) : Pool Op Reply ε σ ι where
  store := (h n o p.store).2
  task := Function.update p.task i (k (h n o p.store).1)

inductive Run (p₀ : Pool Op Reply ε σ ι) : List (Done Op σ ι) → Pool Op Reply ε σ ι → Prop
  | start : Run p₀ [] p₀
  | step {l p} (run : Run p₀ l p) (i : ι) (n : ν) {o k} (ht : p.task i = .call o k) :
      Run p₀ (⟨i, o, p.store⟩ :: l) (p.after h i n o k)

/-- One turn of task `i`; a task that has returned does nothing. -/
def turn (x : List (Done Op σ ι) × Pool Op Reply ε σ ι) (i : ι) (n : ν) :
    List (Done Op σ ι) × Pool Op Reply ε σ ι :=
  match x.2.task i with
  | .ret _ => x
  | .call o k => (⟨i, o, x.2.store⟩ :: x.1, x.2.after h i n o k)

/-- The turns of a schedule, in order. -/
def play : List (ι × ν) → List (Done Op σ ι) × Pool Op Reply ε σ ι →
    List (Done Op σ ι) × Pool Op Reply ε σ ι
  | [], x => x
  | (i, n) :: sched, x => play sched (turn h x i n)

variable {h} {p₀ : Pool Op Reply ε σ ι}

/-- What a run does first is a run. -/
theorem Run.of_append {m l : List (Done Op σ ι)} {p : Pool Op Reply ε σ ι} (run : Run h p₀ (m ++ l) p) :
    ∃ p', Run h p₀ l p' := by
  induction m generalizing p with
  | nil => exact ⟨p, run⟩
  | cons d m ih =>
    cases run with
    | step run i n ht => exact ih run

theorem Run.turn {x : List (Done Op σ ι) × Pool Op Reply ε σ ι} (run : Run h p₀ x.1 x.2) (i : ι)
    (n : ν) : Run h p₀ (turn h x i n).1 (turn h x i n).2 := by
  unfold Pool.turn
  split
  · exact run
  · next ht => exact .step run i n ht

theorem Run.play {x : List (Done Op σ ι) × Pool Op Reply ε σ ι} (run : Run h p₀ x.1 x.2)
    (sched : List (ι × ν)) : Run h p₀ (play h sched x).1 (play h sched x).2 := by
  induction sched generalizing x with
  | nil => exact run
  | cons t sched ih => exact ih (run.turn t.1 t.2)

end Pool

end Lib
