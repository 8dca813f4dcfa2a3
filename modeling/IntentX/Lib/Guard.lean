import Mathlib.Logic.Basic

/-!
# Guarded computations

A call that reverts on the first failed check is a computation in `Except`.  The lemmas turn "it
ended well" into the conjunction of its checks, in order, with the values it computed on the way;
used as a simp set they take a whole body apart.
-/

namespace Lib

variable {ε α β : Type}

def require (p : Prop) [Decidable p] (e : ε) : Except ε Unit :=
  if p then .ok () else .error e

/-- `n`, if it is below the bound. -/
def within (bound n : Nat) (e : ε) : Except ε Nat :=
  if n < bound then .ok n else .error e

/-- `a - b`, unless it is negative. -/
def minus (a b : Nat) (e : ε) : Except ε Nat :=
  if b ≤ a then .ok (a - b) else .error e

/-- The value, if there is one. -/
def orFail (o : Option α) (e : ε) : Except ε α :=
  match o with
  | some a => .ok a
  | none => .error e

namespace Guard

theorem bind_ok {x : Except ε α} {f : α → Except ε β} {b : β} :
    (x >>= f) = .ok b ↔ ∃ a, x = .ok a ∧ f a = .ok b := by
  cases x with
  | error e => exact ⟨nofun, fun ⟨_, h, _⟩ => nomatch h⟩
  | ok a => exact ⟨fun h => ⟨a, rfl, h⟩, fun ⟨_, h, hf⟩ => by cases h; exact hf⟩

theorem pure_ok {a b : α} : (pure a : Except ε α) = .ok b ↔ a = b :=
  ⟨fun h => by cases h; rfl, fun h => by rw [h]; rfl⟩

theorem require_ok {p : Prop} [Decidable p] {e : ε} {u : Unit} : require p e = .ok u ↔ p := by
  unfold require
  split <;> simp [*]

theorem require_bind {p : Prop} [Decidable p] {e : ε} {f : Unit → Except ε β} {b : β} :
    (require p e >>= f) = .ok b ↔ p ∧ f () = .ok b := by
  simp only [bind_ok, require_ok]
  exact ⟨fun ⟨_, hp, hf⟩ => ⟨hp, hf⟩, fun ⟨hp, hf⟩ => ⟨(), hp, hf⟩⟩

theorem within_bind {bound n : Nat} {e : ε} {f : Nat → Except ε β} {b : β} :
    (within bound n e >>= f) = .ok b ↔ n < bound ∧ f n = .ok b := by
  unfold within
  split
  · next h => exact ⟨fun hf => ⟨h, hf⟩, fun hf => hf.2⟩
  · next h => exact ⟨nofun, fun hf => absurd hf.1 h⟩

theorem minus_bind {a c : Nat} {e : ε} {f : Nat → Except ε β} {b : β} :
    (minus a c e >>= f) = .ok b ↔ c ≤ a ∧ f (a - c) = .ok b := by
  unfold minus
  split
  · next h => exact ⟨fun hf => ⟨h, hf⟩, fun hf => hf.2⟩
  · next h => exact ⟨nofun, fun hf => absurd hf.1 h⟩

theorem orFail_bind {o : Option α} {e : ε} {f : α → Except ε β} {b : β} :
    (orFail o e >>= f) = .ok b ↔ ∃ a, o = some a ∧ f a = .ok b := by
  cases o with
  | none => exact ⟨nofun, fun ⟨_, h, _⟩ => nomatch h⟩
  | some a => exact ⟨fun h => ⟨a, rfl, h⟩, fun ⟨_, h, hf⟩ => by cases h; exact hf⟩

end Guard

end Lib
