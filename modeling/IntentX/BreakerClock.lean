import IntentX.Receipts

/-!
# The clock of the circuit breaker

A `call` that finds the circuit open asks twice how long it has been open: whether the timeout has passed, and
if not, how much of it remains.  The second answer may be past the timeout where the first was not, and then
the subtraction of the durations panics.  Nothing else goes wrong with the clock (`call_returns_iff`).
-/

namespace IntentX.CircuitBreaker

open Lib Machine

/-- A result came back, and the seconds that remain are within the timeout. -/
def Returns {E α : Type} (c : Config) : Except (CircuitError E) α → Prop
  | .ok _ | .error (.Inner _) => True
  | .error (.Open _ remainingSecs) => remainingSecs * 1000000000 ≤ c.resetTimeout
  | .error .panicked => False

/-- The timeout of an open circuit passes between the two readings of the clock. -/
def Turn.Straddles (turn : Turn) (c : Config) (inner : Inner) : Prop :=
  inner.state = .Open ∧ ∃ opened, inner.openedAt = some opened ∧
    elapsed opened turn.now < c.resetTimeout ∧ c.resetTimeout < elapsed opened turn.later

/-- The readings of the clock, in the order they are made. -/
def Event.readings : Event → List Nat
  | .enter now later | .failure now later => [now, later]
  | .success now => [now]
  | .reset => []

def Turn.readings (turn : Turn) : List Nat :=
  turn.before.flatMap (·.readings) ++ [turn.now, turn.later] ++ turn.during.flatMap (·.readings) ++
    [turn.recordedAt, turn.recordedLater]

section Clock

variable {E α : Type} {c : Config} {turn : Turn} {w : Recorder} {inner : Inner} {now later : Nat}

/-- What is left of the timeout is not more than the timeout. -/
theorem enter_rejected {breaker : String} {remainingSecs : Nat}
    (h : (enter c now later inner).1 = .rejected breaker remainingSecs) :
    remainingSecs * 1000000000 ≤ c.resetTimeout := by
  unfold enter at h
  split at h
  · split at h
    · next opened hopened =>
      split at h
      · cases h
      · dsimp only at h
        split at h
        · cases h
          omega
        · cases h
    · cases h
  · cases h

theorem enter_panicked_iff : (enter c now later inner).1 = .panicked ↔
    inner.state = .Open ∧ ∃ opened, inner.openedAt = some opened ∧
      elapsed opened now < c.resetTimeout ∧ c.resetTimeout < elapsed opened later := by
  by_cases hs : inner.state = .Open
  · rw [and_iff_right hs]
    cases hat : inner.openedAt with
    | none => simp [enter, hs, hat]
    | some opened =>
      have hopened : (∃ o, some opened = some o ∧ elapsed o now < c.resetTimeout ∧
          c.resetTimeout < elapsed o later) ↔
          elapsed opened now < c.resetTimeout ∧ c.resetTimeout < elapsed opened later := by
        simp
      rw [hopened]
      by_cases hnow : c.resetTimeout ≤ elapsed opened now
      · simp [enter, hs, hat, hnow]
      · by_cases hlater : elapsed opened later ≤ c.resetTimeout
        · simp [enter, hs, hat, hnow, hlater]
        · simp [enter, hs, hat, hnow, hlater]
          omega
  · simp [enter, hs]

/-- A call that is let in returns whatever its operation does; one that is not, unless it panics. -/
theorem returns_iff (operation : Except E α) : Returns c (call c turn operation w).1 ↔
    ¬ turn.Straddles c (run (step c) w.inner turn.before) := by
  unfold Turn.Straddles
  rw [← enter_panicked_iff]
  unfold call
  cases henter : enter c turn.now turn.later (run (step c) w.inner turn.before) with
  | mk admission inner =>
    cases admission with
    | admitted => cases operation <;> simp [Returns]
    | rejected breaker remainingSecs =>
      have hle : remainingSecs * 1000000000 ≤ c.resetTimeout :=
        enter_rejected (congrArg Prod.fst henter)
      simpa [Returns] using hle
    | panicked => simp [Returns]

/-- However many calls are made, whatever other tasks do to the breaker before and during each and whatever the
clock reads: every call returns, with no more seconds than the timeout has, if and only if in none of them the
timeout passes between the two readings. -/
theorem call_returns_iff (c : Config) (w : Recorder) (calls : List (Turn × Except E α)) :
    Each (fun w x => (call c x.1 x.2 w).2) (fun w x => Returns c (call c x.1 x.2 w).1) w calls ↔
      Each (fun w x => (call c x.1 x.2 w).2)
        (fun w x => ¬ x.1.Straddles c (run (step c) w.inner x.1.before)) w calls :=
  each_iff_of_keeps (I := fun _ => True) (fun _ _ _ _ _ => trivial) (fun _ x _ _ => returns_iff x.2) trivial
    (each_true _ _)

end Clock

/-! ## A call at the end of the timeout -/

/-- The circuit opens with the first failure, and a call comes in the last nanosecond of its timeout. -/
def straddling : List (Turn × Except Unit Unit) :=
  [(⟨[], 0, 0, [], 0, 0⟩, .error ()),
    (⟨[], 29999999999, 30000000001, [], 30000000002, 30000000002⟩, .ok ())]

/-- The clock does not go back, and the second call panics. -/
theorem call_panics : (straddling.flatMap fun x => x.1.readings).Pairwise (· ≤ ·) ∧
    ¬ Each (fun w x => (call (.new "rpc" 1 30) x.1 x.2 w).2)
      (fun w x => Returns (.new "rpc" 1 30) (call (.new "rpc" 1 30) x.1 x.2 w).1) ⟨.new, []⟩ straddling := by
  refine ⟨by decide, ?_⟩
  rintro ⟨-, hreturns, -⟩
  exact (returns_iff _).1 hreturns ⟨by decide, 0, by decide, by decide, by decide⟩

end IntentX.CircuitBreaker
