import IntentX.Lib.Machine
import Mathlib.Tactic.Ring

/-!
# The circuit breaker

`CircuitBreaker::call` locks the breaker twice: to let the operation in, and to record its result.
In between the operation runs, and other calls take their turns, so a result may be recorded in
another state than the one that let its operation in.

Whatever the order of admissions, results and resets, an open circuit says since when it is open, a
closed one has counted fewer failures than its threshold, nothing is let in before the timeout of an
open circuit has passed, and a closed circuit opens with the failure that makes `failure_threshold`
of them in a row (`circuit_state_invariant`).

`call` lets every call in while the circuit is half-open, not one probe, and records every result,
also of operations that were let in before the circuit opened.  So the probe is the only operation
of its half-open period, and decides it, if and only if no call comes while a probe is in flight and
no older result comes while the circuit is half-open (`probe_decides_iff`).
-/

namespace IntentX.CircuitBreaker

open Lib Machine

inductive State
  | Closed | Open | HalfOpen
  deriving Repr, DecidableEq

/-- Times and durations are in nanoseconds. -/
structure Config where
  failureThreshold : UInt32
  resetTimeout : Nat
  name : String
  deriving Repr, DecidableEq

def Config.new (name : String) (failureThreshold : UInt32) (resetTimeoutSecs : Nat) : Config :=
  ⟨failureThreshold, resetTimeoutSecs * 1000000000, name⟩

structure Inner where
  state : State
  failureCount : UInt32
  lastFailure : Option Nat
  lastSuccess : Option Nat
  openedAt : Option Nat
  totalRejections : UInt64
  totalSuccesses : UInt64
  totalFailures : UInt64
  deriving Repr, DecidableEq

def Inner.new : Inner := ⟨.Closed, 0, none, none, none, 0, 0, 0⟩

/-- `Instant::elapsed`, which is zero on an instant that is yet to come. -/
def elapsed (since now : Nat) : Nat := now - since

/-- What the first critical section of `call` does with the operation. -/
inductive Admission
  | admitted
  /-- `CircuitError::Open` -/
  | rejected (breaker : String) (remainingSecs : Nat)
  /-- the subtraction of durations that gives the remaining seconds underflows -/
  | panicked
  deriving Repr, DecidableEq

/-- The first critical section of `call`.  The clock is read to compare, and once more for the
remaining seconds. -/
def enter (c : Config) (now later : Nat) (inner : Inner) : Admission × Inner :=
  if inner.state = .Open then
    match inner.openedAt with
    | some opened =>
      if elapsed opened now ≥ c.resetTimeout then
        (.admitted, { inner with state := .HalfOpen })
      else
        let inner := { inner with totalRejections := inner.totalRejections + 1 }
        if elapsed opened later ≤ c.resetTimeout then
          (.rejected c.name ((c.resetTimeout - elapsed opened later) / 1000000000), inner)
        else (.panicked, inner)
    | none => (.admitted, inner)
  else (.admitted, inner)

def recordSuccess (now : Nat) (inner : Inner) : Inner :=
  let inner := { inner with
    lastSuccess := some now, totalSuccesses := inner.totalSuccesses + 1 }
  match inner.state with
  | .HalfOpen => { inner with state := .Closed, failureCount := 0, openedAt := none }
  | .Closed => { inner with failureCount := 0 }
  | .Open => inner

/-- The clock is read for `last_failure`, and once more for `opened_at`. -/
def recordFailure (c : Config) (now later : Nat) (inner : Inner) : Inner :=
  let inner := { inner with
    lastFailure := some now, failureCount := inner.failureCount + 1,
    totalFailures := inner.totalFailures + 1 }
  match inner.state with
  | .Closed =>
    if inner.failureCount ≥ c.failureThreshold then
      { inner with state := .Open, openedAt := some later }
    else inner
  | .HalfOpen => { inner with state := .Open, openedAt := some later }
  | .Open => inner

def reset (inner : Inner) : Inner :=
  { inner with state := .Closed, failureCount := 0, openedAt := none }

/-! ## The state of the circuit -/

/-- A critical section of the breaker, with its readings of the clock. -/
inductive Event
  | enter (now later : Nat)
  | success (now : Nat)
  | failure (now later : Nat)
  | reset
  deriving Repr, DecidableEq

def step (c : Config) (inner : Inner) : Event → Inner
  | .enter now later => (enter c now later inner).2
  | .success now => recordSuccess now inner
  | .failure now later => recordFailure c now later inner
  | .reset => reset inner

/-- The event enters `Closed`.  A reset does so from every state. -/
def Event.Closes (c : Config) (inner : Inner) (e : Event) : Prop :=
  e = .reset ∨ inner.state ≠ .Closed ∧ (step c inner e).state = .Closed

instance (c : Config) (inner : Inner) (e : Event) : Decidable (e.Closes c inner) :=
  inferInstanceAs (Decidable (_ ∨ _))

def Event.isSuccess : Event → Bool
  | .success _ => true
  | _ => false

def Event.isFailure : Event → Bool
  | .failure .. => true
  | _ => false

/-- The breaker beside the number of failures recorded since the last recorded success or entry into
`Closed`. -/
def watch (c : Config) (w : Inner × Nat) (e : Event) : Inner × Nat :=
  (step c w.1 e,
    if e.isSuccess ∨ e.Closes c w.1 then 0 else if e.isFailure then w.2 + 1 else w.2)

/-- The failures in a row at the end of the run. -/
def streak (c : Config) (es : List Event) : Nat := (run (watch c) (.new, 0) es).2

theorem watch_run (c : Config) (es : List Event) (w : Inner × Nat) :
    (run (watch c) w es).1 = run (step c) w.1 es := by
  induction es generalizing w with
  | nil => rfl
  | cons e es ih => exact ih _

/-- Admission leaves `Closed` and `HalfOpen` alone, and moves from `Open` to `HalfOpen` only. -/
theorem enter_cases (c : Config) (now later : Nat) (inner : Inner) :
    (inner.state ≠ .Open ∧ enter c now later inner = (.admitted, inner)) ∨
    (inner.state = .Open ∧ inner.openedAt = none ∧ enter c now later inner = (.admitted, inner)) ∨
    (∃ opened, inner.state = .Open ∧ inner.openedAt = some opened ∧
      c.resetTimeout ≤ elapsed opened now ∧
      enter c now later inner = (.admitted, { inner with state := .HalfOpen })) ∨
    (∃ opened, inner.state = .Open ∧ inner.openedAt = some opened ∧
      elapsed opened now < c.resetTimeout ∧ (enter c now later inner).1 ≠ .admitted ∧
      (enter c now later inner).2 =
        { inner with totalRejections := inner.totalRejections + 1 }) := by
  by_cases ho : inner.state = .Open
  · rcases hat : inner.openedAt with _ | opened
    · exact .inr (.inl ⟨ho, rfl, by simp [enter, ho, hat]⟩)
    by_cases ht : c.resetTimeout ≤ elapsed opened now
    · exact .inr (.inr (.inl ⟨opened, ho, rfl, ht, by simp [enter, ho, hat, ht]⟩))
    · refine .inr (.inr (.inr ⟨opened, ho, rfl, by omega, ?_, ?_⟩)) <;>
        by_cases hl : elapsed opened later ≤ c.resetTimeout <;> simp [enter, ho, hat, ht, hl]
  · exact .inl ⟨ho, by simp [enter, ho]⟩

/-- Admission counts nothing as a failure, and moves the circuit from `Open` to `HalfOpen` only. -/
theorem enter_frame (c : Config) (now later : Nat) (inner : Inner) :
    (enter c now later inner).2.failureCount = inner.failureCount ∧
    (enter c now later inner).2.openedAt = inner.openedAt ∧
    ((enter c now later inner).2.state = inner.state ∨
      inner.state = .Open ∧ (enter c now later inner).2.state = .HalfOpen) := by
  rcases enter_cases c now later inner with ⟨-, he⟩ | ⟨-, -, he⟩ | ⟨t, ho, -, -, he⟩ |
    ⟨t, -, -, -, -, he⟩ <;> rw [he]
  · exact ⟨rfl, rfl, .inl rfl⟩
  · exact ⟨rfl, rfl, .inl rfl⟩
  · exact ⟨rfl, rfl, .inr ⟨ho, rfl⟩⟩
  · exact ⟨rfl, rfl, .inl rfl⟩

/-- What every reachable breaker satisfies, beside the failures in a row. -/
structure Sound (c : Config) (w : Inner × Nat) : Prop where
  opened : w.1.state = .Open → w.1.openedAt.isSome
  counted : w.1.state = .Closed → w.1.failureCount.toNat = w.2 ∧ w.2 < c.failureThreshold.toNat

theorem threshold_pos {c : Config} (hc : 1 ≤ c.failureThreshold) : 0 < c.failureThreshold.toNat :=
  UInt32.le_iff_toNat_le.1 hc

theorem sound_new {c : Config} (hc : 1 ≤ c.failureThreshold) : Sound c (.new, 0) where
  opened := nofun
  counted := fun _ => ⟨rfl, threshold_pos hc⟩

/-- A failure of a closed circuit is counted without overflow: the count was below the threshold. -/
theorem count_failure {c : Config} {n : UInt32} (h : n.toNat < c.failureThreshold.toNat) :
    (n + 1).toNat = n.toNat + 1 := by
  have hlt := c.failureThreshold.toNat_lt
  rw [UInt32.toNat_add]
  exact Nat.mod_eq_of_lt (by simpa using by omega)

/-- A recorded failure never enters `Closed`. -/
theorem recordFailure_closed {c : Config} {now later : Nat} {inner : Inner}
    (h : (recordFailure c now later inner).state = .Closed) : inner.state = .Closed := by
  cases hs : inner.state with
  | Closed => rfl
  | Open => simp [recordFailure, hs] at h
  | HalfOpen => simp [recordFailure, hs] at h

theorem watch_failure (c : Config) (now later n : Nat) (inner : Inner) :
    watch c (inner, n) (.failure now later) = (recordFailure c now later inner, n + 1) := by
  have hne : ¬ Event.Closes c inner (.failure now later) := by
    rintro (h | ⟨hn, h⟩)
    · exact nomatch h
    · exact hn (recordFailure_closed h)
  simp [watch, step, Event.isSuccess, Event.isFailure, hne]

theorem watch_enter (c : Config) (now later n : Nat) (inner : Inner) :
    watch c (inner, n) (.enter now later) = ((enter c now later inner).2, n) := by
  have hne : ¬ Event.Closes c inner (.enter now later) := by
    rintro (h | ⟨hn, h⟩)
    · exact nomatch h
    · obtain ⟨-, -, hs | ⟨-, hs⟩⟩ := enter_frame c now later inner
      · exact hn (hs ▸ h)
      · exact nomatch hs.symm.trans h
  simp [watch, step, Event.isSuccess, Event.isFailure, hne]

section Watch

variable {c : Config} {inner : Inner} {n : Nat}

theorem Sound.enter (h : Sound c (inner, n)) (now later : Nat) :
    Sound c (watch c (inner, n) (.enter now later)) := by
  obtain ⟨hopen, hcount⟩ := h
  obtain ⟨hf, hat, hs⟩ := enter_frame c now later inner
  rw [watch_enter]
  constructor
  · intro ho
    show (CircuitBreaker.enter c now later inner).2.openedAt.isSome
    rw [hat]
    rcases hs with hs | ⟨hs, -⟩
    · exact hopen (hs ▸ ho)
    · exact hopen hs
  · intro hcl
    show (CircuitBreaker.enter c now later inner).2.failureCount.toNat = n ∧ _
    rw [hf]
    rcases hs with hs | ⟨-, hs⟩
    · exact hcount (hs ▸ hcl)
    · exact nomatch hs.symm.trans hcl

theorem Sound.success (hc : 1 ≤ c.failureThreshold) (h : Sound c (inner, n)) (now : Nat) :
    Sound c (watch c (inner, n) (.success now)) := by
  cases hs : inner.state with
  | Closed =>
    refine ⟨fun ho => ?_, fun _ => ?_⟩
    · simp [watch, step, recordSuccess, hs] at ho
    · simpa [watch, step, recordSuccess, hs, Event.isSuccess] using threshold_pos hc
  | Open =>
    refine ⟨fun _ => ?_, fun hcl => ?_⟩
    · simpa [watch, step, recordSuccess, hs] using h.opened hs
    · simp [watch, step, recordSuccess, hs] at hcl
  | HalfOpen =>
    refine ⟨fun ho => ?_, fun _ => ?_⟩
    · simp [watch, step, recordSuccess, hs] at ho
    · simpa [watch, step, recordSuccess, hs, Event.isSuccess] using threshold_pos hc

theorem Sound.failure (h : Sound c (inner, n)) (now later : Nat) :
    Sound c (watch c (inner, n) (.failure now later)) := by
  rw [watch_failure]
  cases hs : inner.state with
  | Closed =>
    obtain ⟨hn, hlt⟩ : inner.failureCount.toNat = n ∧ n < c.failureThreshold.toNat := h.counted hs
    have hadd := count_failure (hn ▸ hlt : inner.failureCount.toNat < _)
    by_cases ht : c.failureThreshold ≤ inner.failureCount + 1
    · refine ⟨fun _ => ?_, fun hcl => ?_⟩
      · simp [recordFailure, hs, ht]
      · simp [recordFailure, hs, ht] at hcl
    · have hlt' : (inner.failureCount + 1).toNat < c.failureThreshold.toNat :=
        UInt32.lt_iff_toNat_lt.1 (UInt32.not_le.1 ht)
      refine ⟨fun ho => ?_, fun _ => ?_⟩
      · simp [recordFailure, hs, ht] at ho
      · have hcnt : (recordFailure c now later inner).failureCount = inner.failureCount + 1 := by
          simp [recordFailure, hs, ht]
        show (recordFailure c now later inner).failureCount.toNat = n + 1 ∧ n + 1 < _
        rw [hcnt]
        omega
  | Open =>
    refine ⟨fun _ => ?_, fun hcl => ?_⟩
    · simpa [recordFailure, hs] using h.opened hs
    · simp [recordFailure, hs] at hcl
  | HalfOpen =>
    refine ⟨fun _ => ?_, fun hcl => ?_⟩
    · simp [recordFailure, hs]
    · simp [recordFailure, hs] at hcl

end Watch

theorem sound_watch {c : Config} {w : Inner × Nat} (hc : 1 ≤ c.failureThreshold) (h : Sound c w)
    (e : Event) : Sound c (watch c w e) := by
  cases e with
  | enter now later => exact h.enter now later
  | success now => exact h.success hc now
  | failure now later => exact h.failure now later
  | reset =>
    refine ⟨nofun, fun _ => ?_⟩
    simpa [watch, step, reset, Event.Closes] using threshold_pos hc

theorem sound_run {c : Config} (hc : 1 ≤ c.failureThreshold) (es : List Event) :
    Sound c (run (watch c) (.new, 0) es) :=
  run_keeps (C := fun _ _ => True) (fun _ e h _ => sound_watch hc h e) (sound_new hc)
    (each_true _ es)

/-- From `Closed` the circuit opens with the failure that makes the streak as long as the threshold. -/
theorem opens_iff {c : Config} {inner : Inner} {n : Nat} (hc : 1 ≤ c.failureThreshold)
    (h : Sound c (inner, n)) (hs : inner.state = .Closed) (e : Event) :
    (watch c (inner, n) e).1.state = .Open ↔
      (watch c (inner, n) e).2 = c.failureThreshold.toNat := by
  have hpos := threshold_pos hc
  obtain ⟨hn, hlt⟩ : inner.failureCount.toNat = n ∧ n < c.failureThreshold.toNat := h.counted hs
  cases e with
  | enter now later =>
    rw [watch_enter]
    obtain ⟨-, -, hst | ⟨hst, -⟩⟩ := enter_frame c now later inner
    · constructor
      · intro ho
        exact nomatch hs.symm.trans (hst.symm.trans ho)
      · intro heq
        exact absurd heq (Nat.ne_of_lt hlt)
    · exact nomatch hs.symm.trans hst
  | success now =>
    simp only [watch, step, recordSuccess, hs, Event.isSuccess, true_or, if_true]
    simpa using hpos.ne
  | failure now later =>
    rw [watch_failure]
    have hadd := count_failure (hn ▸ hlt : inner.failureCount.toNat < _)
    have hiff : c.failureThreshold ≤ inner.failureCount + 1 ↔ n + 1 = c.failureThreshold.toNat := by
      rw [UInt32.le_iff_toNat_le]
      omega
    by_cases ht : c.failureThreshold ≤ inner.failureCount + 1
    · simpa [recordFailure, hs, ht] using hiff.1 ht
    · simpa [recordFailure, hs, ht] using fun h => ht (hiff.2 h)
  | reset =>
    simp only [watch, step, reset, Event.Closes, true_or, or_true, if_true]
    simpa using hpos.ne

/-- The invariant of the breaker, over every order of admissions, results and resets.  It does not
rest on the clock: whatever the readings are, the circuit goes by them. -/
theorem circuit_state_invariant (c : Config) (hc : 1 ≤ c.failureThreshold) (es : List Event) :
    ((run (step c) .new es).state = .Open → (run (step c) .new es).openedAt.isSome) ∧
    ((run (step c) .new es).state = .Closed →
      (run (step c) .new es).failureCount < c.failureThreshold) ∧
    (∀ now later, (enter c now later (run (step c) .new es)).1 = .admitted →
      (run (step c) .new es).state = .Open →
      ∃ opened, (run (step c) .new es).openedAt = some opened ∧
        c.resetTimeout ≤ elapsed opened now) ∧
    (∀ e, (run (step c) .new es).state = .Closed →
      ((run (step c) .new (es ++ [e])).state = .Open ↔
        streak c (es ++ [e]) = c.failureThreshold.toNat)) := by
  have hsound := sound_run hc es
  have hw : (run (watch c) (.new, 0) es).1 = run (step c) .new es := watch_run c es (.new, 0)
  rw [← hw]
  refine ⟨hsound.opened, fun hcl => ?_, fun now later had ho => ?_, fun e hcl => ?_⟩
  · obtain ⟨hn, hlt⟩ := hsound.counted hcl
    exact UInt32.lt_iff_toNat_lt.2 (hn ▸ hlt)
  · obtain ⟨opened, hat⟩ := Option.isSome_iff_exists.1 (hsound.opened ho)
    rcases enter_cases c now later (run (watch c) (.new, 0) es).1 with
      ⟨hno, -⟩ | ⟨-, hnone, -⟩ | ⟨t, -, hat', ht, -⟩ | ⟨t, -, -, -, hno, -⟩
    · exact absurd ho hno
    · exact nomatch hnone.symm.trans hat
    · exact ⟨t, hat', ht⟩
    · exact absurd had hno
  · rw [run_snoc, ← hw, streak, run_snoc]
    exact opens_iff hc hsound hcl e

theorem circuit_state_invariant_rpc :
    (run (step (.new "solana_rpc" 2 20)) .new [.failure 1 1, .success 2, .failure 3 3]).failureCount <
      2 :=
  (circuit_state_invariant (.new "solana_rpc" 2 20) (by decide)
    [.failure 1 1, .success 2, .failure 3 3]).2.1 (by decide)

/-! ## Calls in flight -/

/-- A call whose operation was let in and whose result is not recorded yet. -/
structure Flight where
  id : Nat
  /-- how often the circuit had become half-open when the operation was let in, this time included -/
  period : Nat
  deriving Repr, DecidableEq

/-- The breaker with the calls it has let in. -/
structure Breaker where
  inner : Inner
  period : Nat
  calls : Nat
  flying : List Flight
  deriving Repr, DecidableEq

def Breaker.new : Breaker := ⟨.new, 0, 0, []⟩

inductive CallEvent
  /-- the first critical section of a call -/
  | call (now later : Nat)
  /-- the operation of the call has returned, and its result is recorded -/
  | finish (id : Nat) (ok : Bool) (now later : Nat)
  /-- the future of the call is dropped -/
  | drop (id : Nat)
  deriving Repr, DecidableEq

namespace Breaker

/-- The call with this id, if its operation is in flight. -/
def flight (b : Breaker) (id : Nat) : Option Flight := b.flying.find? fun f => f.id = id

/-- The calls in flight, less the one with this id. -/
def without (b : Breaker) (id : Nat) : List Flight := b.flying.eraseP fun f => f.id = id

/-- The operations in flight that were let in since the circuit became half-open. -/
def probes (b : Breaker) : List Flight := b.flying.filter fun f => f.period = b.period

/-- `CircuitBreaker::call`, one critical section at a time. -/
def turn (c : Config) (b : Breaker) : CallEvent → Breaker
  | .call now later =>
    let (answer, inner) := enter c now later b.inner
    let period :=
      if b.inner.state ≠ .HalfOpen ∧ inner.state = .HalfOpen then b.period + 1 else b.period
    { inner, period, calls := b.calls + 1,
      flying := if answer = .admitted then ⟨b.calls, period⟩ :: b.flying else b.flying }
  | .finish id ok now later =>
    match b.flight id with
    | none => b
    | some _ => { b with
        inner := if ok then recordSuccess now b.inner else recordFailure c now later b.inner,
        flying := b.without id }
  | .drop id => { b with flying := b.without id }

/-- After the event at most one operation of the half-open period is in flight, and the event leaves
`HalfOpen` only if it is the result of that operation. -/
def ProbeDecides (c : Config) (b : Breaker) (e : CallEvent) : Prop :=
  ((b.turn c e).inner.state = .HalfOpen → (b.turn c e).probes.length ≤ 1) ∧
  (b.inner.state = .HalfOpen → (b.turn c e).inner.state ≠ .HalfOpen →
    ∃ f ok now later, e = .finish f.id ok now later ∧ b.flight f.id = some f ∧ b.probes = [f])

/-- While the circuit is half-open, a call comes only when no probe is in flight, and a result only
from an operation let in since. -/
def Orderly (b : Breaker) : CallEvent → Prop
  | .call _ _ => b.inner.state = .HalfOpen → b.probes = []
  | .finish id _ _ _ => b.inner.state = .HalfOpen → ∀ f ∈ b.flight id, f.period = b.period
  | .drop _ => True

/-- Nothing in flight is of a later period, and at most one operation is of a half-open one. -/
structure Probing (b : Breaker) : Prop where
  past : ∀ f ∈ b.flying, f.period ≤ b.period
  one : b.inner.state = .HalfOpen → b.probes.length ≤ 1

variable {c : Config} {b : Breaker}

theorem mem_without {id : Nat} {f : Flight} (h : f ∈ b.without id) : f ∈ b.flying :=
  List.mem_of_mem_eraseP h

theorem flight_mem {id : Nat} {f : Flight} (h : b.flight id = some f) : f ∈ b.flying ∧ f.id = id :=
  ⟨List.mem_of_find?_eq_some h, by simpa using List.find?_some h⟩

theorem turn_finish {id : Nat} {f : Flight} (hf : b.flight id = some f) (ok : Bool)
    (now later : Nat) :
    b.turn c (.finish id ok now later) = { b with
      inner := if ok then recordSuccess now b.inner else recordFailure c now later b.inner,
      flying := b.without id } := by
  simp [turn, hf]

theorem turn_finish_none {id : Nat} (hf : b.flight id = none) (ok : Bool) (now later : Nat) :
    b.turn c (.finish id ok now later) = b := by
  simp [turn, hf]

/-- A half-open circuit lets the call in, whoever else is in flight. -/
theorem turn_call_halfOpen (hs : b.inner.state = .HalfOpen) (now later : Nat) :
    b.turn c (.call now later) = { b with
      calls := b.calls + 1, flying := ⟨b.calls, b.period⟩ :: b.flying } := by
  simp [turn, enter, hs]

/-- A call that makes the circuit half-open begins a period of which it is the only probe. -/
theorem probes_call (h : ∀ f ∈ b.flying, f.period ≤ b.period) (hs : b.inner.state ≠ .HalfOpen)
    {now later : Nat} (ho : (b.turn c (.call now later)).inner.state = .HalfOpen) :
    (b.turn c (.call now later)).probes = [⟨b.calls, b.period + 1⟩] := by
  have hnone : b.flying.filter (fun f => f.period = b.period + 1) = [] := by
    refine List.filter_eq_nil_iff.2 fun f hf => ?_
    have := h f hf
    simp
    omega
  have ho : (enter c now later b.inner).2.state = .HalfOpen := ho
  rcases enter_cases c now later b.inner with ⟨-, he⟩ | ⟨-, -, he⟩ | ⟨t, -, -, -, he⟩ |
    ⟨t, hop, -, -, -, he⟩
  · rw [he] at ho
    exact absurd ho hs
  · rw [he] at ho
    exact absurd ho hs
  · simp [turn, probes, he, hs, hnone]
  · rw [he] at ho
    exact nomatch hop.symm.trans ho

/-- Recording a result leaves `HalfOpen`, and never enters it. -/
theorem record_ne_halfOpen (ok : Bool) (now later : Nat) (inner : Inner) :
    (if ok then recordSuccess now inner else recordFailure c now later inner).state ≠ .HalfOpen := by
  cases ok with
  | true => cases hs : inner.state <;> simp [recordSuccess, hs]
  | false =>
    cases hs : inner.state with
    | Closed =>
      by_cases ht : c.failureThreshold ≤ inner.failureCount + 1 <;> simp [recordFailure, hs, ht]
    | Open => simp [recordFailure, hs]
    | HalfOpen => simp [recordFailure, hs]

theorem past_turn (h : ∀ f ∈ b.flying, f.period ≤ b.period) (e : CallEvent) :
    ∀ f ∈ (b.turn c e).flying, f.period ≤ (b.turn c e).period := by
  cases e with
  | call now later =>
    intro f hf
    have hle : b.period ≤ (b.turn c (.call now later)).period := by
      simp only [turn]
      split <;> omega
    by_cases hans : (enter c now later b.inner).1 = .admitted
    · have hf : f ∈ ⟨b.calls, (b.turn c (.call now later)).period⟩ :: b.flying := by
        simpa [turn, hans] using hf
      rcases List.mem_cons.1 hf with rfl | hf
      · exact Nat.le_refl _
      · exact (h f hf).trans hle
    · have hf : f ∈ b.flying := by simpa [turn, hans] using hf
      exact (h f hf).trans hle
  | finish id ok now later =>
    rcases hfl : b.flight id with _ | f
    · rw [turn_finish_none hfl]
      exact h
    · rw [turn_finish hfl]
      exact fun f hf => h f (mem_without hf)
  | drop id => exact fun f hf => h f (mem_without hf)

theorem probeDecides_call_iff (h : b.Probing) (now later : Nat) :
    ProbeDecides c b (.call now later) ↔ b.Orderly (.call now later) := by
  by_cases hs : b.inner.state = .HalfOpen
  · have hp : (b.turn c (.call now later)).probes = ⟨b.calls, b.period⟩ :: b.probes := by
      simp [turn_call_halfOpen hs, probes]
    have hst : (b.turn c (.call now later)).inner.state = .HalfOpen := by
      rw [turn_call_halfOpen hs]
      exact hs
    constructor
    · intro hd _
      have hlen := hd.1 hst
      rw [hp, List.length_cons] at hlen
      exact List.eq_nil_of_length_eq_zero (by omega)
    · intro hq
      refine ⟨fun _ => ?_, fun _ hn => absurd hst hn⟩
      rw [hp, hq hs]
      exact Nat.le_refl 1
  · refine ⟨fun _ hs' => absurd hs' hs, fun _ => ⟨fun ho => ?_, fun hs' => absurd hs' hs⟩⟩
    rw [probes_call h.past hs ho]
    exact Nat.le_refl 1

theorem probeDecides_finish_iff (h : b.Probing) (id : Nat) (ok : Bool) (now later : Nat) :
    ProbeDecides c b (.finish id ok now later) ↔ b.Orderly (.finish id ok now later) := by
  rcases hfl : b.flight id with _ | f
  · rw [ProbeDecides, turn_finish_none hfl]
    refine ⟨fun _ _ f hf => ?_, fun _ => ⟨h.one, fun hs hn => absurd hs hn⟩⟩
    rw [hfl] at hf
    exact nomatch hf
  · obtain ⟨hmem, hid⟩ := flight_mem hfl
    have hne : (b.turn c (.finish id ok now later)).inner.state ≠ .HalfOpen := by
      rw [turn_finish hfl]
      exact record_ne_halfOpen ok now later b.inner
    constructor
    · intro hd hs f' hf'
      obtain ⟨g, ok', now', later', he, hg, hprobes⟩ := hd.2 hs hne
      obtain ⟨rfl, -⟩ := CallEvent.finish.inj he
      have hgp : g ∈ b.probes := by simp [hprobes]
      obtain rfl : g = f' := Option.some.inj (hg.symm.trans hf')
      simpa using (List.mem_filter.1 hgp).2
    · intro hq
      refine ⟨fun hs => absurd hs hne, fun hs _ => ?_⟩
      have hfp : f ∈ b.probes := List.mem_filter.2 ⟨hmem, by simpa using hq hs f hfl⟩
      refine ⟨f, ok, now, later, by rw [hid], hid ▸ hfl, ?_⟩
      -- the probe that reports is the only one
      obtain ⟨g, hg⟩ := List.length_eq_one_iff.1
        (Nat.le_antisymm (h.one hs) (List.length_pos_of_mem hfp))
      rw [hg] at hfp ⊢
      rw [List.mem_singleton.1 hfp]

theorem probeDecides_iff (h : b.Probing) (e : CallEvent) : ProbeDecides c b e ↔ b.Orderly e := by
  cases e with
  | call now later => exact probeDecides_call_iff h now later
  | finish id ok now later => exact probeDecides_finish_iff h id ok now later
  | drop id =>
    refine ⟨fun _ => trivial, fun _ => ⟨fun hs => ?_, fun hs hn => absurd hs hn⟩⟩
    have hsub : (b.turn c (.drop id)).probes.Sublist b.probes := (List.eraseP_sublist).filter _
    exact hsub.length_le.trans (h.one hs)

theorem probing_turn (h : b.Probing) {e : CallEvent} (he : b.Orderly e) : (b.turn c e).Probing where
  past := past_turn h.past e
  one := ((probeDecides_iff h e).2 he).1

end Breaker

/-- Along every interleaving of calls, the probe is the only operation of its half-open period and
its result the one that ends it, if and only if the calls and the results come in that order by
themselves: the breaker does not see to it. -/
theorem probe_decides_iff (c : Config) (es : List CallEvent) :
    Each (Breaker.turn c) (Breaker.ProbeDecides c) .new es ↔
      Each (Breaker.turn c) Breaker.Orderly .new es :=
  each_iff_of_keeps (I := Breaker.Probing) (fun _ _ h _ he => Breaker.probing_turn h he)
    (fun _ e h _ => Breaker.probeDecides_iff h e) ⟨nofun, nofun⟩ (each_true _ es)

/-- The circuit opens with the first failure.  40 s later one call makes it half-open, and another is
let in beside it; or the result of an operation let in before it opened closes it. -/
theorem half_open_not_one_probe :
    ¬ Each (Breaker.turn (.new "rpc" 1 30)) (Breaker.ProbeDecides (.new "rpc" 1 30)) .new
      [.call 0 0, .finish 0 false 1 1, .call 40000000000 40000000000,
        .call 41000000000 41000000000] ∧
    ¬ Each (Breaker.turn (.new "rpc" 1 30)) (Breaker.ProbeDecides (.new "rpc" 1 30)) .new
      [.call 0 0, .call 0 0, .finish 0 false 1 1, .call 40000000000 40000000000,
        .finish 1 true 41000000000 41000000000] := by
  constructor
  · rintro ⟨-, -, -, ⟨h, -⟩, -⟩
    exact absurd (h (by decide)) (by decide)
  · rintro ⟨-, -, -, -, ⟨-, h⟩, -⟩
    obtain ⟨f, ok, now, later, he, hf, hp⟩ := h (by decide) (by decide)
    obtain ⟨hid, -⟩ := CallEvent.finish.inj he
    obtain rfl : f = ⟨2, 1⟩ := List.singleton_inj.1 (hp.symm.trans (by decide))
    exact nomatch hid

end IntentX.CircuitBreaker
