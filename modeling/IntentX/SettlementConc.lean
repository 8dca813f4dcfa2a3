import IntentX.Lib.Tx
import IntentX.Conservation

/-!
# Concurrent settlement of one fill

Any number of `settle_fill` calls on one fill run at the same time, each in its own transaction,
their statements interleaved in any way, with statements and commits that may fail.  The row locks
are those of Postgres for the statements of the settlement engine.

The first statement of every call is `SELECT … FROM fills … FOR UPDATE`, so all calls contend for
one lock (`settleFill_commonLock`) and the committed ones run as if alone, one after the other.
The first that commits marks the fill, so there is no second.
-/

namespace IntentX

open Lib

/-! ## Row locks -/

inductive Row where
  | fill (id : Uuid)
  | trade (id : Uuid)
  | balance (k : Cell)
  deriving DecidableEq, Repr

/-- The row lock a statement of the settlement engine takes: none when it meets no row. -/
def rowLock : Stmt → World → Option Row
  | .selectFill id, w | .markFillSettled id _, w => (w.fill id).map fun _ => .fill id
  | .selectTrade id, w | .markTradeSettled id _, w => (w.trade id).map fun _ => .trade id
  | .selectBalance a s, w => (w.balance a s).map fun _ => .balance (a, s)
  | .unlockAndDebit a s x _, w =>
    ((w.balance a s).filter fun b => decide (x ≤ b.lockedBalance)).map fun _ => .balance (a, s)
  | .insertBalance b, _ => some (.balance b.key)
  | .updateAvailable b, w => (w.balances.find fun r => r.id = b.id).map fun r => .balance r.key
  | _, _ => none

/-! ## The calls give up at the first error -/

section FailFast

variable {ar : Arith}

open Call in
theorem findOrCreateBalance_failFast (id a : Uuid) (s : Asset) (now : Int) :
    FailFast (findOrCreateBalance id a s now) := by
  refine failFast_bind (failFast_op _ _) fun existing => ?_
  cases existing with
  | some b => exact failFast_pure b
  | none => exact failFast_bind (failFast_op _ _) fun _ => failFast_pure _

open Call in
theorem creditBalance_failFast (id a : Uuid) (s : Asset) (x now : Int) :
    FailFast (creditBalance ar id a s x now) :=
  failFast_bind (findOrCreateBalance_failFast id a s now) fun _ => failFast_op _ _

open Call in
theorem debitBalance_failFast (id a : Uuid) (s : Asset) (x now : Int) :
    FailFast (debitBalance ar id a s x now) :=
  failFast_bind (findOrCreateBalance_failFast id a s now) fun _ =>
    failFast_bind (failFast_failIf _ _) fun _ => failFast_op _ _

open Call in
theorem unlockAndDebit_failFast (a : Uuid) (s : Asset) (x now : Int) :
    FailFast (unlockAndDebit a s x now) :=
  failFast_bind (failFast_op _ _) fun _ => failFast_failIf _ _

open Call in
theorem settleLocked_failFast (env : Env) (p : SettleFillArgs) (fill : Fill) :
    FailFast (settleLocked ar env p fill) := by
  have hcredit : ∀ {id a s x now} {f : SqlError → SettlementError},
      FailFast (mapErr f (creditBalance ar id a s x now)) :=
    failFast_mapErr (creditBalance_failFast _ _ _ _ _)
  have hentry : ∀ {id a s x t r ref now} {f : SqlError → SettlementError},
      FailFast (mapErr f (insertLedger id a s x t r ref now)) :=
    failFast_mapErr (failFast_op _ _)
  refine failFast_bind (unlockAndDebit_failFast _ _ _ _) fun _ => ?_
  refine failFast_bind hcredit fun _ => failFast_bind hcredit fun _ => ?_
  refine failFast_bind (failFast_mapErr (debitBalance_failFast _ _ _ _ _)) fun _ => ?_
  refine failFast_bind (failFast_doIf hcredit) fun _ => ?_
  refine failFast_bind (failFast_doIf (failFast_bind (failFast_op _ _) fun _ => hcredit)) fun _ => ?_
  refine failFast_bind hentry fun _ => failFast_bind hentry fun _ => ?_
  refine failFast_bind hentry fun _ => failFast_bind hentry fun _ => ?_
  refine failFast_bind (failFast_doIf hentry) fun _ => failFast_bind (failFast_doIf hentry) fun _ => ?_
  exact failFast_op _ _

open Call in
theorem settleFill_failFast (env : Env) (p : SettleFillArgs) :
    FailFast (settleFill ar env p) :=
  failFast_bind (failFast_op _ _) fun _ => failFast_bind (failFast_orThrow _ _) fun _ =>
    failFast_bind (failFast_failIf _ _) fun _ => settleLocked_failFast env p _

end FailFast

/-! ## The common lock -/

section Concurrent

variable {ar : Arith} {ι : Type} {env : ι → Env} {args : ι → SettleFillArgs} {fillId : Uuid}

/-- The calls, one a thread. -/
def settleCalls (ar : Arith) (env : ι → Env) (args : ι → SettleFillArgs) (i : ι) :
    Prog Stmt Stmt.Reply SqlError (Except SettlementError Unit) :=
  (settleFill ar (env i) (args i)).run

theorem settleFill_commonLock (hid : ∀ i, (args i).fillId = fillId) :
    Tx.CommonLock (execStmt ar) rowLock (.fill fillId) (settleCalls ar env args) where
  first i := by
    refine ⟨.selectFill (args i).fillId, _, rfl, fun w => ?_⟩
    simp only [rowLock, execStmt, hid i]
    rcases w.fill fillId with _ | fill
    · exact .inr ⟨.FillNotFound, rfl⟩
    · exact .inl rfl
  failFast i := settleFill_failFast (env i) (args i)

/-- A settled fill is refused, whoever settled it. -/
theorem settleFill_refused {w : World} {fill : Fill} {e : Env} {p : SettleFillArgs}
    (hf : w.fill p.fillId = some fill) (hs : fill.settled = true) :
    Call.exec (execStmt ar) (settleFill ar e p) w = (.error .AlreadySettled, w) := by
  unfold settleFill
  rw [Call.exec_bind, Call.exec_op]
  simp only [execStmt, Call.mapError_ok, hf]
  rw [Call.exec_bind]
  simp only [Call.orThrow, Call.exec_pure, Call.failIf_bind, hs, if_true, Call.exec_throw]

/-- After a successful call the fill is there and marked. -/
theorem settleFill_marks {w w' : World} {e : Env} {p : SettleFillArgs}
    (h : Call.exec (execStmt ar) (settleFill ar e p) w = (.ok (), w')) :
    ∃ fill, w'.fill p.fillId = some fill ∧ fill.settled = true := by
  obtain ⟨fill, w₁, w₂, hfill, -, hmv, hbk, rfl⟩ := settleFill_ok h
  have hfills : w₂.fills = w.fills := by rw [hbk.frame, hmv.frame]
  have hkey := (Table.find_pk_iff.1 hfill).2
  refine ⟨{ fill with settled := true, settledAt := some (e.now 0) }, ?_, rfl⟩
  have hfind : w₂.fill p.fillId = some fill := by
    unfold World.fill
    rw [hfills]
    exact hfill
  unfold World.fill World.markFill
  rw [Table.find_update_pk, show w₂.fills.find _ = _ from hfind]
  simp [hkey]

/-- The committed calls on one fill, run alone one after the other, are at most one. -/
theorem serial_length {w₀ w : World} {order : List ι} (hid : ∀ i, (args i).fillId = fillId)
    (hs : Tx.Serial (execStmt ar) (settleCalls ar env args) w₀ order w) :
    (order = [] ∧ w = w₀) ∨
      ∃ i, order = [i] ∧ Call.exec (execStmt ar) (settleFill ar (env i) (args i)) w₀ = (.ok (), w) := by
  cases hs with
  | nil => exact .inl ⟨rfl, rfl⟩
  | @snoc order w₁ i _ _ hs hr =>
    cases hs with
    | nil => exact .inr ⟨i, rfl, hr⟩
    | @snoc order w₂ j _ _ hs hr' =>
      obtain ⟨fill, hfill, hset⟩ := settleFill_marks hr'
      rw [hid j, ← hid i] at hfill
      have href : Prog.run (execStmt ar) (settleCalls ar env args i) w₁ = _ :=
        settleFill_refused hfill hset
      rw [hr] at href
      cases href

/-- The first statement of a call reads the fill, and the call gives up when it is settled. -/
theorem settleCalls_first (ar : Arith) (env : ι → Env) (args : ι → SettleFillArgs) (i : ι) :
    ∃ k, settleCalls ar env args i = .call (.selectFill (args i).fillId) k ∧
      ∀ {w : World} {fill : Fill}, w.fill (args i).fillId = some fill → fill.settled = true →
        k (execStmt ar (.selectFill (args i).fillId) w).1 = .ret (.error .AlreadySettled) := by
  refine ⟨_, rfl, fun {w fill} hfill hset => ?_⟩
  simp only [execStmt, hfill]
  show (Call.failIf (fill.settled = true) SettlementError.AlreadySettled >>= _ :
    Sql SettlementError Unit).run = _
  rw [Call.failIf_bind, if_pos hset]
  rfl

variable [DecidableEq ι]

/-- A call that takes the lock of a fill that has been settled fails with `AlreadySettled`. -/
theorem exec_after_commit {w₀ : World} {c c₁ : Tx.Sys Stmt Stmt.Reply SqlError SettlementError Unit World ι Row}
    {i j : ι} {u : Unit} (hid : ∀ i, (args i).fillId = fillId)
    (hr : Tx.Reach (execStmt ar) rowLock (Tx.start (settleCalls ar env args) w₀) c)
    (hi : c.threads i = .returned (.ok u)) (hj : c.threads j = .running (settleCalls ar env args j) [])
    (hs : Tx.Step (execStmt ar) rowLock j .exec c c₁) :
    ∃ done, c₁.threads j = .running (.ret (.error .AlreadySettled)) done := by
  obtain ⟨order, hI⟩ := Tx.reach_serial (settleFill_commonLock hid) hr
  obtain ⟨rfl, -⟩ | ⟨k, rfl, hrun⟩ := serial_length hid hI.serial
  · exact absurd ((hI.committed i).1 ⟨u, hi⟩) List.not_mem_nil
  obtain ⟨fill, hfill, hset⟩ := settleFill_marks hrun
  rw [hid k, ← hid j] at hfill
  cases hs with
  | @exec _ o k done ht hl =>
    rw [hj] at ht
    obtain ⟨hp, rfl⟩ := Tx.Phase.running.inj ht
    refine ⟨[o], ?_⟩
    simp only [Function.update_self, Tx.view_nil, List.nil_append]
    congr 1
    obtain ⟨k', hcall, hfirst⟩ := settleCalls_first ar env args j
    rw [hcall] at hp
    cases hp
    exact hfirst hfill hset

/-- **At most one settlement.**  In every state reached by any number of concurrent `settle_fill`
calls on one fill: at most one call has committed; the database is as it was, or as that call
leaves it when run alone; a call that takes the row lock after the commit returns
`AlreadySettled`; and a call that returns an error leaves the database as it was. -/
theorem concurrent_settleFill (ar : Arith) (env : ι → Env) (args : ι → SettleFillArgs)
    (fillId : Uuid) (hid : ∀ i, (args i).fillId = fillId) (w₀ : World)
    (c : Tx.Sys Stmt Stmt.Reply SqlError SettlementError Unit World ι Row)
    (hr : Tx.Reach (execStmt ar) rowLock (Tx.start (settleCalls ar env args) w₀) c) :
    (∀ i j u v, c.threads i = .returned (.ok u) → c.threads j = .returned (.ok v) → i = j) ∧
    ((∀ i u, c.threads i ≠ .returned (.ok u)) ∧ c.store = w₀ ∨
      ∃ i, c.threads i = .returned (.ok ()) ∧
        settleFillTx ar (env i) (args i) w₀ = (.ok (), c.store)) ∧
    (∀ i j u c₁ c₂, c.threads i = .returned (.ok u) →
      c.threads j = .running (settleCalls ar env args j) [] →
      Tx.Step (execStmt ar) rowLock j .exec c c₁ → Tx.Reach (execStmt ar) rowLock c₁ c₂ →
      (∃ done, c₂.threads j = .running (.ret (.error .AlreadySettled)) done) ∨
        c₂.threads j = .returned (.error .AlreadySettled)) ∧
    (∀ i act c₁ e, Tx.Step (execStmt ar) rowLock i act c c₁ →
      c₁.threads i = .returned (.error e) → c₁.store = c.store) := by
  obtain ⟨order, hI⟩ := Tx.reach_serial (settleFill_commonLock hid) hr
  refine ⟨?_, ?_, ?_, fun i act c₁ e hs he => hs.store_of_error he⟩
  · intro i j u v hi hj
    have hmi := (hI.committed i).1 ⟨u, hi⟩
    have hmj := (hI.committed j).1 ⟨v, hj⟩
    obtain ⟨rfl, -⟩ | ⟨k, rfl, -⟩ := serial_length hid hI.serial
    · exact absurd hmi List.not_mem_nil
    · rw [List.mem_singleton.1 hmi, List.mem_singleton.1 hmj]
  · obtain ⟨rfl, hw⟩ | ⟨k, rfl, hrun⟩ := serial_length hid hI.serial
    · exact .inl ⟨fun i u hi => absurd ((hI.committed i).1 ⟨u, hi⟩) List.not_mem_nil, hw⟩
    · obtain ⟨u, hk⟩ := (hI.committed k).2 (List.mem_singleton.2 rfl)
      exact .inr ⟨k, hk, Call.transaction_ok.2 hrun⟩
  · intro i j u c₁ c₂ hi hj hs hr'
    exact hr'.failed (.inl (exec_after_commit hid hr hi hj hs))

end Concurrent

/-- Two calls on the demo fill, with ids from 1000 and from 2000 on. -/
def twoCalls : Tx.Sys Stmt Stmt.Reply SqlError SettlementError Unit World Bool Row :=
  Tx.start (settleCalls .release
    (fun i => ⟨fun n => (if i then 1000 else 2000) + n, fun _ => 0⟩) fun _ => demoFill) settlementDemo

/-- The first call runs to its commit, then the second to its end. -/
theorem twoCalls_settle_once :
    ∃ c, Tx.play (execStmt .release) rowLock twoCalls (List.replicate 24 true ++ [false, false]) =
        some c ∧
      (c.threads false).result = some (.error .AlreadySettled) ∧
      settleFillTx .release ⟨fun n => 1000 + n, fun _ => 0⟩ demoFill settlementDemo = (.ok (), c.store) := by
  have hres : (Tx.play (execStmt .release) rowLock twoCalls
      (List.replicate 24 true ++ [false, false])).map
        (fun c => ((c.threads true).result, (c.threads false).result)) =
      some (some (.ok ()), some (.error .AlreadySettled)) := by
    decide +kernel
  obtain ⟨c, hc, hr⟩ := Option.map_eq_some_iff.1 hres
  obtain ⟨htrue, hfalse⟩ := Prod.mk.inj hr
  refine ⟨c, hc, hfalse, ?_⟩
  obtain ⟨hone, ⟨hnone, -⟩ | ⟨i, hi, hrun⟩, -⟩ :=
    concurrent_settleFill .release _ _ 7 (fun _ => rfl) settlementDemo c (Tx.play_reach hc)
  · rcases ht : c.threads true with _ | r
    · rw [ht] at htrue
      cases htrue
    · rw [ht] at htrue
      cases htrue
      exact absurd ht (hnone true ())
  · cases i with
    | false =>
      rw [hi] at hfalse
      cases hfalse
    | true => exact hrun

end IntentX
