import IntentX.Wallet

/-!
# What a failed payment says

A call of `send_settlement_tx` by itself, whatever the node and the network do at each of its
operations.

The record is set to failed when `send_transaction` gives up.  If the node accepted the transaction at
one attempt and its answer was lost, no later attempt is answered with a hash: the node has the
transaction and says so, which is no success to `classify_send_error`.  So a payment recorded as failed
was not accepted exactly when no attempt that is made loses its acceptance
(`failed_unaccepted_iff`).
-/

namespace IntentX.OnChain

open Lib

/-- The call by itself: the environment decides at each operation, counted from the start. -/
def execAlone (steps : Nat → NodeStep) : Handler WalletOp WalletOp.Reply SqlError (Nat × WalletWorld) :=
  fun o s => ((execWallet (steps s.1) o s.2).1, (s.1 + 1, (execWallet (steps s.1) o s.2).2))

/-- The node accepts the transaction, and no hash is read. -/
def Fate.losesAcceptance : Fate → Bool
  | .delivered (.ok _) (some _) => true
  | .delivered (.ok v) none => v.asStr.isNone
  | _ => false

/-- The node does not accept the transaction, and the attempt is made again if one is left. -/
def Fate.retried : Fate → Bool
  | .undelivered e => e.retriable
  | .delivered (.error _) (some e) => e.retriable
  | .delivered (.error (code, message)) none => (RpcError.JsonRpc code message).retriable
  | .delivered (.ok _) _ => false

/-- One of the attempts that are made, from turn `n` on and with so many retries, loses the
acceptance. -/
def LosesAcceptance (steps : Nat → NodeStep) (n retries : Nat) : Prop :=
  ∃ k ≤ retries, (steps (n + k)).fate.losesAcceptance = true ∧ ∀ j < k, (steps (n + j)).fate.retried = true

/-- The call signs the transaction and makes its record, at turn `n`. -/
def Payment.Sends (c : Crypto) (chainId : UInt64) (p : Payment) (steps : Nat → NodeStep) (w : WalletWorld)
    (tx : SignedTx) (n : Nat) : Prop :=
  (∃ w', Call.exec (execAlone steps) (signSettlementTx c chainId p) (0, w) = (.ok tx, (n, w'))) ∧
    ∀ r ∈ w.records.rows, r.id ≠ p.env.uuid 0

/-- If the record is failed in the end, the node has not accepted anything. -/
def FailedUnaccepted (id : Uuid) (w w' : WalletWorld) : Prop :=
  (∃ r ∈ w'.records.rows, r.id = id ∧ r.status = .Failed) → w'.node.accepted = w.node.accepted

/-! ## The attempts -/

/-- The hash in the node's answer. -/
def Value.hash (v : Value) : Except RpcError String :=
  v.asStr.elim (.error (.Parse "Expected tx hash string")) .ok

/-- The world after an attempt at turn `n`. -/
def WalletWorld.sent (w : WalletWorld) (steps : Nat → NodeStep) (n : Nat) (tx : SignedTx) : WalletWorld :=
  (execWallet (steps n) (.rpc (.sendRawTransaction tx)) w).2

section Attempts

variable {steps : Nat → NodeStep} {n retries : Nat} {w : WalletWorld} {tx : SignedTx} {fate : Fate}

theorem exec_sendRawTransaction :
    Call.exec (execAlone steps) (sendRawTransaction tx) (n, w) =
      (((steps n).fate.answer (tx ∈ w.node.accepted)).bind Value.hash,
        (n + 1, w.sent steps n tx)) := by
  unfold sendRawTransaction
  rw [Call.exec_bind]
  have hrequest : Call.exec (execAlone steps) (request (.sendRawTransaction tx)) (n, w) =
      ((steps n).fate.answer (tx ∈ w.node.accepted),
        (n + 1, w.sent steps n tx)) := rfl
  rw [hrequest]
  cases (steps n).fate.answer (tx ∈ w.node.accepted) with
  | error e => rfl
  | ok v =>
    cases v with
    | string s => rfl
    | other => rfl

/-- What an attempt comes to, for a transaction that the node does not have. -/
theorem answer_new (fate : Fate) :
    (fate.losesAcceptance = true ∧ fate.accepts = true ∧ fate.retried = false ∧
      ∃ e, (fate.answer false).bind Value.hash = .error e) ∨
    (fate.losesAcceptance = false ∧ fate.accepts = true ∧ fate.retried = false ∧
      ∃ hash, (fate.answer false).bind Value.hash = .ok hash) ∨
    (fate.losesAcceptance = false ∧ fate.accepts = false ∧
      ∃ e, (fate.answer false).bind Value.hash = .error e ∧ e.retriable = fate.retried) := by
  cases fate with
  | undelivered e => exact .inr (.inr ⟨rfl, rfl, e, rfl, rfl⟩)
  | delivered verdict loss =>
    cases verdict with
    | error refusal =>
      cases loss with
      | some e => exact .inr (.inr ⟨rfl, rfl, e, rfl, rfl⟩)
      | none => exact .inr (.inr ⟨rfl, rfl, _, rfl, rfl⟩)
    | ok v =>
      cases loss with
      | some e => exact .inl ⟨rfl, rfl, rfl, e, rfl⟩
      | none =>
        cases v with
        | string hash => exact .inr (.inl ⟨rfl, rfl, rfl, hash, rfl⟩)
        | other => exact .inl ⟨rfl, rfl, rfl, _, rfl⟩

theorem not_loses_of_retried (h : fate.retried = true) : fate.losesAcceptance = false := by
  rcases answer_new fate with ⟨-, -, hr, -⟩ | ⟨hl, -⟩ | ⟨hl, -⟩
  · exact absurd h (by simp [hr])
  · exact hl
  · exact hl

theorem WalletWorld.sent_accepted : (w.sent steps n tx).node.accepted =
    if (steps n).fate.accepts ∧ tx ∉ w.node.accepted then w.node.accepted ++ [tx]
    else w.node.accepted := by
  show (w.node.accept (steps n).fate tx).accepted = _
  unfold Node.accept
  split <;> rfl

/-- A transaction that the node has is never answered with a hash, nor accepted again. -/
theorem answer_known (h : tx ∈ w.node.accepted) :
    ∃ e, ((steps n).fate.answer (tx ∈ w.node.accepted)).bind Value.hash = .error e := by
  rw [decide_eq_true h]
  cases (steps n).fate with
  | undelivered e => exact ⟨e, rfl⟩
  | delivered verdict loss =>
    cases loss with
    | some e => exact ⟨e, rfl⟩
    | none =>
      cases verdict with
      | ok v => exact ⟨_, rfl⟩
      | error e => exact ⟨_, rfl⟩

theorem sent_known (h : tx ∈ w.node.accepted) : (w.sent steps n tx).node.accepted = w.node.accepted := by
  rw [WalletWorld.sent_accepted, if_neg fun hnew => hnew.2 h]

theorem sent_refused (h : (steps n).fate.accepts = false) :
    (w.sent steps n tx).node.accepted = w.node.accepted := by
  rw [WalletWorld.sent_accepted, h]
  rfl

/-- The attempts end with an answer that is a hash, with an error that is not tried again, and with the last. -/
theorem exec_sendAttempts_end {r : Except RpcError String}
    (h : ((steps n).fate.answer (tx ∈ w.node.accepted)).bind Value.hash = r)
    (he : retries = 0 ∨ ∀ e, r = .error e → e.retriable = false) :
    Call.exec (execAlone steps) (sendAttempts tx retries) (n, w) =
      (r.mapError RpcError.giveUp, (n + 1, w.sent steps n tx)) := by
  cases retries with
  | zero =>
    unfold sendAttempts
    rw [Call.exec_mapErr, exec_sendRawTransaction, h]
  | succ retries =>
    have hstop := he.resolve_left (Nat.succ_ne_zero retries)
    unfold sendAttempts
    rw [Call.exec_bind, Call.exec_lift, exec_sendRawTransaction, h]
    cases r with
    | ok hash => rfl
    | error e =>
      dsimp only
      rw [hstop e rfl]
      rfl

theorem exec_sendAttempts_ok {hash : String}
    (h : ((steps n).fate.answer (tx ∈ w.node.accepted)).bind Value.hash = .ok hash) :
    Call.exec (execAlone steps) (sendAttempts tx retries) (n, w) = (.ok hash, (n + 1, w.sent steps n tx)) :=
  exec_sendAttempts_end h (.inr nofun)

theorem exec_sendAttempts_again {e : RpcError}
    (h : ((steps n).fate.answer (tx ∈ w.node.accepted)).bind Value.hash = .error e)
    (he : e.retriable = true) :
    Call.exec (execAlone steps) (sendAttempts tx (retries + 1)) (n, w) =
      Call.exec (execAlone steps) (sendAttempts tx retries) (n + 1, w.sent steps n tx) := by
  conv_lhs => unfold sendAttempts
  rw [Call.exec_bind, Call.exec_lift, exec_sendRawTransaction, h]
  dsimp only
  rw [if_pos he]

theorem exec_sendAttempts_stop {e : RpcError}
    (h : ((steps n).fate.answer (tx ∈ w.node.accepted)).bind Value.hash = .error e)
    (he : retries = 0 ∨ e.retriable = false) :
    Call.exec (execAlone steps) (sendAttempts tx retries) (n, w) =
      (.error e.giveUp, (n + 1, w.sent steps n tx)) := by
  refine exec_sendAttempts_end h (he.imp_right fun hstop e' he' => ?_)
  cases he'
  exact hstop

/-- With a transaction that the node has, the attempts come to nothing. -/
theorem sendAttempts_known (steps : Nat → NodeStep) (n retries : Nat) (h : tx ∈ w.node.accepted) :
    (Call.exec (execAlone steps) (sendAttempts tx retries) (n, w)).1.isOk = false ∧
      (Call.exec (execAlone steps) (sendAttempts tx retries) (n, w)).2.2.node.accepted =
        w.node.accepted := by
  induction retries generalizing n w with
  | zero =>
    obtain ⟨e, he⟩ := answer_known h
    rw [exec_sendAttempts_stop he (.inl rfl)]
    exact ⟨rfl, sent_known h⟩
  | succ retries ih =>
    obtain ⟨e, he⟩ := answer_known h
    cases hretry : e.retriable with
    | false =>
      rw [exec_sendAttempts_stop he (.inr hretry)]
      exact ⟨rfl, sent_known h⟩
    | true =>
      have hsent : (w.sent steps n tx).node.accepted = w.node.accepted := sent_known h
      rw [exec_sendAttempts_again he hretry]
      obtain ⟨herr, hacc⟩ := ih (n + 1) (w := w.sent steps n tx) (hsent ▸ h)
      exact ⟨herr, hacc.trans hsent⟩

/-- Where the attempt is not made again, it is the one that counts. -/
theorem losesAcceptance_settled (hstop : retries = 0 ∨ (steps n).fate.retried = false) :
    LosesAcceptance steps n retries ↔ (steps n).fate.losesAcceptance = true := by
  constructor
  · rintro ⟨k, hk, hloses, hearlier⟩
    cases k with
    | zero => exact hloses
    | succ k =>
      have hretried := hearlier 0 (Nat.succ_pos k)
      rcases hstop with rfl | hstop
      · exact absurd hk (Nat.not_succ_le_zero k)
      · exact absurd hretried (by simp [hstop])
  · intro h
    exact ⟨0, Nat.zero_le _, h, fun j hj => absurd hj (Nat.not_lt_zero j)⟩

theorem losesAcceptance_retried (hretried : (steps n).fate.retried = true) :
    LosesAcceptance steps n (retries + 1) ↔ LosesAcceptance steps (n + 1) retries := by
  constructor
  · rintro ⟨k, hk, hloses, hearlier⟩
    cases k with
    | zero => exact absurd hloses (by simp [not_loses_of_retried hretried])
    | succ k =>
      refine ⟨k, Nat.le_of_succ_le_succ hk, ?_, fun j hj => ?_⟩
      · rwa [Nat.add_right_comm n 1 k]
      · rw [Nat.add_right_comm n 1 j]
        exact hearlier (j + 1) (Nat.succ_lt_succ hj)
  · rintro ⟨k, hk, hloses, hearlier⟩
    refine ⟨k + 1, Nat.succ_le_succ hk, ?_, fun j hj => ?_⟩
    · rwa [Nat.add_right_comm n 1 k] at hloses
    · cases j with
      | zero => exact hretried
      | succ j =>
        have hj' := hearlier j (Nat.lt_of_succ_lt_succ hj)
        rwa [Nat.add_right_comm n 1 j] at hj'

/-- The node has come to accept the transaction, and the attempts give up on it. -/
def GivesUpAccepted (steps : Nat → NodeStep) (tx : SignedTx) (retries n : Nat) (w : WalletWorld) : Prop :=
  (Call.exec (execAlone steps) (sendAttempts tx retries) (n, w)).1.isOk = false ∧
    (Call.exec (execAlone steps) (sendAttempts tx retries) (n, w)).2.2.node.accepted ≠ w.node.accepted

/-- Once an acceptance is lost, the other attempts are made for nothing. -/
theorem givesUpAccepted_of_loses (hnew : tx ∉ w.node.accepted)
    (haccepts : (steps n).fate.accepts = true) {e : RpcError}
    (he : ((steps n).fate.answer (tx ∈ w.node.accepted)).bind Value.hash = .error e) :
    GivesUpAccepted steps tx retries n w := by
  have hsent : (w.sent steps n tx).node.accepted = w.node.accepted ++ [tx] := by
    rw [WalletWorld.sent_accepted, if_pos ⟨haccepts, hnew⟩]
  have hgrown : (w.sent steps n tx).node.accepted ≠ w.node.accepted := by
    rw [hsent]
    simp
  unfold GivesUpAccepted
  cases retries with
  | zero =>
    rw [exec_sendAttempts_stop he (.inl rfl)]
    exact ⟨rfl, hgrown⟩
  | succ retries =>
    cases hretry : e.retriable with
    | false =>
      rw [exec_sendAttempts_stop he (.inr hretry)]
      exact ⟨rfl, hgrown⟩
    | true =>
      have hmem : tx ∈ (w.sent steps n tx).node.accepted := by
        rw [hsent]
        exact List.mem_append_right _ (List.mem_singleton_self tx)
      obtain ⟨herr, hacc⟩ := sendAttempts_known steps (n + 1) retries hmem
      rw [exec_sendAttempts_again he hretry, hacc]
      exact ⟨herr, hgrown⟩

theorem givesUpAccepted_settled (hnew : tx ∉ w.node.accepted)
    (hstop : retries = 0 ∨ (steps n).fate.retried = false) :
    GivesUpAccepted steps tx retries n w ↔ (steps n).fate.losesAcceptance = true := by
  have hunknown : decide (tx ∈ w.node.accepted) = false := decide_eq_false hnew
  rcases answer_new (steps n).fate with ⟨hl, ha, -, e, he⟩ | ⟨hl, -, -, hash, he⟩ | ⟨hl, ha, e, he, hr⟩
  · rw [← hunknown] at he
    exact iff_of_true (givesUpAccepted_of_loses hnew ha he) hl
  · rw [← hunknown] at he
    refine iff_of_false ?_ (by simp [hl])
    unfold GivesUpAccepted
    rw [exec_sendAttempts_ok he]
    exact fun h => Bool.noConfusion h.1
  · rw [← hunknown] at he
    refine iff_of_false ?_ (by simp [hl])
    unfold GivesUpAccepted
    rw [exec_sendAttempts_stop he (hstop.imp_right hr.trans)]
    exact fun h => h.2 (sent_refused ha)

theorem givesUpAccepted_retried (retries : Nat) (hnew : tx ∉ w.node.accepted)
    (hretried : (steps n).fate.retried = true) :
    (w.sent steps n tx).node.accepted = w.node.accepted ∧
      (GivesUpAccepted steps tx (retries + 1) n w ↔
        GivesUpAccepted steps tx retries (n + 1) (w.sent steps n tx)) := by
  have hunknown : decide (tx ∈ w.node.accepted) = false := decide_eq_false hnew
  rcases answer_new (steps n).fate with ⟨-, -, hr, -⟩ | ⟨-, -, hr, -⟩ | ⟨-, ha, e, he, hr⟩
  · exact absurd hretried (by simp [hr])
  · exact absurd hretried (by simp [hr])
  · rw [← hunknown] at he
    have hsent : (w.sent steps n tx).node.accepted = w.node.accepted := sent_refused ha
    refine ⟨hsent, ?_⟩
    unfold GivesUpAccepted
    rw [exec_sendAttempts_again he (hr.trans hretried), hsent]

/-- The attempts give up on a transaction that the node has come to accept exactly when one of them
loses the acceptance. -/
theorem givesUpAccepted_iff (hnew : tx ∉ w.node.accepted) :
    GivesUpAccepted steps tx retries n w ↔ LosesAcceptance steps n retries := by
  induction retries generalizing n w with
  | zero => rw [givesUpAccepted_settled hnew (.inl rfl), losesAcceptance_settled (.inl rfl)]
  | succ retries ih =>
    cases hretried : (steps n).fate.retried with
    | false =>
      rw [givesUpAccepted_settled hnew (.inr hretried), losesAcceptance_settled (.inr hretried)]
    | true =>
      obtain ⟨hsent, hiff⟩ := givesUpAccepted_retried retries hnew hretried
      rw [hiff, losesAcceptance_retried hretried]
      exact ih (hsent ▸ hnew)

end Attempts

/-! ## The call -/

section Whole

variable {c : Crypto} {chainId : UInt64} {p : Payment} {steps : Nat → NodeStep} {n : Nat}
  {w w' : WalletWorld} {tx : SignedTx} {id : Uuid} {α : Type}

/-- Questions to the node leave the records and the accepted transactions alone. -/
theorem run_asks (steps : Nat → NodeStep) {q : Prog WalletOp WalletOp.Reply SqlError α}
    (hq : q.Issues WalletOp.Asks) (s : Nat × WalletWorld) :
    (Prog.run (execAlone steps) q s).2.2.records = s.2.records ∧
      (Prog.run (execAlone steps) q s).2.2.node.accepted = s.2.node.accepted := by
  refine Prog.run_keeps
    (I := fun t : Nat × WalletWorld => t.2.records = s.2.records ∧ t.2.node.accepted = s.2.node.accepted)
    (fun o ho t ht => ?_) hq ⟨rfl, rfl⟩
  cases o with
  | rpc r =>
    cases r with
    | sendRawTransaction tx => cases ho
    | _ => exact ht
  | _ => cases ho

/-- The attempts leave the records alone. -/
theorem sendAttempts_records (steps : Nat → NodeStep) (n : Nat) (w : WalletWorld) (tx : SignedTx)
    (retries : Nat) :
    (Call.exec (execAlone steps) (sendAttempts tx retries) (n, w)).2.2.records = w.records := by
  have hissues : Call.Issues (fun o => ∃ r, o = WalletOp.rpc r) (sendAttempts tx retries) := by
    have hsend : Call.Issues (fun o => ∃ r, o = WalletOp.rpc r) (sendRawTransaction tx) :=
      Call.issues_bind ⟨⟨_, rfl⟩, fun _ => trivial⟩ fun _ => Call.issues_orThrow
    induction retries with
    | zero => exact Call.issues_mapErr hsend
    | succ retries ih =>
      refine Call.issues_bind (Call.issues_lift hsend) fun sent => ?_
      cases sent with
      | ok hash => exact Call.issues_pure _
      | error e =>
        dsimp only
        split
        · exact ih
        · exact Call.issues_throw _
  refine Prog.run_keeps (I := fun t : Nat × WalletWorld => t.2.records = w.records)
    (fun o ho t ht => ?_) hissues rfl
  obtain ⟨r, rfl⟩ := ho
  exact ht

/-- A record that is set to submitted is not failed. -/
theorem updateTxSubmitted_status {step : NodeStep} {hash : String} {gasPrice now : Int}
    {r : TransactionRecord}
    (hr : r ∈ (execWallet step (.updateTxSubmitted id hash gasPrice now) w).2.records.rows)
    (hid : r.id = id) : r.status = .Submitted := by
  obtain ⟨r₀, -, rfl⟩ := List.mem_map.1 hr
  by_cases h : r₀.id = id
  · simp [h]
  · exact absurd hid (by simp [h])

theorem updateTxFailed_status {step : NodeStep} {e : String} (h : ∃ r ∈ w.records.rows, r.id = id) :
    ∃ r ∈ (execWallet step (.updateTxFailed id e) w).2.records.rows, r.id = id ∧ r.status = .Failed := by
  obtain ⟨r₀, hr₀, hid⟩ := h
  exact ⟨_, List.mem_map.2 ⟨r₀, hr₀, rfl⟩, by simp [hid], by simp [hid]⟩

/-- The record is set to failed exactly when the attempts give up. -/
theorem sendRecorded_iff (c : Crypto) (steps : Nat → NodeStep) (n : Nat) (tx : SignedTx)
    (hrow : ∃ r ∈ w.records.rows, r.id = p.env.uuid 0) :
    FailedUnaccepted (p.env.uuid 0) w (Call.exec (execAlone steps) (sendRecorded c p tx) (n, w)).2.2 ↔
      ¬ GivesUpAccepted steps tx MAX_SEND_RETRIES n w := by
  have hrecords := sendAttempts_records steps n w tx MAX_SEND_RETRIES
  unfold sendRecorded GivesUpAccepted sendTransaction
  rw [Call.exec_bind, Call.exec_lift]
  rcases hx : Call.exec (execAlone steps) (sendAttempts tx MAX_SEND_RETRIES) (n, w) with ⟨r, m, w₁⟩
  rw [hx] at hrecords
  have hrow₁ : ∃ r ∈ w₁.records.rows, r.id = p.env.uuid 0 := by
    change w₁.records = w.records at hrecords
    rwa [hrecords]
  cases r with
  | ok hash =>
    refine iff_of_true ?_ (fun h => Bool.noConfusion h.1)
    dsimp only
    rw [Call.exec_bind, Call.exec_lift]
    rcases Call.exec (execAlone steps) (estimateFees c p.settlementData) (m, w₁) with ⟨fee, m₂, w₂⟩
    dsimp only
    rw [Call.exec_op_bind_ok rfl, Call.exec_pure]
    rintro ⟨r, hr, hid, hst⟩
    rw [updateTxSubmitted_status hr hid] at hst
    cases hst
  | error e =>
    dsimp only
    rw [Call.exec_op_bind_ok rfl, Call.exec_throw]
    constructor
    · intro h hgives
      exact hgives.2 (h (updateTxFailed_status hrow₁))
    · intro h _
      by_contra hne
      exact h ⟨rfl, hne⟩

theorem signSettlementTx_keeps {r : Except WalletError SignedTx} {s : Nat × WalletWorld}
    (hx : Call.exec (execAlone steps) (signSettlementTx c chainId p) (0, w) = (r, s)) :
    s.2.records = w.records ∧ s.2.node.accepted = w.node.accepted := by
  have hkeeps := run_asks steps (signSettlementTx_asks c chainId p) (0, w)
  change (Call.exec (execAlone steps) (signSettlementTx c chainId p) (0, w)).2.2.records = _ ∧
    (Call.exec (execAlone steps) (signSettlementTx c chainId p) (0, w)).2.2.node.accepted = _ at hkeeps
  rwa [hx] at hkeeps

/-- A call that does not get as far as sending leaves the node alone. -/
theorem sendSettlementTx_not_sends (h : ∀ tx n, ¬ p.Sends c chainId steps w tx n) :
    (Call.exec (execAlone steps) (sendSettlementTx c chainId p) (0, w)).2.2.node.accepted =
      w.node.accepted := by
  unfold sendSettlementTx
  rw [Call.exec_bind]
  rcases hx : Call.exec (execAlone steps) (signSettlementTx c chainId p) (0, w) with ⟨r, n, w₁⟩
  obtain ⟨hrecords, hacc⟩ := signSettlementTx_keeps hx
  cases r with
  | error e => exact hacc
  | ok tx =>
    have hins : w₁.records.insert p.record = none := by
      rw [← Option.not_isSome_iff_eq_none, Table.insert_isSome_iff, hrecords]
      exact fun hfree => h tx n ⟨⟨w₁, hx⟩, fun r hr => (hfree r hr).1⟩
    have hop : execAlone steps (.insertTransaction p.record) (n, w₁) =
        (.error .uniqueViolation, (n + 1, { w₁ with node := w₁.node.after (steps n) })) := by
      simp [execAlone, execWallet, execWalletOp, hins]
    dsimp only
    rw [Call.exec_op_bind_error hop]
    exact hacc

/-- What a call that sends makes of the record. -/
theorem sendSettlementTx_sends (h : p.Sends c chainId steps w tx n) :
    FailedUnaccepted (p.env.uuid 0) w
      (Call.exec (execAlone steps) (sendSettlementTx c chainId p) (0, w)).2.2 ↔
    (tx ∉ w.node.accepted → ¬ LosesAcceptance steps (n + 1) MAX_SEND_RETRIES) := by
  obtain ⟨⟨w₁, hx⟩, hfree⟩ := h
  obtain ⟨hrecords, hacc⟩ := signSettlementTx_keeps hx
  obtain ⟨tbl, hins⟩ : ∃ tbl, w₁.records.insert p.record = some tbl := by
    rw [← Option.isSome_iff_exists, Table.insert_isSome_iff, hrecords]
    exact fun r hr => ⟨hfree r hr, hfree r hr⟩
  have hop : execAlone steps (.insertTransaction p.record) (n, w₁) =
      (.ok (), (n + 1, ⟨tbl, w₁.node.after (steps n)⟩)) := by
    simp [execAlone, execWallet, execWalletOp, hins]
  unfold sendSettlementTx
  rw [Call.exec_bind, hx]
  dsimp only
  rw [Call.exec_op_bind_ok hop]
  have hrow : ∃ r ∈ tbl.rows, r.id = p.env.uuid 0 :=
    ⟨p.record, (Table.mem_insert hins).2 (.inr rfl), rfl⟩
  have hrest := sendRecorded_iff c steps (n + 1) tx
    (w := ⟨tbl, w₁.node.after (steps n)⟩) hrow
  have hsame : (w₁.node.after (steps n)).accepted = w.node.accepted := hacc
  unfold FailedUnaccepted at hrest ⊢
  rw [hsame] at hrest
  rw [hrest]
  by_cases hknown : tx ∈ w.node.accepted
  · refine iff_of_true (fun hgives => hgives.2 ?_) (fun hnew => absurd hknown hnew)
    exact (sendAttempts_known steps (n + 1) MAX_SEND_RETRIES (hsame ▸ hknown)).2
  · rw [givesUpAccepted_iff (hsame ▸ hknown)]
    exact ⟨fun hloses _ => hloses, fun hloses => hloses hknown⟩

/-- A payment recorded as failed was not accepted exactly when no attempt that is made has its request
accepted and its answer lost. -/
theorem failed_unaccepted_iff (c : Crypto) (chainId : UInt64) (p : Payment) (steps : Nat → NodeStep)
    (w : WalletWorld) :
    FailedUnaccepted (p.env.uuid 0) w
      (Call.exec (execAlone steps) (sendSettlementTx c chainId p) (0, w)).2.2 ↔
    ∀ tx n, p.Sends c chainId steps w tx n → tx ∉ w.node.accepted →
      ¬ LosesAcceptance steps (n + 1) MAX_SEND_RETRIES := by
  by_cases h : ∃ tx n, p.Sends c chainId steps w tx n
  · obtain ⟨tx, n, hs⟩ := h
    rw [sendSettlementTx_sends hs]
    constructor
    · intro hnot tx' n' hs'
      obtain ⟨w₁, hx⟩ := hs.1
      obtain ⟨w₂, hx'⟩ := hs'.1
      rw [hx] at hx'
      cases hx'
      exact hnot
    · intro hall
      exact hall tx n hs
  · refine iff_of_true (fun _ => sendSettlementTx_not_sends fun tx n hs => h ⟨tx, n, hs⟩) ?_
    intro tx n hs
    exact absurd ⟨tx, n, hs⟩ h

end Whole

/-! ## A lost answer -/

instance (id : Uuid) (w w' : WalletWorld) : Decidable (FailedUnaccepted id w w') :=
  inferInstanceAs (Decidable ((∃ r ∈ w'.records.rows, _) → _))

/-- The node accepts the transaction at the first attempt, and the connection is lost before the
answer; at the second attempt it knows the transaction. -/
def lostAnswer (n : Nat) : NodeStep :=
  { demoStep 1000000000 0 with
    fate := .delivered (.ok (.string "0xd1")) (if n = 5 then some (.Network "connection reset") else none) }

/-- A payment that the node has accepted is recorded as failed. -/
theorem failed_yet_accepted :
    ¬ ∀ (c : Crypto) (chainId : UInt64) (p : Payment) (steps : Nat → NodeStep) (w : WalletWorld),
      FailedUnaccepted (p.env.uuid 0) w
        (Call.exec (execAlone steps) (sendSettlementTx c chainId p) (0, w)).2.2 := by
  intro h
  have hmet := h demoCrypto 1 (demoPayment .first) lostAnswer demoWorld
  have hmissed : ¬ FailedUnaccepted 10 demoWorld
      (Call.exec (execAlone lostAnswer) (sendSettlementTx demoCrypto 1 (demoPayment .first))
        (0, demoWorld)).2.2 := by
    decide +kernel
  exact hmissed hmet

end IntentX.OnChain
