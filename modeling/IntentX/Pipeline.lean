import IntentX.MinOutput
import IntentX.SettlementWorker

/-!
# From execution to settlement

`execute_fills` publishes one event for each fill, and the settlement worker settles the fill with
the accounts that the event names.  The buyer is looked up; the seller is always `Uuid::nil()`
(`executeFills_emits`).  So the worker does what `settle_fill` between the buyer and the winning
solver does if and only if the solver's account has the nil id (`right_parties_iff`).
-/

namespace IntentX

open Lib

/-! ## The events of the execution engine -/

/-- `w'` has the stream entries of `w` and then only such that satisfy `P`. -/
def Emits (P : StreamEvent → Prop) (w w' : World) : Prop :=
  ∃ new, w'.streams = w.streams ++ new ∧ ∀ s ∈ new, P s

/-- The event of a fill, with the execution's id left open. -/
def IsEventOf (i : Intent) (buyerAccountId : Uuid) (fills : List Fill) (s : StreamEvent) : Prop :=
  ∃ fill ∈ fills, ∃ executionId, s = .executionCompleted
    { executionId, fillId := fill.id, intentId := i.id, solverId := fill.solverId, buyerAccountId,
      sellerAccountId := nilUuid, tokenIn := i.tokenIn, tokenOut := i.tokenOut }

section Emits

variable {ar : Arith} {bus : Bus} {P : StreamEvent → Prop} {w₀ w w' : World}

theorem Emits.refl (w : World) : Emits P w w := ⟨[], (List.append_nil _).symm, by simp⟩

theorem Emits.of_streams (h : Emits P w₀ w) (hs : w'.streams = w.streams) : Emits P w₀ w' := by
  obtain ⟨new, hnew, hP⟩ := h
  exact ⟨new, hs.trans hnew, hP⟩

theorem Emits.publish (h : Emits P w₀ w) (e : Event) :
    Emits P w₀ (execAct ar bus (.publish e) w).2 := by
  obtain ⟨l, hl⟩ := execAct_publish ar bus w e
  exact h.of_streams (by rw [hl])

theorem Emits.stream (h : Emits P w₀ w) {s : StreamEvent} (hs : P s) :
    Emits P w₀ (execAct ar bus (.stream s) w).2 := by
  obtain ⟨new, hnew, hP⟩ := h
  simp only [execAct]
  split
  · refine ⟨new ++ [s], ?_, ?_⟩
    · show w.streams ++ [s] = _
      rw [hnew, List.append_assoc]
    · intro s' hs'
      rcases List.mem_append.1 hs' with hs' | hs'
      · exact hP s' hs'
      · rw [List.mem_singleton.1 hs']
        exact hs
  · exact ⟨new, hnew, hP⟩

theorem executeFill_emits {env : Env} {i : Intent} {buyer : Uuid} {fill : Fill}
    {fills : List Fill} (hfill : fill ∈ fills) (h : Emits (IsEventOf i buyer fills) w₀ w) :
    Call.Ends (execAct ar bus) (Emits (IsEventOf i buyer fills) w₀)
      (executeFill env i buyer fill) w := by
  refine Call.ends_bind (Call.ends_attempt (h.of_streams ?_)) fun _ w₁ _ h₁ => ?_
  · simp only [execAct, execStmt]
    cases w.executions.insert _ <;> rfl
  refine Call.ends_bind (Call.ends_op (h₁.publish _)) fun _ w₂ _ h₂ => ?_
  refine Call.ends_bind (Call.ends_attempt (h₂.of_streams rfl)) fun _ w₃ _ h₃ => ?_
  refine Call.ends_bind (Call.ends_op (h₃.publish _)) fun _ w₄ _ h₄ => ?_
  refine Call.ends_bind (Call.ends_attempt (h₄.stream ?_)) fun _ w₅ _ h₅ => Call.ends_pure h₅
  exact ⟨fill, hfill, env.uuid 1, rfl⟩

theorem executeLoop_emits {env : Env} {i : Intent} {buyer : Uuid} {all fills : List Fill}
    (hsub : ∀ f ∈ fills, f ∈ all) (h : Emits (IsEventOf i buyer all) w₀ w) :
    Call.Ends (execAct ar bus) (Emits (IsEventOf i buyer all) w₀)
      (executeLoop env i buyer fills) w := by
  induction fills generalizing env w with
  | nil => exact Call.ends_pure h
  | cons fill fills ih =>
    refine Call.ends_bind (executeFill_emits (hsub fill List.mem_cons_self) h) fun _ w₁ _ h₁ => ?_
    exact ih (fun f hf => hsub f (List.mem_cons_of_mem fill hf)) h₁

/-- **What the execution engine announces.**  Every event is about a fill of the intent, and names
the account of the intent's user and the nil account. -/
theorem executeFills_emits {env : Env} {id : Uuid} {i : Intent} (hi : w.intent id = some i) :
    Call.Ends (execAct ar bus)
      (Emits (IsEventOf i ((w.accountByUserId i.userId).getD nilUuid) (w.fillsOf id)) w)
      (executeFills env id) w := by
  have hfills : Call.exec (execAct ar bus) (trySql (.selectFills id) : Task String _) w =
      (.ok (some (w.fillsOf id)), w) := rfl
  have hbuyer : Call.exec (execAct ar bus) (resolveAccount i.userId : Task String _) w =
      (.ok (w.accountByUserId i.userId), w) := rfl
  refine Call.ends_bind_of_exec hfills ?_
  simp only [Option.getD_some]
  split
  · exact Call.ends_pure (Emits.refl w)
  refine Call.ends_bind_of_exec (exec_getIntent id) ?_
  rw [hi]
  refine Call.ends_bind_of_exec hbuyer ?_
  refine Call.ends_bind_of_exec (exec_getIntent id) ?_
  rw [hi]
  refine Call.ends_bind_of_exec (exec_tryStatus _ _) ?_
  exact executeLoop_emits (fun _ hf => hf) ((Emits.refl w).of_streams rfl)

end Emits

/-! ## The settlement worker -/

/-- The status of the intent is the only thing `update_intent_status` writes in the database. -/
theorem updateIntentStatus_frame (ar : Arith) (bus : Bus) (id : Uuid) (w : World) :
    Call.Ends (execAct ar bus) (fun w' => w'.balances = w.balances ∧
      w'.ledgerEntries = w.ledgerEntries ∧ w'.fills = w.fills) (updateIntentStatus id) w := by
  have hamount : Call.exec (execAct ar bus) (trySql (.selectIntentAmount id) : Task Empty _) w =
      (.ok (some ((w.intent id).map (·.amountIn))), w) := rfl
  have hqty : Call.exec (execAct ar bus) (trySql (.settledQty id) : Task Empty _) w =
      (.ok none, w) := rfl
  refine Call.ends_bind_of_exec hamount ?_
  simp only [Option.join_some]
  split
  · exact Call.ends_pure ⟨rfl, rfl, rfl⟩
  refine Call.ends_bind_of_exec hqty ?_
  simp only [Option.getD_none]
  split
  · exact Call.ends_pure ⟨rfl, rfl, rfl⟩
  · next st _ =>
    refine Call.ends_bind_of_exec (exec_tryStatus _ _) ?_
    refine Call.ends_bind (Call.ends_attempt ?_) fun _ w' _ h' => Call.ends_pure h'
    obtain ⟨l, hl⟩ := execAct_stream ar bus (w.setStatus id st) (.intentSettled ⟨id, 0, st⟩)
    rw [hl]
    exact ⟨rfl, rfl, rfl⟩

/-- The settlement an event asks for. -/
def ExecutionCompletedEvent.args (e : ExecutionCompletedEvent) (assetIn assetOut : Asset)
    (fees : Int → Int × Int) : SettleFillArgs :=
  ⟨e.fillId, e.buyerAccountId, e.sellerAccountId, assetIn, assetOut, fees⟩

/-- `db'` is `db` after a settlement that led to `w'`, as far as money and fills go. -/
structure SettledAs (w' : World) (db db' : RetryDb) : Prop where
  balances : db'.world.balances = w'.balances
  ledgerEntries : db'.world.ledgerEntries = w'.ledgerEntries
  fills : db'.world.fills = w'.fills
  failed : db'.failed = db.failed

section Worker

variable {ar : Arith} {bus : Bus} {env : Env} {fees : Int → Int × Int} {e : ExecutionCompletedEvent}
  {assetIn assetOut : Asset} {db : RetryDb} {w' : World}

theorem run_processEvent (hin : parseAsset e.tokenIn = some assetIn)
    (hout : parseAsset e.tokenOut = some assetOut) {r : Except SettlementError Unit}
    (h : settleFillTx ar env (e.args assetIn assetOut fees) db.world = (r, w')) :
    Prog.run (execRetry ar bus) (processEvent env fees e) db =
      Prog.run (execRetry ar bus) (onSettled (env.drop 11) e r) { db with world := w' } := by
  have hask : execRetry ar bus (RetryAct.settleFill env (e.args assetIn assetOut fees)) db =
      (.ok r, { db with world := w' }) := by
    show ((.ok (settleFillTx ar env _ db.world).1 : Except SqlError _),
      { db with world := (settleFillTx ar env _ db.world).2 }) = _
    rw [h]
  unfold processEvent
  rw [hin, hout]
  show Prog.run _ (onSettled (env.drop 11) e (flatten .DbError
    (execRetry ar bus (RetryAct.settleFill env (e.args assetIn assetOut fees)) db).1))
    (execRetry ar bus (RetryAct.settleFill env (e.args assetIn assetOut fees)) db).2 = _
  rw [hask]
  rfl

/-- A settlement that succeeds is what the worker leaves behind. -/
theorem processEvent_settled (bus : Bus) (hin : parseAsset e.tokenIn = some assetIn)
    (hout : parseAsset e.tokenOut = some assetOut)
    (h : settleFillTx ar env (e.args assetIn assetOut fees) db.world = (.ok (), w')) :
    SettledAs w' db (Prog.run (execRetry ar bus) (processEvent env fees e) db).2 := by
  obtain ⟨hbal, hled, hfill⟩ := (updateIntentStatus_frame ar bus e.intentId w').holds Prod.mk.eta.symm
  rw [run_processEvent hin hout h, onSettled, Prog.run_bind, run_liftTask]
  exact ⟨hbal, hled, hfill, rfl⟩

/-- After a settlement that fails the fills are as before. -/
theorem processEvent_failed (bus : Bus) (hin : parseAsset e.tokenIn = some assetIn)
    (hout : parseAsset e.tokenOut = some assetOut) {err : SettlementError}
    (h : settleFillTx ar env (e.args assetIn assetOut fees) db.world = (.error err, db.world)) :
    (Prog.run (execRetry ar bus) (processEvent env fees e) db).2.world.fills = db.world.fills := by
  rw [run_processEvent hin hout h]
  by_cases herr : err = .AlreadySettled
  · rw [herr, onSettled, Prog.run_bind, run_liftTask]
    exact ((updateIntentStatus_frame ar bus e.intentId db.world).holds Prod.mk.eta.symm).2.2
  · rw [onSettled]
    · rfl
    · exact herr

end Worker

/-! ## The books of a settlement -/

/-- The ledger entries of `settle_fill`. -/
def fillEntries (ar : Arith) (env : Env) (p : SettleFillArgs) (fill : Fill) : List LedgerEntry :=
  let entry (n : Nat) (a : Uuid) (s : Asset) (x : Int) (t : EntryType) (r : ReferenceType) :
      LedgerEntry := ⟨env.uuid n, a, s, x, t, r, fill.id, env.now 0⟩
  [entry 5 p.buyerAccountId p.assetIn fill.filledQty .CREDIT .TRADE,
    entry 6 p.buyerAccountId p.assetOut fill.qty .DEBIT .TRADE,
    entry 7 p.sellerAccountId p.assetIn (fillShares ar p fill).1 .DEBIT .TRADE,
    entry 8 p.sellerAccountId p.assetOut fill.qty .CREDIT .TRADE] ++
  (if 0 < (fillShares ar p fill).2.1 then
    [entry 9 platformAccountId p.assetIn (fillShares ar p fill).2.1 .DEBIT .FEE] else []) ++
  (if 0 < (fillShares ar p fill).2.2 then
    [entry 10 platformAccountId p.assetIn (fillShares ar p fill).2.2 .DEBIT .FEE] else [])

section Ledger

variable {ar : Arith} {env : Env} {w w' : World} {p : SettleFillArgs} {fill : Fill}

theorem insertLedger_entries {f : SqlError → SettlementError} {id a ref : Uuid} {s : Asset}
    {x now : Int} {t : EntryType} {r : ReferenceType}
    (h : Call.exec (execStmt ar) (Call.mapErr f (insertLedger id a s x t r ref now)) w = (.ok (), w')) :
    w'.ledgerEntries = w.ledgerEntries ++ [⟨id, a, s, x, t, r, ref, now⟩] := by
  rw [← (query_eq (Call.exec_mapErr_ok.1 h) rfl).2]

theorem insertFee_entries {f : SqlError → SettlementError} {id a ref : Uuid} {s : Asset}
    {x now : Int} {t : EntryType} {r : ReferenceType}
    (h : Call.exec (execStmt ar)
      (Call.doIf (0 < x) (Call.mapErr f (insertLedger id a s x t r ref now))) w = (.ok (), w')) :
    w'.ledgerEntries = w.ledgerEntries ++ if 0 < x then [⟨id, a, s, x, t, r, ref, now⟩] else [] := by
  rw [Call.exec_doIf] at h
  split at h
  · rw [if_pos ‹_›]
    exact insertLedger_entries h
  · rw [if_neg ‹_›, List.append_nil, (Prod.mk.inj h).2]

theorem settleLocked_entries
    (h : Call.exec (execStmt ar) (settleLocked ar env p fill) w = (.ok (), w')) :
    w'.ledgerEntries = w.ledgerEntries ++ fillEntries ar env p fill := by
  simp only [settleLocked, Call.exec_bind_ok] at h
  obtain ⟨_, w₁, h₁, _, w₂, h₂, _, w₃, h₃, _, w₄, h₄, _, w₅, h₅, _, w₆, h₆, _, v₁, g₁, _, v₂, g₂,
    _, v₃, g₃, _, v₄, g₄, _, v₅, g₅, _, v₆, g₆, hmark⟩ := h
  have hsame : w₆.ledgerEntries = w.ledgerEntries := by
    rw [(creditSolver_ok h₆).frame, (creditFee_ok h₅).frame,
      (debitBalance_ok (Call.exec_mapErr_ok.1 h₄)).2.frame,
      Moves.frame (creditBalance_ok (Call.exec_mapErr_ok.1 h₃)),
      Moves.frame (creditBalance_ok (Call.exec_mapErr_ok.1 h₂)), (unlockAndDebit_ok h₁).2.frame]
  rw [← (query_eq hmark rfl).2]
  show v₆.ledgerEntries = _
  rw [insertFee_entries g₆, insertFee_entries g₅, insertLedger_entries g₄, insertLedger_entries g₃,
    insertLedger_entries g₂, insertLedger_entries g₁, hsame]
  simp only [fillEntries, List.append_assoc, List.cons_append, List.nil_append]
  rfl

/-- **The books of a successful `settle_fill`.** -/
theorem settleFill_entries (h : Call.exec (execStmt ar) (settleFill ar env p) w = (.ok (), w')) :
    ∃ fill, w.fill p.fillId = some fill ∧
      w'.ledgerEntries = w.ledgerEntries ++ fillEntries ar env p fill := by
  simp only [settleFill, Call.exec_bind_ok, Call.exec_orThrow_ok, Call.exec_failIf_ok] at h
  obtain ⟨row, w₀, hsel, fill, w₀', ⟨hrow, rfl⟩, _, w₀'', ⟨hns, rfl⟩, hbody⟩ := h
  obtain ⟨rfl, rfl⟩ := query_eq hsel rfl
  exact ⟨fill, hrow, settleLocked_entries hbody⟩

end Ledger

/-! ## The right parties -/

/-- The accounts that should settle the fill of an event: those of the intent's user, when the fill
is executed, and of the winning solver, when the event is handled. -/
structure Parties (i : Intent) (e : ExecutionCompletedEvent) (w₀ w : World) (buyer solver : Uuid) :
    Prop where
  buyer : w₀.accountByUserId i.userId = some buyer
  solver : w.accountByUserId e.solverId = some solver

section Parties

variable {ar : Arith} {env : Env} {w w₁ w₂ : World} {p q : SettleFillArgs}

/-- The books tell the sellers apart. -/
theorem seller_of_ledger (hid : p.fillId = q.fillId) (h₁ : settleFillTx ar env p w = (.ok (), w₁))
    (h₂ : settleFillTx ar env q w = (.ok (), w₂)) (hled : w₁.ledgerEntries = w₂.ledgerEntries) :
    p.sellerAccountId = q.sellerAccountId := by
  obtain ⟨f, hf, hp⟩ := settleFill_entries (Call.transaction_ok.1 h₁)
  obtain ⟨f', hf', hq⟩ := settleFill_entries (Call.transaction_ok.1 h₂)
  rw [← hid, hf] at hf'
  cases hf'
  rw [hp, hq] at hled
  have hentries := List.append_cancel_left hled
  -- the third entry of a settlement is the seller's
  have hthird := congrArg (fun l : List LedgerEntry => (l.map (·.accountId)).getD 2 0) hentries
  exact hthird

/-- A settlement changes the fills. -/
theorem settleFill_fills (h : settleFillTx ar env p w = (.ok (), w₁)) : w₁.fills ≠ w.fills := by
  obtain ⟨f, v₁, v₂, hf, hset, hmv, hbk, rfl⟩ := settleFill_ok (Call.transaction_ok.1 h)
  intro heq
  have hsame : w.fill p.fillId = (v₂.markFill p.fillId (env.now 0)).fill p.fillId := by
    unfold World.fill
    rw [heq]
  have hv₂ : v₂.fill p.fillId = some f := by
    rw [← hf, hbk.frame, hmv.frame]
    rfl
  have hmark : (v₂.markFill p.fillId (env.now 0)).fill p.fillId =
      some { f with settled := true, settledAt := some (env.now 0) } := by
    unfold World.fill World.markFill at *
    rw [Table.find_update_pk, hv₂]
    simp [(Table.find_pk_iff.1 hv₂).2]
  rw [hf, hmark] at hsame
  have hbad : f.settled = true := congrArg Fill.settled (Option.some.inj hsame)
  rw [hset] at hbad
  cases hbad

end Parties

/-- **The fill is settled between the buyer and the winning solver if and only if the solver's
account has the nil id.** -/
theorem right_parties_iff (ar : Arith) (bus : Bus) (env₀ env : Env) (w₀ w₁ w' : World) (id : Uuid)
    (i : Intent) (e : ExecutionCompletedEvent) (buyer solver : Uuid) (assetIn assetOut : Asset)
    (fees : Int → Int × Int) (r : Except String Unit) (new : List StreamEvent) (db : RetryDb)
    (hi : w₀.intent id = some i)
    (hrun : Call.exec (execAct ar bus) (executeFills env₀ id) w₀ = (r, w₁))
    (hnew : w₁.streams = w₀.streams ++ new) (he : .executionCompleted e ∈ new)
    (hparties : Parties i e w₀ db.world buyer solver)
    (hin : parseAsset i.tokenIn = some assetIn) (hout : parseAsset i.tokenOut = some assetOut)
    (hright : settleFillTx ar env ⟨e.fillId, buyer, solver, assetIn, assetOut, fees⟩ db.world =
      (.ok (), w')) :
    SettledAs w' db (Prog.run (execRetry ar bus) (processEvent env fees e) db).2 ↔
      solver = nilUuid := by
  obtain ⟨new', hnew', hevent⟩ := (executeFills_emits hi).holds hrun
  obtain rfl : new = new' := List.append_cancel_left (hnew.symm.trans hnew')
  obtain ⟨fill, -, xid, hex⟩ := hevent _ he
  rw [hparties.buyer] at hex
  have hex := StreamEvent.executionCompleted.inj hex
  have hin' : parseAsset e.tokenIn = some assetIn := by rw [hex, hin]
  have hout' : parseAsset e.tokenOut = some assetOut := by rw [hex, hout]
  have hargs : e.args assetIn assetOut fees = ⟨e.fillId, buyer, nilUuid, assetIn, assetOut, fees⟩ := by
    rw [hex]
    rfl
  constructor
  · intro hset
    rcases hx : settleFillTx ar env (e.args assetIn assetOut fees) db.world with ⟨r', w''⟩
    cases r' with
    | ok u =>
      cases u
      have hgot := processEvent_settled bus hin' hout' hx
      have hled : w'.ledgerEntries = w''.ledgerEntries :=
        hset.ledgerEntries.symm.trans hgot.ledgerEntries
      rw [hargs] at hx
      have hseller := seller_of_ledger (p := ⟨e.fillId, buyer, solver, assetIn, assetOut, fees⟩)
        (q := ⟨e.fillId, buyer, nilUuid, assetIn, assetOut, fees⟩) rfl hright hx hled
      exact hseller
    | error err =>
      rw [Call.transaction_error hx] at hx
      have hfills := processEvent_failed bus hin' hout' hx
      exact absurd (hset.fills.symm.trans hfills) (settleFill_fills hright)
  · rintro rfl
    rw [← hargs] at hright
    exact processEvent_settled bus hin' hout' hright

/-- A buyer with 100 USDC locked for intent 70, its fill of 150 ETH, and a solver whose account
`solver` has 200 ETH. -/
def pipelineDemo (solver : Uuid) : World :=
  { World.empty with
    users := [⟨10, "alice"⟩, ⟨20, "solver"⟩]
    accounts := [⟨1, 0⟩, ⟨2, 10⟩, ⟨solver, 20⟩]
    balances := ⟨[⟨100, 2, .USDC, 0, 100, 0⟩, ⟨101, solver, .ETH, 200, 0, 0⟩], by simp,
      by simp [Balance.key]⟩
    intents := ⟨[Intent.new 70 (uuidText 10) "USDC" "ETH" 100 0 0 0], by simp, by simp⟩
    fills := ⟨[Fill.new 1000 70 (uuidText 20) 160 150 100 0], by simp, by simp⟩ }

/-- The event of its fill. -/
def pipelineEvent : ExecutionCompletedEvent := ⟨1001, 1000, 70, uuidText 20, 2, 0, "USDC", "ETH"⟩

def pipelineFees : Int → Int × Int := fun _ => (10, 0)

/-- The settlement it should lead to. -/
def pipelineRight (solver : Uuid) : World :=
  (settleFillTx .release demoEnv' ⟨1000, 2, solver, .USDC, .ETH, pipelineFees⟩ (pipelineDemo solver)).2

theorem pipelineDemo_settles {solver : Uuid}
    (hok : (settleFillTx .release demoEnv' ⟨1000, 2, solver, .USDC, .ETH, pipelineFees⟩
      (pipelineDemo solver)).1 = .ok ()) :
    settleFillTx .release demoEnv' ⟨1000, 2, solver, .USDC, .ETH, pipelineFees⟩
      (pipelineDemo solver) = (.ok (), pipelineRight solver) := by
  rw [← hok]
  rfl

/-- An account with the nil id delivers. -/
theorem nil_solver_delivers :
    SettledAs (pipelineRight 0) ⟨pipelineDemo 0, .empty⟩
      (Prog.run (execRetry .release upBus) (processEvent demoEnv' pipelineFees pipelineEvent)
        ⟨pipelineDemo 0, .empty⟩).2 := by
  have hiff := right_parties_iff .release upBus demoEnv demoEnv' (pipelineDemo 0)
    (Call.exec (execAct .release upBus) (executeFills demoEnv 70) (pipelineDemo 0)).2
    (pipelineRight 0) 70 (Intent.new 70 (uuidText 10) "USDC" "ETH" 100 0 0 0) pipelineEvent 2 0
    .USDC .ETH pipelineFees _ [.executionCompleted pipelineEvent] ⟨pipelineDemo 0, .empty⟩
    (by decide +kernel) Prod.mk.eta.symm (by decide +kernel) (by decide +kernel)
    ⟨by decide +kernel, by decide +kernel⟩ (by decide +kernel) (by decide +kernel)
    (pipelineDemo_settles (by decide +kernel))
  exact hiff.2 rfl

/-- A solver with an account of its own and all it needs: the fill is not settled. -/
theorem solver_account_not_debited :
    ¬ ∀ (env₀ env : Env) (w₀ w₁ w' : World) (id : Uuid) (i : Intent) (e : ExecutionCompletedEvent)
        (buyer solver : Uuid) (assetIn assetOut : Asset) (fees : Int → Int × Int)
        (r : Except String Unit) (new : List StreamEvent) (db : RetryDb),
      w₀.intent id = some i →
      Call.exec (execAct .release upBus) (executeFills env₀ id) w₀ = (r, w₁) →
      w₁.streams = w₀.streams ++ new → .executionCompleted e ∈ new →
      Parties i e w₀ db.world buyer solver →
      parseAsset i.tokenIn = some assetIn → parseAsset i.tokenOut = some assetOut →
      settleFillTx .release env ⟨e.fillId, buyer, solver, assetIn, assetOut, fees⟩ db.world =
        (.ok (), w') →
      ((Prog.run (execRetry .release upBus) (processEvent env fees e) db).2.world.fill e.fillId).map
        (·.settled) = some true := by
  intro h
  have hbad := h demoEnv demoEnv' (pipelineDemo 3)
    (Call.exec (execAct .release upBus) (executeFills demoEnv 70) (pipelineDemo 3)).2
    (pipelineRight 3) 70 (Intent.new 70 (uuidText 10) "USDC" "ETH" 100 0 0 0) pipelineEvent 2 3
    .USDC .ETH pipelineFees _ [.executionCompleted pipelineEvent] ⟨pipelineDemo 3, .empty⟩
    (by decide +kernel) Prod.mk.eta.symm (by decide +kernel) (by decide +kernel)
    ⟨by decide +kernel, by decide +kernel⟩ (by decide +kernel) (by decide +kernel)
    (pipelineDemo_settles (by decide +kernel))
  revert hbad
  decide +kernel

end IntentX
