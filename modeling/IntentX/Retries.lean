import IntentX.Pipeline

/-!
# What a retry cycle does

`process_retries` settles trades again, but only counts its attempts on a fill: the fills table is
as it was when the cycle ends (`Advances.fills`).  So a fill that could be settled by now stays
unsettled.  An entry is deleted when its fill or trade is settled or is not there any more, or when
the intent of its fill is missing, which the query of `retry_fill` cannot tell from the fill being
missing (`processRetries_iff`).

Nothing else deletes entries.  So along every run of the event handler, of settlements that record
their failures, and of cycles, with whatever happens to the other tables in between, every step does
what it is for if and only if no cycle finds such a fill (`retried_for_real_iff`).
-/

namespace IntentX

open Lib

/-- The fill or the trade of an entry is settled, or no longer exists. -/
def RetryDb.Closed (db : RetryDb) (e : FailedSettlement) : Prop :=
  match e.fillId with
  | some f => ∀ fill, db.world.fill f = some fill → fill.settled = true
  | none => ∀ t, db.world.trade e.tradeId = some t → t.status = .Settled

/-- The entry is for an unsettled fill whose intent is missing. -/
def RetryDb.Orphan (db : RetryDb) (e : FailedSettlement) : Prop :=
  ∃ f fill, e.fillId = some f ∧ db.world.fill f = some fill ∧ fill.settled = false ∧
    db.world.intent fill.intentId = none

/-- An entry with this id is in the table. -/
def RetryDb.Has (db : RetryDb) (id : Uuid) : Prop := ∃ e ∈ db.failed.rows, e.id = id

/-! ## One entry -/

/-- What the steps of a cycle leave alone: the fills and the intents, and every trade that they do
not settle.  No entry is added. -/
structure Advances (db db' : RetryDb) : Prop where
  fills : db'.world.fills = db.world.fills
  intents : db'.world.intents = db.world.intents
  trades : ∀ id t, db'.world.trade id = some t → t.status = .Settled ∨ db.world.trade id = some t
  entries : ∀ id, db'.Has id → db.Has id

namespace Advances

variable {db db₁ db' : RetryDb} {e : FailedSettlement}

theorem refl (db : RetryDb) : Advances db db := ⟨rfl, rfl, fun _ _ => .inr, fun _ => id⟩

theorem trans (h : Advances db db₁) (h' : Advances db₁ db') : Advances db db' where
  fills := h'.fills.trans h.fills
  intents := h'.intents.trans h.intents
  trades := fun id t ht => (h'.trades id t ht).elim .inl (h.trades id t)
  entries := fun id hid => h.entries id (h'.entries id hid)

theorem fill (h : Advances db db') (id : Uuid) : db'.world.fill id = db.world.fill id := by
  unfold World.fill
  rw [h.fills]

theorem intent (h : Advances db db') (id : Uuid) : db'.world.intent id = db.world.intent id := by
  unfold World.intent
  rw [h.intents]

theorem closed (h : Advances db db') (hc : db.Closed e) : db'.Closed e := by
  unfold RetryDb.Closed at hc ⊢
  split at hc
  · intro fill hfill
    rw [h.fill] at hfill
    exact hc fill hfill
  · intro t ht
    exact (h.trades _ t ht).elim id (hc t)

theorem orphan (h : Advances db db') : db'.Orphan e ↔ db.Orphan e := by
  unfold RetryDb.Orphan
  simp only [h.fill, h.intent]

theorem of_failed {t} (h : ∀ id, RetryDb.Has { db with failed := t } id → db.Has id) :
    Advances db { db with failed := t } :=
  ⟨rfl, rfl, fun _ _ => .inr, h⟩

end Advances

section Entry

variable {ar : Arith} {bus : Bus} {db : RetryDb} {e : FailedSettlement}

theorem RetryDb.has_deleteEntry {id x : Uuid} : (db.deleteEntry id).Has x ↔ db.Has x ∧ x ≠ id := by
  unfold RetryDb.Has RetryDb.deleteEntry
  simp only [Table.mem_delete, decide_eq_false_iff_not]
  constructor
  · rintro ⟨r, ⟨hr, hne⟩, rfl⟩
    exact ⟨⟨r, hr, rfl⟩, hne⟩
  · rintro ⟨⟨r, hr, rfl⟩, hne⟩
    exact ⟨r, ⟨hr, hne⟩, rfl⟩

theorem RetryDb.has_updateEntry {id x : Uuid} {n : Int} {error : String} {next : Option Int}
    {b : Bool} : (db.updateEntry id n error next b).Has x ↔ db.Has x := by
  unfold RetryDb.Has RetryDb.updateEntry
  simp only [Table.mem_update]
  constructor
  · rintro ⟨r, ⟨r₀, hr₀, rfl⟩, rfl⟩
    refine ⟨r₀, hr₀, ?_⟩
    split <;> rfl
  · rintro ⟨r, hr, rfl⟩
    refine ⟨_, ⟨r, hr, rfl⟩, ?_⟩
    split <;> rfl

/-- What working on an entry comes to: it is deleted, and then it is closed or an orphan; or it is
kept, and then it is no orphan. -/
inductive Handled (e : FailedSettlement) (db db' : RetryDb) : Prop
  | deleted (step : Advances db db') (why : db'.Closed e ∨ db.Orphan e)
      (has : ∀ id, db'.Has id ↔ db.Has id ∧ id ≠ e.id)
  | kept (step : Advances db db') (why : ¬ db.Orphan e) (has : ∀ id, db'.Has id ↔ db.Has id)

theorem Handled.step {db' : RetryDb} (h : Handled e db db') : Advances db db' := by
  cases h with
  | deleted step _ _ => exact step
  | kept step _ _ => exact step

/-- A step on the other tables before does not matter. -/
theorem Handled.after {db₁ db' : RetryDb} (h : Handled e db₁ db') (hadv : Advances db db₁)
    (hhas : ∀ id, db₁.Has id ↔ db.Has id) : Handled e db db' := by
  cases h with
  | deleted step why has =>
    refine .deleted (hadv.trans step) (why.imp_right hadv.orphan.1) fun id => ?_
    rw [has, hhas]
  | kept step why has =>
    refine .kept (hadv.trans step) (fun ho => why (hadv.orphan.2 ho)) fun id => ?_
    rw [has, hhas]

theorem handled_delete (why : db.Closed e ∨ db.Orphan e) : Handled e db (db.deleteEntry e.id) := by
  have hadv : Advances db (db.deleteEntry e.id) :=
    .of_failed fun _ h => (RetryDb.has_deleteEntry.1 h).1
  exact .deleted hadv (why.imp_left hadv.closed) fun _ => RetryDb.has_deleteEntry

/-- A failed attempt is counted. -/
theorem handleRetryFailure_handled (ar : Arith) (bus : Bus) (env : Env) (attempt : Int) (msg : String)
    (hno : ¬ db.Orphan e) : ∃ db',
    Call.exec (execRetry ar bus) (handleRetryFailure env e attempt msg) db = (.ok (), db') ∧
      Handled e db db' := by
  have hkept : ∀ n error next b, Handled e db (db.updateEntry e.id n error next b) :=
    fun n error next b => .kept (.of_failed fun _ => RetryDb.has_updateEntry.1) hno
      fun _ => RetryDb.has_updateEntry
  unfold handleRetryFailure
  split
  · exact ⟨_, rfl, hkept ..⟩
  · exact ⟨_, rfl, hkept ..⟩

theorem retryFill_handled (env : Env) (attempt : Int) {f : Uuid} (hf : e.fillId = some f) : ∃ db',
    Call.exec (execRetry ar bus) (retryFill env e f attempt) db = (.ok (), db') ∧
      Handled e db db' := by
  have hctx : Call.exec (execRetry ar bus) (failedSql (.selectContext f)) db =
      (.ok (db.context f), db) := rfl
  have hset : Call.exec (execRetry ar bus) (failedSql (.selectSettled f)) db =
      (.ok ((db.world.fill f).map (·.settled)), db) := rfl
  unfold retryFill
  rw [Call.exec_bind, hctx]
  rcases hfill : db.world.fill f with _ | fill
  · -- the fill is gone
    have hnone : db.context f = none := by simp [RetryDb.context, hfill]
    simp only [hnone]
    refine ⟨_, rfl, handled_delete (.inl ?_)⟩
    simp [RetryDb.Closed, hf, hfill]
  rcases hi : db.world.intent fill.intentId with _ | i
  · have hnone : db.context f = none := by simp [RetryDb.context, hfill, hi]
    simp only [hnone]
    refine ⟨_, rfl, handled_delete ?_⟩
    cases hs : fill.settled with
    | true => exact .inl (by simp [RetryDb.Closed, hf, hfill, hs])
    | false => exact .inr ⟨f, fill, hf, hfill, hs, hi⟩
  · have hsome : db.context f = some (fill.intentId, i.tokenIn, i.tokenOut) := by
      simp [RetryDb.context, hfill, hi]
    simp only [hsome]
    rw [Call.exec_bind, hset, hfill]
    cases hs : fill.settled with
    | true =>
      simp only [Option.map_some, hs, Option.getD_some, if_true]
      exact ⟨_, rfl, handled_delete (.inl (by simp [RetryDb.Closed, hf, hfill, hs]))⟩
    | false =>
      simp only [Option.map_some, hs, Option.getD_some, if_false, Bool.false_eq_true]
      apply handleRetryFailure_handled
      rintro ⟨f', fill', hf', hfill', -, hi'⟩
      rw [hf] at hf'
      cases hf'
      rw [hfill] at hfill'
      cases hfill'
      rw [hi] at hi'
      cases hi'

theorem World.trade_markTrade (w : World) (id x : Uuid) (now : Int) :
    (w.markTrade id now).trade x = (w.trade x).map fun t =>
      if t.id = id then { t with status := .Settled, settledAt := some now } else t := by
  unfold World.trade World.markTrade
  simp only [Table.find_update_pk, decide_eq_true_eq]

/-- `settle_trade` changes no fill and no intent, and no trade but the one it settles. -/
theorem settleTradeTx_advances (ar : Arith) (env : Env) (db : RetryDb) (id : Uuid) :
    Advances db { db with world := (settleTradeTx ar env id db.world).2 } := by
  unfold settleTradeTx
  rcases Call.transaction_cases (h := execStmt ar) (settleTrade ar env id) db.world with
    ⟨r, w', hx, ht⟩ | ⟨err, ht⟩
  · rw [ht]
    obtain ⟨t, w₁, w₂, htr, -, hmv, hbk, rfl⟩ := settleTrade_ok hx
    rw [hbk.frame, hmv.frame]
    refine ⟨rfl, rfl, fun x t' ht' => ?_, fun _ h => h⟩
    rw [World.trade_markTrade] at ht'
    obtain ⟨t₀, ht₀, rfl⟩ := Option.map_eq_some_iff.1 ht'
    split
    · exact .inl rfl
    · exact .inr ht₀
  · rw [ht]
    exact Advances.refl db

/-- `settle_trade` says "already settled" only of a trade that is. -/
theorem settleTrade_alreadySettled {env : Env} {w w' : World} {id : Uuid}
    (h : Call.exec (execStmt ar) (settleTrade ar env id) w = (.error .AlreadySettled, w')) :
    ∃ t, w.trade id = some t ∧ t.status = .Settled := by
  have hsel : Call.exec (execStmt ar) (query (.selectTrade id) SettlementError.DbError) w =
      (.ok (w.trade id), w) := rfl
  unfold settleTrade at h
  rw [Call.exec_bind, hsel] at h
  rcases ht : w.trade id with _ | t
  · rw [ht] at h
    cases h
  refine ⟨t, rfl, ?_⟩
  rw [ht] at h
  simp only [Call.orThrow, pure_bind, Call.failIf_bind] at h
  split at h
  · assumption
  · refine absurd rfl (?_ : SettlementError.AlreadySettled ≠ .AlreadySettled)
    -- no statement after the check fails with that error
    refine (?_ : Call.Throws (execStmt ar) (· ≠ SettlementError.AlreadySettled) _) _ _ _ h
    iterate 12 refine Call.throws_bind (Call.throws_mapErr fun _ => by simp) fun _ => ?_
    exact Call.throws_bind (Call.throws_op fun _ => by simp) fun _ => Call.throws_pure _

theorem settleTrade_closes (ar : Arith) (env : Env) (id : Uuid) (w : World)
    (h : (∃ t, (settleTradeTx ar env id w).1 = .ok t) ∨
      (settleTradeTx ar env id w).1 = .error .AlreadySettled) :
    ∀ t, (settleTradeTx ar env id w).2.trade id = some t → t.status = .Settled := by
  rcases hx : Call.exec (execStmt ar) (settleTrade ar env id) w with ⟨r, w'⟩
  unfold settleTradeTx Call.transaction at h ⊢
  rw [hx] at h ⊢
  cases r with
  | ok t₀ =>
    obtain ⟨t, w₁, w₂, htr, -, -, -, rfl⟩ := settleTrade_ok hx
    obtain ⟨-, rfl⟩ : t ∈ w.trades.rows ∧ t.id = id := Table.find_pk_iff.1 htr
    intro t' ht'
    have hid : t'.id = t.id := (Table.find_pk_iff.1 ht').2
    simp only [World.trade_markTrade] at ht'
    obtain ⟨t₁, -, rfl⟩ := Option.map_eq_some_iff.1 ht'
    split
    · rfl
    · next hne =>
      rw [if_neg hne] at hid
      exact absurd hid hne
  | error e =>
    obtain rfl : e = .AlreadySettled := by simpa using h
    obtain ⟨t, ht, hst⟩ := settleTrade_alreadySettled hx
    intro t' ht'
    rw [ht] at ht'
    cases ht'
    exact hst

theorem retryTrade_handled (env : Env) (attempt : Int) (he : e.fillId = none) : ∃ db',
    Call.exec (execRetry ar bus) (retryTrade env e attempt) db = (.ok (), db') ∧
      Handled e db db' := by
  have hadv := settleTradeTx_advances ar env db e.tradeId
  have hcl := settleTrade_closes ar env e.tradeId db.world
  have hask : Call.exec (execRetry ar bus)
      (ExceptT.lift (Prog.ask (RetryAct.settleTrade env e.tradeId)) : Retry SqlError _) db =
        (.ok (.ok (settleTradeTx ar env e.tradeId db.world).1),
          { db with world := (settleTradeTx ar env e.tradeId db.world).2 }) := rfl
  have hno : ∀ db' : RetryDb, ¬ db'.Orphan e := by
    rintro db' ⟨f, fill, hf, -⟩
    rw [he] at hf
    cases hf
  unfold retryTrade
  rw [Call.exec_bind, hask]
  set db₁ : RetryDb := { db with world := (settleTradeTx ar env e.tradeId db.world).2 }
  have hdelete : db₁.Closed e → ∃ db', Call.exec (execRetry ar bus) (failedSql (.delete e.id)) db₁ =
      (.ok (), db') ∧ Handled e db db' := fun hc =>
    ⟨_, rfl, (handled_delete (.inl hc)).after hadv fun _ => Iff.rfl⟩
  have hclosed : ((∃ t, (settleTradeTx ar env e.tradeId db.world).1 = .ok t) ∨
      (settleTradeTx ar env e.tradeId db.world).1 = .error .AlreadySettled) → db₁.Closed e := by
    intro h
    simpa only [RetryDb.Closed, he] using hcl h
  simp only [flatten]
  split
  · next t hr => exact hdelete (hclosed (.inl ⟨t, hr⟩))
  · next hr => exact hdelete (hclosed (.inr hr))
  · obtain ⟨db', hx, hh⟩ := handleRetryFailure_handled ar bus (env.drop 12) attempt
      _ (hno db₁)
    exact ⟨db', hx, hh.after hadv fun _ => Iff.rfl⟩

theorem retryEntry_handled (ar : Arith) (bus : Bus) (env : Env) (db : RetryDb)
    (e : FailedSettlement) : ∃ db',
    Call.exec (execRetry ar bus) (retryEntry env e) db = (.ok (), db') ∧ Handled e db db' := by
  unfold retryEntry
  split
  · next f hf => exact retryFill_handled env _ hf
  · next hf => exact retryTrade_handled env _ hf

end Entry

/-! ## The cycle -/

section Cycle

variable {ar : Arith} {bus : Bus}

/-- **The loop.**  An entry that is gone afterwards was worked on, and is closed or was an orphan;
and every orphan that was worked on is gone. -/
theorem retryLoop_handled (ar : Arith) (bus : Bus) (env : Env) (pending : List FailedSettlement)
    (db : RetryDb) : ∃ db',
    Call.exec (execRetry ar bus) (retryLoop env pending) db = (.ok (), db') ∧ Advances db db' ∧
      (∀ id, db.Has id → ¬ db'.Has id → ∃ e ∈ pending, e.id = id ∧ (db'.Closed e ∨ db.Orphan e)) ∧
      ∀ e ∈ pending, db.Orphan e → ¬ db'.Has e.id := by
  induction pending generalizing env db with
  | nil => exact ⟨db, rfl, Advances.refl db, fun _ h hn => absurd h hn, fun e he => (nomatch he)⟩
  | cons e pending ih =>
    obtain ⟨db₁, hx, hh⟩ := retryEntry_handled ar bus env db e
    obtain ⟨db', hx', hadv, hgone, horph⟩ := ih (env.drop 13) db₁
    have hstep := hh.step
    refine ⟨db', ?_, hstep.trans hadv, fun id hid hn => ?_, fun e' he' ho => ?_⟩
    · show Call.exec _ (retryEntry env e >>= fun _ => retryLoop (env.drop 13) pending) db = _
      rw [Call.exec_bind, hx]
      exact hx'
    · by_cases hid₁ : db₁.Has id
      · obtain ⟨e', he', heq, hwhy⟩ := hgone id hid₁ hn
        exact ⟨e', List.mem_cons_of_mem e he', heq, hwhy.imp_right hstep.orphan.1⟩
      · -- gone in this step
        cases hh with
        | deleted _ why has =>
          refine ⟨e, List.mem_cons_self, ?_, why.imp_left hadv.closed⟩
          by_contra hne
          exact hid₁ ((has id).2 ⟨hid, fun h => hne h.symm⟩)
        | kept _ _ has => exact absurd ((has id).2 hid) hid₁
    · rcases List.mem_cons.1 he' with rfl | he'
      · cases hh with
        | deleted _ _ has => exact fun h => ((has _).1 (hadv.entries _ h)).2 rfl
        | kept _ why _ => exact absurd ho why
      · exact horph e' he' (hstep.orphan.2 ho)

/-- Some call of `settle_fill` for the fill would succeed. -/
def World.CanSettle (ar : Arith) (w : World) (fillId : Uuid) : Prop :=
  ∃ env p, SettleFillArgs.fillId p = fillId ∧ (settleFillTx ar env p w).1 = .ok ()

theorem World.CanSettle.unsettled {w : World} {id : Uuid} (h : w.CanSettle ar id) :
    ∃ fill, w.fill id = some fill ∧ fill.settled = false := by
  obtain ⟨env, p, rfl, hok⟩ := h
  rcases hx : settleFillTx ar env p w with ⟨r, w'⟩
  rw [hx] at hok
  obtain rfl : r = .ok () := hok
  obtain ⟨f, w₁, w₂, hf, hset, -⟩ := settleFill_ok (Call.transaction_ok.1 hx)
  exact ⟨f, hf, hset⟩

/-- What a step from `db` to `db'` is for, which works on the entries `due`: they have their fills
settled as soon as that is possible, and an entry is deleted only when it is closed. -/
structure RetriedForReal (ar : Arith) (due : List FailedSettlement) (db db' : RetryDb) : Prop where
  settles : ∀ e ∈ due, ∀ f, e.fillId = some f → db.world.CanSettle ar f →
    ∃ fill, db'.world.fill f = some fill ∧ fill.settled = true
  deletes : ∀ e ∈ db.failed.rows, ¬ db'.Has e.id → db'.Closed e

theorem mem_failed_of_due {db : RetryDb} {now : Int} {e : FailedSettlement} (h : e ∈ db.due now) :
    e ∈ db.failed.rows := by
  have hsort := List.mem_of_mem_take h
  rw [List.mem_insertionSort] at hsort
  exact (List.mem_filter.1 hsort).1

/-- None of the entries names an unsettled fill that can be settled, or whose intent is missing. -/
def NothingToRetry (ar : Arith) (due : List FailedSettlement) (w : World) : Prop :=
  ∀ e ∈ due, ∀ f fill, e.fillId = some f → w.fill f = some fill → fill.settled = false →
    ¬ w.CanSettle ar f ∧ (w.intent fill.intentId).isSome = true

/-- A cycle retries for real if and only if there is nothing to retry. -/
theorem processRetries_iff (ar : Arith) (bus : Bus) (env : Env) (db : RetryDb) :
    RetriedForReal ar (db.due (env.now 0)) db
        (Call.exec (execRetry ar bus) (processRetries env) db).2 ↔
      NothingToRetry ar (db.due (env.now 0)) db.world := by
  obtain ⟨db', hx, hadv, hgone, horph⟩ :=
    retryLoop_handled ar bus (env.drop 1) (db.due (env.now 0)) db
  have hrun : Call.exec (execRetry ar bus) (processRetries env) db = (.ok (), db') := by
    have hsel : Call.exec (execRetry ar bus) (failedSql (.selectDue (env.now 0))) db =
        (.ok (db.due (env.now 0)), db) := rfl
    unfold processRetries
    rw [Call.exec_bind, hsel]
    exact hx
  rw [hrun]
  constructor
  · intro h e he f fill hf hfill hset
    constructor
    · intro hcan
      obtain ⟨fill', hfill', hset'⟩ := h.settles e he f hf hcan
      rw [hadv.fill, hfill] at hfill'
      cases hfill'
      rw [hset] at hset'
      cases hset'
    · rw [Option.isSome_iff_ne_none]
      intro hi
      have hcl := h.deletes e (mem_failed_of_due he) (horph e he ⟨f, fill, hf, hfill, hset, hi⟩)
      simp only [RetryDb.Closed, hf, hadv.fill] at hcl
      rw [hcl fill hfill] at hset
      cases hset
  · intro h
    refine ⟨fun e he f hf hcan => ?_, fun e he hn => ?_⟩
    · obtain ⟨fill, hfill, hset⟩ := hcan.unsettled
      exact absurd hcan (h e he f fill hf hfill hset).1
    · obtain ⟨e', he', hid, hwhy⟩ := hgone e.id ⟨e, he, rfl⟩ hn
      obtain rfl : e' = e := eq_of_key_eq db.failed.pk_nodup (mem_failed_of_due he') he hid
      refine hwhy.resolve_right ?_
      rintro ⟨f, fill, hf, hfill, hset, hi⟩
      have hsome := (h e' he' f fill hf hfill hset).2
      rw [hi] at hsome
      cases hsome

end Cycle

/-! ## Runs -/

section Runs

variable {ar : Arith} {bus : Bus} {db : RetryDb} {x : Uuid}

/-- Every act but a `DELETE`. -/
def RetryAct.keepsEntries : RetryAct → Bool
  | .failed (.delete _) => false
  | _ => true

theorem RetryDb.has_insertEntry (e : FailedSettlement) (h : db.Has x) : (db.insertEntry e).Has x := by
  obtain ⟨r, hr, hid⟩ := h
  refine ⟨r, ?_, hid⟩
  unfold RetryDb.insertEntry
  rcases ht : db.failed.insert e with _ | t
  · exact hr
  · exact (Table.mem_insert ht).2 (.inl hr)

theorem RetryDb.has_upsertEntry (e : FailedSettlement) (h : db.Has x) : (db.upsertEntry e).2.Has x := by
  obtain ⟨r, hr, hid⟩ := h
  unfold RetryDb.upsertEntry
  split
  · simp only [RetryDb.Has, Table.mem_update]
    refine ⟨_, ⟨r, hr, rfl⟩, ?_⟩
    split <;> exact hid
  · split
    · next t ht => exact ⟨r, (Table.mem_insert ht).2 (.inl hr), hid⟩
    · exact ⟨r, hr, hid⟩

theorem execRetry_has (o : RetryAct) (ho : o.keepsEntries = true) (db : RetryDb) (h : db.Has x) :
    (execRetry ar bus o db).2.Has x := by
  cases o with
  | act | settleFill | settleTrade => exact h
  | failed o =>
    cases o with
    | delete => cases ho
    | insertFill => exact RetryDb.has_insertEntry _ h
    | upsertTrade => exact RetryDb.has_upsertEntry _ h
    | giveUp | reschedule => exact RetryDb.has_updateEntry.2 h
    | selectDue | selectContext | selectSettled => exact h

theorem processEvent_keeps (env : Env) (fees : Int → Int × Int) (event : ExecutionCompletedEvent) :
    (processEvent env fees event).Issues fun o => o.keepsEntries = true := by
  unfold processEvent
  split
  · trivial
  split
  · trivial
  refine Prog.issues_bind (Prog.issues_ask rfl) fun _ => ?_
  unfold onSettled
  split
  · refine Prog.issues_bind (Prog.issues_embed ?_) fun _ => trivial
    exact Prog.issues_of_forall (fun _ => rfl) _
  · refine Prog.issues_bind (Prog.issues_embed ?_) fun _ => trivial
    exact Prog.issues_of_forall (fun _ => rfl) _
  · exact Prog.issues_bind (Prog.issues_ask rfl) fun _ => trivial

theorem settleTradeWithRetry_keeps (env : Env) (tradeId : Uuid) :
    (settleTradeWithRetry env tradeId).Issues fun o => o.keepsEntries = true := by
  unfold settleTradeWithRetry
  refine Prog.issues_bind (Prog.issues_ask rfl) fun _ => ?_
  split
  · trivial
  · trivial
  · exact Prog.issues_bind (Prog.issues_ask rfl) fun _ => trivial

/-- An event is handled, a trade is settled, the retry worker makes a cycle, or something else
happens to the other tables. -/
inductive RetryStep where
  | processEvent (env : Env) (fees : Int → Int × Int) (event : ExecutionCompletedEvent)
  | settleTradeWithRetry (env : Env) (tradeId : Uuid)
  | processRetries (env : Env)
  | elsewhere (change : World → World)

def RetryStep.next (ar : Arith) (bus : Bus) : RetryStep → RetryDb → RetryDb
  | .processEvent env fees event, db =>
    (Prog.run (execRetry ar bus) (IntentX.processEvent env fees event) db).2
  | .settleTradeWithRetry env tradeId, db =>
    (Prog.run (execRetry ar bus) (IntentX.settleTradeWithRetry env tradeId) db).2
  | .processRetries env, db => (Call.exec (execRetry ar bus) (IntentX.processRetries env) db).2
  | .elsewhere change, db => { db with world := change db.world }

/-- The entries a step works on. -/
def RetryStep.due (db : RetryDb) : RetryStep → List FailedSettlement
  | .processRetries env => db.due (env.now 0)
  | _ => []

/-- `P` holds of every step of a run, in the state the step is taken in. -/
def Along (ar : Arith) (bus : Bus) (P : RetryStep → RetryDb → Prop) : List RetryStep → RetryDb → Prop
  | [], _ => True
  | s :: steps, db => P s db ∧ Along ar bus P steps (s.next ar bus db)

theorem along_congr {P Q : RetryStep → RetryDb → Prop} (h : ∀ s db, P s db ↔ Q s db)
    (steps : List RetryStep) (db : RetryDb) : Along ar bus P steps db ↔ Along ar bus Q steps db := by
  induction steps generalizing db with
  | nil => exact Iff.rfl
  | cons s steps ih => exact and_congr (h s db) (ih _)

/-- Only a cycle deletes entries. -/
theorem RetryStep.iff (ar : Arith) (bus : Bus) (s : RetryStep) (db : RetryDb) :
    RetriedForReal ar (s.due db) db (s.next ar bus db) ↔ NothingToRetry ar (s.due db) db.world := by
  have hkept : ∀ {db' : RetryDb}, (∀ x, db.Has x → db'.Has x) →
      (RetriedForReal ar [] db db' ↔ NothingToRetry ar [] db.world) := by
    intro db' hhas
    refine iff_of_true ⟨nofun, fun e he hn => ?_⟩ nofun
    exact absurd (hhas e.id ⟨e, he, rfl⟩) hn
  cases s with
  | processEvent env fees event =>
    exact hkept fun _ => Prog.run_keeps execRetry_has (processEvent_keeps env fees event)
  | settleTradeWithRetry env tradeId =>
    exact hkept fun _ => Prog.run_keeps execRetry_has (settleTradeWithRetry_keeps env tradeId)
  | processRetries env => exact processRetries_iff ar bus env db
  | elsewhere change => exact hkept fun _ h => h

/-- **Settlements are retried for real if and only if there is nothing to retry.**  Along every run,
every step settles what is due and can be settled, and deletes only closed entries, if and only if
no cycle finds an entry for an unsettled fill that can be settled or whose intent is missing. -/
theorem retried_for_real_iff (ar : Arith) (bus : Bus) (steps : List RetryStep) (db : RetryDb) :
    Along ar bus (fun s db => RetriedForReal ar (s.due db) db (s.next ar bus db)) steps db ↔
      Along ar bus (fun s db => NothingToRetry ar (s.due db) db.world) steps db :=
  along_congr (RetryStep.iff ar bus) steps db

end Runs

/-! ## A fill that is never tried again -/

/-- The solver of `pipelineDemo` has `eth` ETH. -/
def retryDemo (eth : Int) : World :=
  { pipelineDemo 3 with
    balances := ⟨[⟨100, 2, .USDC, 0, 100, 0⟩, ⟨101, 3, .ETH, eth, 0, 0⟩], by simp,
      by simp [Balance.key]⟩ }

def retryDemoEvent : ExecutionCompletedEvent := ⟨90, 1000, 70, uuidText 20, 2, 3, "USDC", "ETH"⟩

def retryDemoFees : Int → Int × Int := fun _ => (10, 0)

/-- The solver has no ETH when the event is handled. -/
def retryRecorded : RetryDb :=
  (Prog.run (execRetry .release upBus) (processEvent demoEnv retryDemoFees retryDemoEvent)
    ⟨retryDemo 0, .empty⟩).2

/-- Ten seconds later. -/
def laterEnv : Env := ⟨fun i => 2000 + i, fun _ => seconds 10⟩

/-- The solver has the ETH by now, the entry is due, and the cycle leaves the fill unsettled. -/
theorem fill_never_retried :
    ¬ ∀ (env env' : Env) (p : SettleFillArgs) (event : ExecutionCompletedEvent) (db : RetryDb)
        (w : World),
      parseAsset event.tokenIn = some p.assetIn → parseAsset event.tokenOut = some p.assetOut →
      (event.fillId, event.buyerAccountId, event.sellerAccountId) =
        (p.fillId, p.buyerAccountId, p.sellerAccountId) →
      (settleFillTx .release env p db.world).1 = .error .InsufficientBalance →
      ((Prog.run (execRetry .release upBus) (processEvent env p.fees event) db).2.failed.rows.any
        fun e => e.fillId == some p.fillId) = true →
      (settleFillTx .release env' p w).1 = .ok () → w.fills.rows = db.world.fills.rows →
      ∀ db' : RetryDb,
        db' = ⟨w, (Prog.run (execRetry .release upBus) (processEvent env p.fees event) db).2.failed⟩ →
        ((db'.due (env'.now 0)).any fun e =>
          e.fillId == some p.fillId && decide (e.retryCount < maxRetries)) = true →
        ((Call.exec (execRetry .release upBus) (processRetries env') db').2.world.fill p.fillId).map
          (·.settled) = some true := by
  intro h
  have hbad := h demoEnv laterEnv ⟨1000, 2, 3, .USDC, .ETH, retryDemoFees⟩ retryDemoEvent
    ⟨retryDemo 0, .empty⟩ (retryDemo 200) (by decide +kernel) (by decide +kernel) rfl
    (by decide +kernel) (by decide +kernel) (by decide +kernel) rfl
    ⟨retryDemo 200, retryRecorded.failed⟩ rfl (by decide +kernel)
  revert hbad
  decide +kernel

end IntentX
